import DfaWorkbench.Proofs.Grammar.Reading

/-! Printed grammars are read again as they were: the printer only puts the start symbol first, and
all else is the same up to order. -/

namespace DfaWorkbench.Grammar

variable {g g' : Grammar} {start : String} {names heads : List String} {rules : List Rule}

def ruleFor? (rules : List Rule) (head : String) : Option Rule :=
  rules.find? (·.head = head)

def startFirst (start : String) (names : List String) : List String :=
  start :: names.filter (· ≠ start)

def rulesInOrder (rules : List Rule) (heads : List String) : List Rule :=
  heads.filterMap (ruleFor? rules)

lemma ruleFor?_eq_some_iff (h : (rules.map Rule.head).Nodup) {head : String} {r : Rule} :
    ruleFor? rules head = some r ↔ r ∈ rules ∧ r.head = head :=
  Sequence.find?_eq_some_iff h

lemma rulesInOrder_perm (h : (rules.map Rule.head).Nodup) (hheads : heads.Nodup)
    (hmem : ∀ r ∈ rules, r.head ∈ heads) : (rulesInOrder rules heads).Perm rules := by
  have hnodup : (rulesInOrder rules heads).Nodup := by
    refine hheads.filterMap fun a b r ha hb => ?_
    exact ((ruleFor?_eq_some_iff h).1 ha).2.symm.trans ((ruleFor?_eq_some_iff h).1 hb).2
  refine (List.perm_ext_iff_of_nodup hnodup h.of_map).2 fun r => ?_
  rw [rulesInOrder, List.mem_filterMap]
  constructor
  · rintro ⟨head, _, hr⟩
    exact ((ruleFor?_eq_some_iff h).1 hr).1
  · exact fun hr => ⟨r.head, hmem r hr, (ruleFor?_eq_some_iff h).2 ⟨hr, rfl⟩⟩

lemma productionsFor_text (h : g.productions = rules.map Rule.entry) (head : String) :
    g.productionsFor (.text head) = ((ruleFor? rules head).map fun r => r.entry.2).getD [] := by
  have hkey : (fun e : Name × List Production => decide (e.1.key = .text head)) ∘ Rule.entry =
      fun r => decide (r.head = head) := by
    funext r
    simp [Rule.entry]
  rw [productionsFor, h, List.find?_map, hkey, ruleFor?, Option.map_map]
  rfl

lemma productionsFor_of_perm (h : g'.productions.Perm g.productions)
    (hnodup : (g.productions.map fun e => e.1.key).Nodup) (head : Key) :
    g'.productionsFor head = g.productionsFor head := by
  rw [productionsFor, productionsFor, Sequence.find?_of_perm h hnodup]

def Uses (g : Grammar) (symbol : Key) : Prop :=
  g.productionsFor symbol ≠ [] ∨
    ∃ entry ∈ g.productions, ∃ p ∈ entry.2, symbol ∈ p.symbols.map Name.key

structure WrittenBy (g : Grammar) (start : String) (names : List String) (rules : List Rule) :
    Prop where
  start_eq : g.start = .text start
  nonTerminals_eq : g.nonTerminals = names.map Name.text
  productions_eq : g.productions = rules.map Rule.entry
  names_nodup : names.Nodup
  start_mem : start ∈ names
  head_mem : ∀ r ∈ rules, r.head ∈ names
  heads_nodup : (rules.map Rule.head).Nodup
  readable : ∀ r ∈ rules, r.Readable

namespace WrittenBy

variable (h : g.WrittenBy start names rules)

include h

lemma headsStartFirst_eq :
    g.headsStartFirst = (startFirst start names).map Name.text := by
  rw [headsStartFirst, h.start_eq, h.nonTerminals_eq, List.filter_map]
  simp [startFirst, Function.comp_def]

lemma line_eq (head : String) :
    (match g.productionsFor (Name.text head).key with
      | [] => none
      | ps => some (ruleLine {} (.text head) ps)) =
    (ruleFor? rules head).map fun r => ruleLine {} r.entry.1 r.entry.2 := by
  rw [Name.key_text, productionsFor_text h.productions_eq]
  cases hr : ruleFor? rules head with
  | none => rfl
  | some r =>
    obtain ⟨hmem, rfl⟩ := (ruleFor?_eq_some_iff h.heads_nodup).1 hr
    obtain ⟨cs, alternatives, hcs⟩ :=
      List.exists_cons_of_ne_nil (h.readable r hmem).alternatives_ne
    simp [Rule.entry, hcs]

lemma toList_format : (g.format {}).toList = ['\n'].intercalate
    ((rulesInOrder rules (startFirst start names)).map Rule.written) := by
  have hbreak : "\n".toList = ['\n'] := rfl
  rw [format, h.headsStartFirst_eq, List.filterMap_map, String.toList_intercalate, hbreak]
  congr 1
  rw [rulesInOrder, List.map_filterMap, List.map_filterMap]
  refine List.filterMap_congr fun head _ => ?_
  refine (congrArg (Option.map String.toList) (h.line_eq head)).trans ?_
  rw [Option.map_map]
  exact Option.map_congr fun r _ => r.toList_ruleLine

lemma shownNames_texts {head : Name} (hhead : head ∈ g.headsStartFirst) :
    ∀ p ∈ g.productionsFor head.key, ∀ n ∈ p.shownNames "ε", n.isText = true := by
  rw [h.headsStartFirst_eq] at hhead
  obtain ⟨name, _, rfl⟩ := List.mem_map.1 hhead
  intro p hp n hn
  rw [Name.key_text, productionsFor_text h.productions_eq] at hp
  obtain ⟨cs, rfl⟩ : ∃ cs, p = Production.ofChars cs := by
    cases hr : ruleFor? rules name with
    | none => simp [hr] at hp
    | some r =>
      obtain ⟨cs, _, rfl⟩ : ∃ cs ∈ r.alternatives, Production.ofChars cs = p := by
        simpa [hr, Rule.entry] using hp
      exact ⟨cs, rfl⟩
  rw [Production.shownNames] at hn
  split at hn
  · obtain rfl := List.mem_singleton.1 hn
    rfl
  · obtain ⟨c, _, rfl⟩ := List.mem_map.1 hn
    rfl

lemma formatted_eq : g.formatted {} = .ok (g.format {}) := by
  have hatoms : g.headsStartFirst.all Name.isAtom = true := by
    rw [h.headsStartFirst_eq]
    simp
  have htexts : ((g.headsStartFirst.flatMap fun head => g.productionsFor head.key).flatMap
      (Production.shownNames "ε")).all Name.isText = true := by
    rw [List.all_eq_true]
    intro n hn
    obtain ⟨p, hp, hn⟩ := List.mem_flatMap.1 hn
    obtain ⟨head, hhead, hp⟩ := List.mem_flatMap.1 hp
    exact h.shownNames_texts hhead p hp n hn
  rw [formatted, Name.requireAtoms, if_pos hatoms, Name.requireTexts, if_pos htexts]
  rfl

lemma rulesInOrder_perm :
    (rulesInOrder rules (startFirst start names)).Perm rules := by
  refine Grammar.rulesInOrder_perm h.heads_nodup ?_ fun r hr => ?_
  · simpa [startFirst] using h.names_nodup.filter _
  · have hmem := h.head_mem r hr
    by_cases he : r.head = start <;> simp [startFirst, he, hmem]

lemma parse_format (htrim : Text.trim start.toList = start.toList) :
    parse {} start (g.format {}) =
      ofRules start (rulesInOrder rules (startFirst start names)) := by
  have hreadable : ∀ r ∈ rulesInOrder rules (startFirst start names), r.Readable :=
    fun r hr => h.readable r (h.rulesInOrder_perm.mem_iff.1 hr)
  rw [parse, h.toList_format, parseRules_written hreadable, htrim, String.ofList_toList]
  rfl

lemma productionsFor_ne_nil_iff {head : String} :
    g.productionsFor (.text head) ≠ [] ↔ ∃ r ∈ rules, r.head = head := by
  rw [productionsFor_text h.productions_eq]
  constructor
  · intro hne
    cases hr : ruleFor? rules head with
    | none => simp [hr] at hne
    | some r => exact ⟨r, (ruleFor?_eq_some_iff h.heads_nodup).1 hr⟩
  · rintro ⟨r, hr, rfl⟩
    have hfound := (ruleFor?_eq_some_iff h.heads_nodup).2 ⟨hr, rfl⟩
    simpa [hfound, Rule.entry] using (h.readable r hr).alternatives_ne

lemma exists_symbol_iff {c : Char} : (∃ r ∈ rules, c ∈ r.symbols) ↔
    ∃ entry ∈ g.productions, ∃ p ∈ entry.2, (Name.ofChar c).key ∈ p.symbols.map Name.key := by
  rw [h.productions_eq]
  constructor
  · rintro ⟨r, hr, hc⟩
    obtain ⟨cs, hcs, hc⟩ := List.mem_flatten.1 hc
    exact ⟨r.entry, List.mem_map_of_mem hr, .ofChars cs, List.mem_map_of_mem hcs,
      List.mem_map_of_mem (List.mem_map_of_mem hc)⟩
  · rintro ⟨_, hentry, _, hp, hk⟩
    obtain ⟨r, hr, rfl⟩ := List.mem_map.1 hentry
    obtain ⟨cs, hcs, rfl⟩ := List.mem_map.1 hp
    obtain ⟨_, hsymbol, hk⟩ := List.mem_map.1 hk
    obtain ⟨d, hd, rfl⟩ := List.mem_map.1 hsymbol
    obtain rfl : d = c := String.singleton_inj.1 (Key.text.inj hk)
    exact ⟨r, hr, List.mem_flatten.2 ⟨cs, hcs, hd⟩⟩

lemma mem_nonTerminalsOf_iff {c : Char} (hc : isNonTerminalSymbol c = true) :
    String.singleton c ∈ nonTerminalsOf rules ↔ g.Uses (Name.ofChar c).key := by
  rw [mem_nonTerminalsOf, Uses]
  refine or_congr h.productionsFor_ne_nil_iff.symm ?_
  rw [← h.exists_symbol_iff]
  constructor
  · rintro ⟨d, hd, _, he⟩
    rwa [← String.singleton_inj.1 he]
  · exact fun hd => ⟨c, hd, hc, rfl⟩

lemma nonTerminalsOf_perm_names
    (hletters : ∀ x ∈ names, ∃ c, isNonTerminalSymbol c = true ∧ String.singleton c = x)
    (huses : ∀ c, isNonTerminalSymbol c = true →
      (g.Uses (Name.ofChar c).key ↔ String.singleton c ∈ names)) :
    (nonTerminalsOf rules).Perm names := by
  refine (List.perm_ext_iff_of_nodup (nodup_nonTerminalsOf rules) h.names_nodup).2 fun x => ?_
  constructor
  · intro hx
    rcases mem_nonTerminalsOf.1 hx with ⟨r, hr, rfl⟩ | ⟨c, _, hc, rfl⟩
    · exact h.head_mem r hr
    · exact (huses c hc).1 ((h.mem_nonTerminalsOf_iff hc).1 hx)
  · intro hx
    obtain ⟨c, hc, rfl⟩ := hletters x hx
    exact (h.mem_nonTerminalsOf_iff hc).2 ((huses c hc).2 hx)

lemma parse_format_eq_error (htrim : Text.trim start.toList = start.toList)
    (hstart : start ∉ nonTerminalsOf rules) :
    parse {} start (g.format {}) = .error (.unknownStart start) := by
  rw [h.parse_format htrim, ofRules_eq, if_neg]
  rwa [(nonTerminalsOf_perm h.rulesInOrder_perm).mem_iff]

lemma parse_format_eq_ok (htrim : Text.trim start.toList = start.toList)
    (hstart : start ∈ nonTerminalsOf rules) :
    ∃ g', parse {} start (g.format {}) = .ok g' ∧ g'.start = g.start ∧
      g'.productions.Perm g.productions ∧
      (∀ head, g'.productionsFor head = g.productionsFor head) ∧
      g'.nonTerminals.Perm ((nonTerminalsOf rules).map Name.text) ∧
      g'.terminals.Perm ((terminalsOf rules).map Name.ofChar) := by
  have hperm := h.rulesInOrder_perm
  have hnodup : ((rulesInOrder rules (startFirst start names)).map Rule.head).Nodup :=
    (hperm.map Rule.head).nodup_iff.2 h.heads_nodup
  have hproductions :
      (assembled start (rulesInOrder rules (startFirst start names))).productions.Perm
        g.productions := by
    rw [productions_assembled, merged_of_nodup hnodup, h.productions_eq]
    exact hperm.map Rule.entry
  refine ⟨_, ?_, h.start_eq.symm, hproductions, productionsFor_of_perm hproductions ?_,
    (nonTerminalsOf_perm hperm).map Name.text, (terminalsOf_perm hperm).map Name.ofChar⟩
  · rw [h.parse_format htrim, ofRules_eq, if_pos]
    rwa [(nonTerminalsOf_perm hperm).mem_iff]
  · have hkeys := h.heads_nodup.map fun a b (he : Key.text a = .text b) => Key.text.inj he
    rw [List.map_map] at hkeys
    rwa [h.productions_eq, List.map_map]

end WrittenBy

lemma writtenBy_assembled (h : ∀ r ∈ rules, r.Readable) (hstart : start ∈ nonTerminalsOf rules) :
    (assembled start rules).WrittenBy start (nonTerminalsOf rules) (merged rules) where
  start_eq := rfl
  nonTerminals_eq := rfl
  productions_eq := productions_assembled start rules
  names_nodup := nodup_nonTerminalsOf rules
  start_mem := hstart
  head_mem r hr := mem_nonTerminalsOf.2 (.inl (exists_head_merged.1 ⟨r, hr, rfl⟩))
  heads_nodup := nodup_heads_merged rules
  readable := readable_merged h

lemma exists_rules_of_parse {text : String} (h : parse {} start text = .ok g) :
    ∃ rules, (∀ r ∈ rules, r.Readable) ∧
      String.ofList (Text.trim start.toList) ∈ nonTerminalsOf rules ∧
      g = assembled (String.ofList (Text.trim start.toList)) rules := by
  obtain ⟨rules, hrules, hstart, hg⟩ := parse_eq_ok_iff.1 h
  exact ⟨rules, readable_of_parseRules hrules, hstart, hg⟩

lemma parse_eq_ok {text : String} (h : parse {} start text = .ok g) :
    ∃ s rules, Text.trim s.toList = s.toList ∧ (∀ r ∈ rules, r.Readable) ∧
      s ∈ nonTerminalsOf rules ∧ g = assembled s rules := by
  obtain ⟨rules, hreadable, hstart, hg⟩ := exists_rules_of_parse h
  refine ⟨_, rules, ?_, hreadable, hstart, hg⟩
  rw [String.toList_ofList]
  exact (Text.isTight_trim start.toList).trim_eq

theorem parse_formatted {text : String} (h : parse {} start text = .ok g) :
    ∃ s shown g', g.start = .text s ∧ g.formatted {} = .ok shown ∧ parse {} s shown = .ok g' ∧
      g'.start = g.start ∧ g'.productions.Perm g.productions ∧
      (∀ head, g'.productionsFor head = g.productionsFor head) ∧
      g'.nonTerminals.Perm g.nonTerminals ∧ g'.terminals.Perm g.terminals := by
  obtain ⟨s, rules, htrim, hreadable, hstart, rfl⟩ := parse_eq_ok h
  -- What is printed are the merged rules, which hold the symbols that the rules hold.
  have hw := writtenBy_assembled hreadable hstart
  have hmerged : s ∈ nonTerminalsOf (merged rules) := nonTerminalsOf_merged.mem_iff.2 hstart
  obtain ⟨g', hg', hstart', hproductions, hlookup, hnonTerminals, hterminals⟩ :=
    hw.parse_format_eq_ok htrim hmerged
  refine ⟨s, _, g', rfl, hw.formatted_eq, hg', hstart', hproductions, hlookup, ?_, ?_⟩
  · exact hnonTerminals.trans (nonTerminalsOf_merged.map Name.text)
  · exact hterminals.trans (terminalsOf_merged.map Name.ofChar)

theorem parse_formatted_sample : ∃ g, parse {} " S " "A -> b | ^\nS → a A\nA → S|->" = .ok g ∧
    ∃ shown g', g.formatted {} = .ok shown ∧ parse {} "S" shown = .ok g' ∧
      g'.productions.Perm g.productions ∧ g'.nonTerminals.Perm g.nonTerminals := by
  have hrules : parseRules {} "A -> b | ^\nS → a A\nA → S|->".toList =
      .ok [⟨"A", [['b'], []]⟩, ⟨"S", [['a', 'A']]⟩, ⟨"A", [['S'], ['-', '>']]⟩] := by
    decide +kernel
  have hstart : String.ofList (Text.trim " S ".toList) = "S" := by decide +kernel
  have hg : parse {} " S " "A -> b | ^\nS → a A\nA → S|->" = .ok (assembled "S"
      [⟨"A", [['b'], []]⟩, ⟨"S", [['a', 'A']]⟩, ⟨"A", [['S'], ['-', '>']]⟩]) := by
    refine Result.bind_eq_ok.2 ⟨_, hrules, ?_⟩
    rw [hstart, ofRules_eq, if_pos (by decide +kernel)]
  obtain ⟨s, shown, g', hs, hshown, hg', _, hproductions, _, hnonTerminals, _⟩ := parse_formatted hg
  obtain rfl : "S" = s := Key.text.inj (congrArg Name.key hs)
  exact ⟨_, hg, shown, g', hshown, hg', hproductions, hnonTerminals⟩

end DfaWorkbench.Grammar
