import DfaWorkbench.Proofs.Grammar.Reading
import DfaWorkbench.Proofs.Grammar.RuleLine
import DfaWorkbench.Proofs.Name

/-! A grammar that is read off a text holds what the lines of the text mention and nothing else:
their heads, their alternatives, and the symbols of these, which are told apart by being capital
letters or not. -/

namespace DfaWorkbench

open RuleLine

variable {rules : List Rule} {start text : String} {g : Grammar} {name : Name}
  {sides : List (List Char × List Char)}

def Name.IsCapital (name : Name) : Prop :=
  ∃ c, 'A' ≤ c ∧ c ≤ 'Z' ∧ name = Name.ofChar c

lemma Name.isCapital_ofChar {c : Char} :
    (Name.ofChar c).IsCapital ↔ isNonTerminalSymbol c = true := by
  rw [isNonTerminalSymbol, Bool.and_eq_true, decide_eq_true_iff, decide_eq_true_iff]
  constructor
  · rintro ⟨d, hA, hZ, hd⟩
    obtain rfl := Name.ofChar_inj.1 hd
    exact ⟨hA, hZ⟩
  · rintro ⟨hA, hZ⟩
    exact ⟨c, hA, hZ, rfl⟩

namespace RuleLine

instance (cs : List Char) : Decidable (IsEmptyWord cs) :=
  inferInstanceAs (Decidable (cs = ['ε'] ∨ cs = ['^']))

def entryOf (side : List Char × List Char) : Name × List Production :=
  (.text (String.ofList (Text.trim side.1)), (side.2.splitOn '|').map fun piece =>
    if IsEmptyWord (Text.withoutBlanks piece) then .empty
    else .ofChars (Text.withoutBlanks piece))

end RuleLine

namespace Rule

lemma ofChars_of_readAlternative {cs alternative : List Char}
    (h : readAlternative cs = .ok alternative) :
    Production.ofChars alternative = if IsEmptyWord cs then .empty else .ofChars cs := by
  rw [readAlternative] at h
  split at h
  · cases h
  · split at h
    · next hempty =>
      obtain rfl := Except.ok.inj h
      exact (if_pos hempty).symm
    · next hword =>
      split at h
      · cases h
      · obtain rfl := Except.ok.inj h
        exact (if_neg hword).symm

lemma entry_of_parse {line : List Char} {r : Rule} (h : parse {} line = .ok r) :
    ∃ side : List Char × List Char, SidesAt line side.1 side.2 ∧ entryOf side = r.entry := by
  obtain ⟨left, right, hsides, _, hhead, hpieces⟩ := parse_eq_ok h
  have halternatives : r.alternatives.map Production.ofChars =
      ((right.splitOn '|').map Text.withoutBlanks).map fun cs =>
        if IsEmptyWord cs then .empty else .ofChars cs :=
    Result.map_eq_of_mapM hpieces fun _ _ => ofChars_of_readAlternative
  refine ⟨(left, right), hsides, ?_⟩
  rw [entry, entryOf, hhead, halternatives, List.map_map]
  rfl

end Rule

namespace Grammar

def heads (g : Grammar) : List Name :=
  g.productions.map Prod.fst

def rightSymbols (g : Grammar) : List Name :=
  g.productions.flatMap fun e => e.2.flatMap Production.symbols

lemma mem_rightSymbols_assembled : name ∈ (assembled start rules).rightSymbols ↔
    ∃ c, (∃ r ∈ rules, c ∈ r.symbols) ∧ name = Name.ofChar c := by
  have hsymbols : (assembled start rules).rightSymbols =
      ((merged rules).flatMap Rule.symbols).map Name.ofChar := by
    rw [rightSymbols, productions_assembled, List.flatMap_map, List.map_flatMap]
    refine congrArg (merged rules).flatMap (funext fun r => ?_)
    rw [Rule.entry, Rule.symbols, List.flatMap_map, List.map_flatten, List.flatMap_def]
    rfl
  simp only [hsymbols, List.mem_map, List.mem_flatMap, exists_symbol_merged, eq_comm]

lemma heads_assembled (start : String) (rules : List Rule) :
    (assembled start rules).heads = ((merged rules).map Rule.head).map Name.text := by
  rw [heads, productions_assembled, List.map_map, List.map_map]
  rfl

lemma mem_heads_assembled : name ∈ (assembled start rules).heads ↔
    ∃ r ∈ rules, name = .text r.head := by
  rw [heads_assembled, List.mem_map]
  constructor
  · rintro ⟨head, hhead, rfl⟩
    obtain ⟨r, hr, rfl⟩ := exists_head_merged.1 (List.mem_map.1 hhead)
    exact ⟨r, hr, rfl⟩
  · rintro ⟨r, hr, rfl⟩
    exact ⟨r.head, List.mem_map.2 (exists_head_merged.2 ⟨r, hr, rfl⟩), rfl⟩

lemma mem_terminals_assembled : name ∈ (assembled start rules).terminals ↔
    name ∈ (assembled start rules).rightSymbols ∧ ¬ name.IsCapital := by
  rw [mem_rightSymbols_assembled]
  simp only [assembled, List.mem_map, mem_terminalsOf]
  constructor
  · rintro ⟨c, ⟨hc, hcap⟩, rfl⟩
    exact ⟨⟨c, hc, rfl⟩, by rw [Name.isCapital_ofChar, hcap]; simp⟩
  · rintro ⟨⟨c, hc, rfl⟩, hcap⟩
    rw [Name.isCapital_ofChar, Bool.not_eq_true] at hcap
    exact ⟨c, ⟨hc, hcap⟩, rfl⟩

lemma mem_nonTerminals_assembled : name ∈ (assembled start rules).nonTerminals ↔
    name ∈ (assembled start rules).heads ∨
      name ∈ (assembled start rules).rightSymbols ∧ name.IsCapital := by
  rw [mem_heads_assembled, mem_rightSymbols_assembled]
  simp only [assembled, List.mem_map, mem_nonTerminalsOf]
  constructor
  · rintro ⟨_, ⟨r, hr, rfl⟩ | ⟨c, hc, hcap, rfl⟩, rfl⟩
    · exact .inl ⟨r, hr, rfl⟩
    · exact .inr ⟨⟨c, hc, rfl⟩, Name.isCapital_ofChar.2 hcap⟩
  · rintro (⟨r, hr, rfl⟩ | ⟨⟨c, hc, rfl⟩, hcap⟩)
    · exact ⟨_, .inl ⟨r, hr, rfl⟩, rfl⟩
    · exact ⟨_, .inr ⟨c, hc, Name.isCapital_ofChar.1 hcap, rfl⟩, rfl⟩

lemma mem_productions_assembled {e : Name × List Production}
    (he : e ∈ (assembled start rules).productions) :
    e.2 = ((rules.map Rule.entry).filter (·.1.key = e.1.key)).flatMap Prod.snd := by
  rw [productions_assembled, List.mem_map] at he
  obtain ⟨_, hr, rfl⟩ := he
  obtain ⟨⟨head, rs⟩, hmem, rfl⟩ := List.mem_map.1 hr
  obtain ⟨_, rfl⟩ := Sequence.mem_groupedBy.1 hmem
  rw [List.filter_map, List.flatMap_map]
  change ((rules.filter _).flatMap Rule.alternatives).map Production.ofChars = _
  rw [List.map_flatMap]
  refine congrArg (List.flatMap _) (List.filter_congr fun r _ => ?_)
  simp [Rule.entry, beq_eq_decide, @eq_comm _ head]

lemma length_productions_assembled :
    ((assembled start rules).productions.flatMap Prod.snd).length =
      ((rules.map Rule.entry).flatMap Prod.snd).length := by
  have hgroups : (((Sequence.groupedBy Rule.head rules).flatMap Prod.snd).flatMap
      Rule.alternatives).length = (rules.flatMap Rule.alternatives).length :=
    ((Sequence.flatMap_groupedBy_perm Rule.head rules).flatMap_right _).length_eq
  rw [productions_assembled, merged]
  simpa [List.length_flatMap, List.flatMap_assoc, Rule.entry, Function.comp_def] using hgroups

structure Holds (g : Grammar) (sides : List (List Char × List Char)) : Prop where
  mem_heads : ∀ name, name ∈ g.heads ↔ ∃ side ∈ sides, name = (entryOf side).1
  nodup_heads : g.heads.Nodup
  productions_ne : ∀ e ∈ g.productions, e.2 ≠ []
  productions_eq : ∀ e ∈ g.productions,
    e.2 = ((sides.map entryOf).filter (·.1.key = e.1.key)).flatMap Prod.snd
  count : (g.productions.flatMap Prod.snd).length =
    (sides.flatMap fun side => side.2.splitOn '|').length
  symbols : ∀ name ∈ g.rightSymbols, ∃ c, name = Name.ofChar c ∧ Text.isBlank c = false ∧
    c ≠ '|' ∧ c ≠ 'ε' ∧ c ≠ '^'
  nodup_terminals : g.terminals.Nodup
  mem_terminals : ∀ name, name ∈ g.terminals ↔ name ∈ g.rightSymbols ∧ ¬ name.IsCapital
  nodup_nonTerminals : g.nonTerminals.Nodup
  mem_nonTerminals : ∀ name, name ∈ g.nonTerminals ↔
    name ∈ g.heads ∨ name ∈ g.rightSymbols ∧ name.IsCapital

lemma holds_assembled (hread : ∀ r ∈ rules, r.Readable)
    (hentries : sides.map entryOf = rules.map Rule.entry) :
    (assembled start rules).Holds sides where
  mem_heads name := by
    have hmem : name ∈ (sides.map entryOf).map Prod.fst ↔
        name ∈ (rules.map Rule.entry).map Prod.fst := by rw [hentries]
    rw [List.map_map, List.map_map, List.mem_map, List.mem_map] at hmem
    rw [mem_heads_assembled]
    simpa [eq_comm, Rule.entry] using hmem.symm
  nodup_heads := by
    rw [heads_assembled]
    exact (nodup_heads_merged rules).map Name.text_injective
  productions_ne e he := by
    rw [productions_assembled, List.mem_map] at he
    obtain ⟨r, hr, rfl⟩ := he
    simpa [Rule.entry] using (readable_merged hread r hr).alternatives_ne
  productions_eq e he := by
    rw [hentries]
    exact mem_productions_assembled he
  count := by
    rw [length_productions_assembled, ← hentries]
    simp [entryOf, List.length_flatMap, Function.comp_def]
  symbols name hname := by
    obtain ⟨c, ⟨r, hr, hc⟩, rfl⟩ := mem_rightSymbols_assembled.1 hname
    obtain ⟨cs, hcs, hc⟩ := List.mem_flatten.1 hc
    exact ⟨c, rfl, (hread r hr).symbols cs hcs c hc⟩
  nodup_terminals := (nodup_terminalsOf rules).map fun _ _ => Name.ofChar_inj.1
  mem_terminals _ := mem_terminals_assembled
  nodup_nonTerminals := (nodup_nonTerminalsOf rules).map Name.text_injective
  mem_nonTerminals _ := mem_nonTerminals_assembled

theorem parse_holds (h : parse {} start text = .ok g) :
    ∃ sides, List.Forall₂ (fun line side => SidesAt (Text.trim line) side.1 side.2)
      (linesOf text.toList) sides ∧ g.Holds sides := by
  obtain ⟨rules, hrules, _, rfl⟩ := parse_eq_ok_iff.1 h
  have hread := readable_of_parseRules hrules
  rw [parseRules_eq_ok_iff, map_snd_ruleLines_eq, List.forall₂_map_left_iff] at hrules
  obtain ⟨sides, hsides, hentries⟩ :=
    Sequence.forall₂_comp.1 (hrules.imp fun line r => Rule.entry_of_parse)
  exact ⟨sides, hsides, holds_assembled hread (Sequence.map_eq_of_forall₂ (fun _ _ => id) hentries)⟩

theorem parse_holds_repeated : ∃ g, parse {} "S" "S -> aS | é\nA → b | b\n\nS -> ^" = .ok g ∧
    g.nonTerminals = ["S", "A"] ∧ g.terminals = ["a", "é", "b"] ∧
    ∃ sides, List.Forall₂ (fun line side => SidesAt (Text.trim line) side.1 side.2)
      (linesOf "S -> aS | é\nA → b | b\n\nS -> ^".toList) sides ∧ g.Holds sides := by
  have hrules : parseRules {} "S -> aS | é\nA → b | b\n\nS -> ^".toList =
      .ok [⟨"S", [['a', 'S'], ['é']]⟩, ⟨"A", [['b'], ['b']]⟩, ⟨"S", [[]]⟩] := by decide +kernel
  have hg := parse_of_start "S" hrules (by decide +kernel) (by decide +kernel)
  refine ⟨_, hg, ?_, ?_, parse_holds hg⟩
  · exact congrArg (List.map Name.text) (by decide +kernel : nonTerminalsOf _ = ["S", "A"])
  · exact congrArg (List.map Name.ofChar) (by decide +kernel : terminalsOf _ = ['a', 'é', 'b'])

end Grammar

end DfaWorkbench
