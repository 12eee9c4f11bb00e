import DfaWorkbench.Grammar.RuleLine
import DfaWorkbench.Proofs.Grammar.Rule
import DfaWorkbench.Proofs.Sequence.Distinct
import DfaWorkbench.Proofs.Sequence.Grouping
import DfaWorkbench.Proofs.Text.Lines

/-! Grammars out of texts of rules: the rules are the lines, and the rules of one head are merged
into one. -/

namespace DfaWorkbench

variable {settings : Settings} {r : Rule} {rules rules' : List Rule} {start : String} {c : Char}

namespace Rule.Readable

variable (h : r.Readable)

include h

lemma isTight_written : Text.IsTight r.written := by
  obtain ⟨hbody, htight⟩ := h.writtenBody_tight
  have hhead : Text.IsTight r.head.toList :=
    Text.isTight_of_forall fun c hc => (h.head_chars c hc).1
  have hw := hhead.append htight h.head_ne hbody [' ', '→', ' ']
  simpa [written] using hw

lemma isBreak_of_mem_written (hc : c ∈ r.written) : Text.isBreak c = false := by
  have hsigns : ∀ d ∈ [' ', '→', '|'], Text.isBreak d = false := by
    simp only [List.forall_mem_cons]
    exact ⟨rfl, rfl, rfl, List.forall_mem_nil _⟩
  have hbar : [' ', '|', ' '] ⊆ [' ', '→', '|'] := by simp
  have hletter {d : Char} (hd : Text.isBlank d = false) : Text.isBreak d = false :=
    Bool.eq_false_iff.2 fun hb => by simp [Text.isBlank_of_isBreak hb] at hd
  simp only [written, List.mem_append, List.mem_cons, List.not_mem_nil, or_false] at hc
  rcases hc with (hc | rfl) | rfl | rfl | hc
  · exact hletter (h.head_chars c hc).1
  · exact hsigns _ (by simp)
  · exact hsigns _ (by simp)
  · exact hsigns _ (by simp)
  · rcases Text.mem_of_mem_intercalate hc with hc | ⟨p, hp, hc⟩
    · exact hsigns c (hbar hc)
    · exact hletter ((h.of_mem_shown hp).2 c hc).1

end Rule.Readable

namespace Grammar

lemma map_snd_ruleLines (text : List Char) :
    (ruleLines text).map Prod.snd = ((Text.lines text).map Text.trim).filter (!·.isEmpty) := by
  have hlines : (Text.lines text).map Text.trim =
      ((Text.lines text).zipIdx.map fun l => (l.2 + 1, Text.trim l.1)).map Prod.snd := by
    conv_lhs => rw [← List.zipIdx_map_fst 0 (Text.lines text)]
    rw [List.map_map, List.map_map]
    rfl
  rw [hlines, List.filter_map]
  rfl

lemma map_snd_ruleLines_eq (text : List Char) :
    (ruleLines text).map Prod.snd = (RuleLine.linesOf text).map Text.trim := by
  rw [map_snd_ruleLines, RuleLine.linesOf, List.filter_map]
  congr 1
  refine List.filter_congr fun raw _ => ?_
  rw [Function.comp_apply]
  cases Text.trim raw with
  | nil => rfl
  | cons c cs => rfl

lemma map_snd_ruleLines_written (h : ∀ r ∈ rules, r.Readable) :
    (ruleLines (['\n'].intercalate (rules.map Rule.written))).map Prod.snd =
      rules.map Rule.written := by
  have hlines : Text.lines (['\n'].intercalate (rules.map Rule.written)) =
      rules.map Rule.written := by
    refine Text.lines_intercalate fun l hl => ?_
    obtain ⟨r, hr, rfl⟩ := List.mem_map.1 hl
    exact ⟨by simp [Rule.written], fun c hc => (h r hr).isBreak_of_mem_written hc⟩
  have htrim : (rules.map Rule.written).map Text.trim = rules.map Rule.written := by
    rw [List.map_map]
    exact List.map_congr_left fun r hr => (h r hr).isTight_written.trim_eq
  rw [map_snd_ruleLines, hlines, htrim, List.filter_eq_self]
  intro l hl
  obtain ⟨r, _, rfl⟩ := List.mem_map.1 hl
  simp [Rule.written]

lemma parseLine_eq_ok {number : ℕ} {line : List Char} :
    parseLine settings number line = .ok r ↔ Rule.parse settings line = .ok r := by
  rw [parseLine]
  cases Rule.parse settings line <;> simp

lemma parseRules_eq_ok_iff {text : List Char} : parseRules settings text = .ok rules ↔
    List.Forall₂ (fun line r => Rule.parse settings line = .ok r)
      ((ruleLines text).map Prod.snd) rules := by
  rw [parseRules, Result.mapM_eq_ok_iff, List.forall₂_map_left_iff]
  simp only [parseLine_eq_ok]

lemma parseRules_written (h : ∀ r ∈ rules, r.Readable) :
    parseRules {} (['\n'].intercalate (rules.map Rule.written)) = .ok rules := by
  rw [parseRules_eq_ok_iff, map_snd_ruleLines_written h, List.forall₂_map_left_iff,
    List.forall₂_same]
  exact fun r hr => Rule.parse_written (h r hr)

lemma parseLine_eq_error {number : ℕ} {line : List Char} {e : ParseError}
    (h : parseLine settings number line = .error e) :
    ∃ fault, Rule.parse settings line = .error fault ∧
      e = .badLine number (String.ofList line) fault := by
  rw [parseLine] at h
  split at h
  · cases h
  · next fault hfault => exact ⟨fault, hfault, (Except.error.inj h).symm⟩

lemma exists_line_of_parseRules {text : List Char} (h : parseRules settings text = .ok rules) :
    ∀ r ∈ rules, ∃ line, Rule.parse settings line = .ok r := by
  intro r hr
  obtain ⟨⟨number, line⟩, _, hline⟩ := (Result.mapM_eq_ok h).2 r hr
  exact ⟨line, parseLine_eq_ok.1 hline⟩

lemma readable_of_parseRules {text : List Char} (h : parseRules {} text = .ok rules) :
    ∀ r ∈ rules, r.Readable := by
  intro r hr
  obtain ⟨line, hline⟩ := exists_line_of_parseRules h r hr
  exact Rule.readable_of_parse hline

def assembled (start : String) (rules : List Rule) : Grammar where
  start := start
  nonTerminals := (nonTerminalsOf rules).map Name.text
  terminals := (terminalsOf rules).map Name.ofChar
  productions := (alternativesOf rules).map fun (head, alternatives) =>
    (Name.text head, alternatives.map Production.ofChars)

lemma ofRules_eq (start : String) (rules : List Rule) :
    ofRules start rules =
      if start ∈ nonTerminalsOf rules then .ok (assembled start rules)
      else .error (.unknownStart start) := by
  have hstart : (assembled start rules).isNonTerminal (Name.text start).key = true ↔
      start ∈ nonTerminalsOf rules := by
    simp [isNonTerminal, assembled]
  rw [ofRules]
  split
  · next g hg =>
    rw [make] at hg
    split at hg
    · next hs => rw [if_pos (hstart.1 hs), ← Except.ok.inj hg, assembled]
    · cases hg
  · next _ hg =>
    rw [make] at hg
    split at hg
    · cases hg
    · next hs => rw [if_neg (mt hstart.2 hs)]

lemma parse_of_rules {text : String} (h : parseRules settings text.toList = .ok rules) :
    parse settings start text =
      if String.ofList (Text.trim start.toList) ∈ nonTerminalsOf rules then
        .ok (assembled (String.ofList (Text.trim start.toList)) rules)
      else .error (.unknownStart (String.ofList (Text.trim start.toList))) := by
  rw [parse, h, ← ofRules_eq]
  rfl

lemma parse_eq_ok_iff {text : String} {g : Grammar} : parse settings start text = .ok g ↔
    ∃ rules, parseRules settings text.toList = .ok rules ∧
      String.ofList (Text.trim start.toList) ∈ nonTerminalsOf rules ∧
      g = assembled (String.ofList (Text.trim start.toList)) rules := by
  rw [parse, Result.bind_eq_ok]
  refine exists_congr fun rules => and_congr_right fun _ => ?_
  rw [ofRules_eq]
  split <;> simp_all [eq_comm]

lemma parse_of_start {text : String} (start : String)
    (hrules : parseRules settings text.toList = .ok rules)
    (htrim : Text.trim start.toList = start.toList) (hstart : start ∈ nonTerminalsOf rules) :
    parse settings start text = .ok (assembled start rules) := by
  rw [parse_of_rules hrules, htrim, String.ofList_toList, if_pos hstart]

lemma parse_cases (settings : Settings) (start text : String) :
    (∃ number line fault, Rule.parse settings line = .error fault ∧
        parse settings start text = .error (.badLine number (String.ofList line) fault)) ∨
      parse settings start text =
        .error (.unknownStart (String.ofList (Text.trim start.toList))) ∨
      ∃ rules, parseRules settings text.toList = .ok rules ∧
        String.ofList (Text.trim start.toList) ∈ nonTerminalsOf rules ∧
        parse settings start text =
          .ok (assembled (String.ofList (Text.trim start.toList)) rules) := by
  cases hrules : parseRules settings text.toList with
  | error e =>
    obtain ⟨⟨number, line⟩, _, hline⟩ := Result.mapM_eq_error hrules
    obtain ⟨fault, hfault, rfl⟩ := parseLine_eq_error hline
    exact .inl ⟨number, line, fault, hfault, Result.bind_eq_error.2 (.inl hrules)⟩
  | ok rules =>
    rw [parse_of_rules hrules]
    split
    · next hstart => exact .inr (.inr ⟨rules, rfl, hstart, rfl⟩)
    · exact .inr (.inl rfl)

def merged (rules : List Rule) : List Rule :=
  (Sequence.groupedBy Rule.head rules).map fun (head, rs) => ⟨head, rs.flatMap Rule.alternatives⟩

lemma productions_assembled (start : String) (rules : List Rule) :
    (assembled start rules).productions = (merged rules).map Rule.entry := by
  rw [assembled, merged, alternativesOf, List.map_map, List.map_map]
  rfl

lemma map_head_merged (rules : List Rule) :
    (merged rules).map Rule.head = (Sequence.groupedBy Rule.head rules).map Prod.fst := by
  rw [merged, List.map_map]
  rfl

lemma nodup_heads_merged (rules : List Rule) : ((merged rules).map Rule.head).Nodup := by
  rw [map_head_merged]
  exact Sequence.nodup_keys_groupedBy Rule.head rules

lemma exists_head_merged {head : String} :
    (∃ r ∈ merged rules, r.head = head) ↔ ∃ r ∈ rules, r.head = head := by
  rw [← List.mem_map, map_head_merged, Sequence.mem_keys_groupedBy]

lemma mem_alternatives_merged (hr : r ∈ merged rules) {cs : List Char} :
    cs ∈ r.alternatives ↔ ∃ s ∈ rules, s.head = r.head ∧ cs ∈ s.alternatives := by
  obtain ⟨⟨head, rs⟩, hmem, rfl⟩ := List.mem_map.1 hr
  obtain ⟨_, rfl⟩ := Sequence.mem_groupedBy.1 hmem
  change cs ∈ (rules.filter (head == ·.head)).flatMap Rule.alternatives ↔
    ∃ s ∈ rules, s.head = head ∧ cs ∈ s.alternatives
  rw [List.mem_flatMap]
  refine exists_congr fun s => ?_
  rw [List.mem_filter, beq_iff_eq, and_assoc, @eq_comm _ head]

lemma readable_merged (h : ∀ r ∈ rules, r.Readable) : ∀ r ∈ merged rules, r.Readable := by
  intro r hr
  obtain ⟨s, hs, hhead⟩ := exists_head_merged.1 ⟨r, hr, rfl⟩
  constructor
  · exact hhead ▸ (h s hs).head_ne
  · exact hhead ▸ (h s hs).head_chars
  · obtain ⟨cs, hcs⟩ := List.exists_mem_of_ne_nil _ (h s hs).alternatives_ne
    exact List.ne_nil_of_mem ((mem_alternatives_merged hr).2 ⟨s, hs, hhead, hcs⟩)
  · intro cs hcs
    obtain ⟨t, ht, _, hcs⟩ := (mem_alternatives_merged hr).1 hcs
    exact (h t ht).symbols cs hcs

lemma merged_of_nodup (h : (rules.map Rule.head).Nodup) : merged rules = rules := by
  rw [merged, Sequence.groupedBy_of_nodup h, List.map_map]
  refine (List.map_congr_left fun r _ => ?_).trans (List.map_id rules)
  simp

lemma exists_symbol_merged {c : Char} :
    (∃ r ∈ merged rules, c ∈ r.symbols) ↔ ∃ r ∈ rules, c ∈ r.symbols := by
  constructor
  · rintro ⟨r, hr, hc⟩
    obtain ⟨cs, hcs, hc⟩ := List.mem_flatten.1 hc
    obtain ⟨s, hs, _, hcs⟩ := (mem_alternatives_merged hr).1 hcs
    exact ⟨s, hs, List.mem_flatten.2 ⟨cs, hcs, hc⟩⟩
  · rintro ⟨s, hs, hc⟩
    obtain ⟨cs, hcs, hc⟩ := List.mem_flatten.1 hc
    obtain ⟨r, hr, hhead⟩ := exists_head_merged.2 ⟨s, hs, rfl⟩
    have hcs := (mem_alternatives_merged hr).2 ⟨s, hs, hhead.symm, hcs⟩
    exact ⟨r, hr, List.mem_flatten.2 ⟨cs, hcs, hc⟩⟩

lemma mem_nonTerminalsOf {s : String} : s ∈ nonTerminalsOf rules ↔ (∃ r ∈ rules, r.head = s) ∨
    ∃ c, (∃ r ∈ rules, c ∈ r.symbols) ∧ isNonTerminalSymbol c = true ∧ String.singleton c = s := by
  simp only [nonTerminalsOf, List.mem_eraseDups, List.mem_flatMap, List.mem_cons, List.mem_map,
    List.mem_filter]
  constructor
  · rintro ⟨r, hr, rfl | ⟨c, ⟨hc, hcap⟩, rfl⟩⟩
    · exact .inl ⟨r, hr, rfl⟩
    · exact .inr ⟨c, ⟨r, hr, hc⟩, hcap, rfl⟩
  · rintro (⟨r, hr, rfl⟩ | ⟨c, ⟨r, hr, hc⟩, hcap, rfl⟩)
    · exact ⟨r, hr, .inl rfl⟩
    · exact ⟨r, hr, .inr ⟨c, ⟨hc, hcap⟩, rfl⟩⟩

lemma mem_terminalsOf : c ∈ terminalsOf rules ↔
    (∃ r ∈ rules, c ∈ r.symbols) ∧ isNonTerminalSymbol c = false := by
  simp only [terminalsOf, List.mem_eraseDups, List.mem_flatMap, List.mem_filter,
    Bool.not_eq_true']
  constructor
  · rintro ⟨r, hr, hc, hcap⟩
    exact ⟨⟨r, hr, hc⟩, hcap⟩
  · rintro ⟨⟨r, hr, hc⟩, hcap⟩
    exact ⟨r, hr, hc, hcap⟩

lemma nodup_nonTerminalsOf (rules : List Rule) : (nonTerminalsOf rules).Nodup :=
  Sequence.nodup_eraseDups _

lemma nodup_terminalsOf (rules : List Rule) : (terminalsOf rules).Nodup :=
  Sequence.nodup_eraseDups _

lemma nonTerminalsOf_perm (h : rules'.Perm rules) :
    (nonTerminalsOf rules').Perm (nonTerminalsOf rules) := by
  refine (List.perm_ext_iff_of_nodup (nodup_nonTerminalsOf _) (nodup_nonTerminalsOf _)).2
    fun s => ?_
  simp only [mem_nonTerminalsOf, h.mem_iff]

lemma terminalsOf_perm (h : rules'.Perm rules) :
    (terminalsOf rules').Perm (terminalsOf rules) := by
  refine (List.perm_ext_iff_of_nodup (nodup_terminalsOf _) (nodup_terminalsOf _)).2 fun c => ?_
  simp only [mem_terminalsOf, h.mem_iff]

lemma nonTerminalsOf_merged : (nonTerminalsOf (merged rules)).Perm (nonTerminalsOf rules) := by
  refine (List.perm_ext_iff_of_nodup (nodup_nonTerminalsOf _) (nodup_nonTerminalsOf _)).2
    fun s => ?_
  simp only [mem_nonTerminalsOf, exists_head_merged, exists_symbol_merged]

lemma terminalsOf_merged : (terminalsOf (merged rules)).Perm (terminalsOf rules) := by
  refine (List.perm_ext_iff_of_nodup (nodup_terminalsOf _) (nodup_terminalsOf _)).2 fun c => ?_
  simp only [mem_terminalsOf, exists_symbol_merged]

end Grammar

end DfaWorkbench
