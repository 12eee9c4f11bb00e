import DfaWorkbench.Grammar.RuleLine
import DfaWorkbench.Proofs.Grammar.Rule

/-! A rule can be read off a line exactly if the line looks like one, and the rule has the
non-terminals that come up on the line. -/

namespace DfaWorkbench

open RuleLine

variable {r : Rule} {line left right cs : List Char} {fault : RuleFault}

namespace Rule

lemma sides?_eq_some_iff : sides? line = some (left, right) ↔ SidesAt line left right := by
  constructor
  · intro h
    rw [sides?] at h
    cases hcut : Text.cutAt ['→'] line with
    | some sides =>
      rw [hcut] at h
      obtain rfl := Option.some.inj h
      have hline := Text.eq_append_of_cutAt hcut
      rw [List.append_assoc, List.singleton_append] at hline
      rw [hline]
      exact .sign (Text.notMem_of_cutAt_char hcut)
    | none =>
      rw [hcut] at h
      have hline := Text.eq_append_of_cutAt h
      rw [List.append_assoc] at hline
      have harrow := Text.cutAt_char_eq_none_iff.1 hcut
      rw [hline, List.mem_append, not_or] at harrow
      rw [hline]
      exact .ascii harrow.1 (fun hr => harrow.2 (List.mem_append_right _ hr))
        (Text.notInfix_of_cutAt (by simp) h)
  · intro h
    cases h with
    | sign hleft => rw [sides?, Text.cutAt_char_append hleft, Option.some_or]
    | ascii hleft hright hascii =>
      have hnone : Text.cutAt ['→'] (left ++ '-' :: '>' :: right) = none := by
        rw [Text.cutAt_char_eq_none_iff]
        simp [hleft, hright]
      rw [sides?, hnone, Option.none_or, Text.cutAt_pair_append (by decide) hascii]

lemma readAlternative_eq_ok_iff : (∃ alternative, readAlternative cs = .ok alternative) ↔
    cs ≠ [] ∧ (IsEmptyWord cs ∨ 'ε' ∉ cs ∧ '^' ∉ cs) := by
  rw [readAlternative, IsEmptyWord, ← not_or]
  split
  · next he => simp [he]
  · next hne =>
    split
    · next hm => simp [hne, hm]
    · next hm =>
      split
      · next hmem => simp [hm, hmem]
      · next hmem => simp [hne, hmem]

lemma parseSides_eq_ok_iff : (∃ sides, parseSides left right = .ok sides) ↔
    IsHead left ∧ Text.trim right ≠ [] := by
  rw [parseSides, IsHead, ← Text.isOneWord_iff]
  by_cases hl : Text.trim left = []
  · simp [hl]
  · by_cases hr : Text.trim right = []
    · simp [hr]
    · by_cases hw : Text.isOneWord (Text.trim left) = true
      · simp [hl, hr, hw]
      · simp [hl, hr, hw]

lemma pieces_trim (right : List Char) : (Text.withoutBlanks (Text.trim right)).splitOn '|' =
    (right.splitOn '|').map Text.withoutBlanks := by
  rw [Text.withoutBlanks_trim, Text.map_withoutBlanks_splitOn (by decide)]

lemma trim_ne_of_alternatives (h : ∀ piece ∈ right.splitOn '|', IsAlternative piece) :
    Text.trim right ≠ [] := by
  intro he
  obtain ⟨piece, hpiece⟩ := List.exists_mem_of_ne_nil _ (List.splitOn_ne_nil '|' right)
  have hmem : Text.withoutBlanks piece ∈ (right.splitOn '|').map Text.withoutBlanks :=
    List.mem_map_of_mem hpiece
  rw [← pieces_trim, he] at hmem
  exact (h piece hpiece).1 (by simpa [Text.withoutBlanks] using hmem)

lemma parse_eq_ok (h : parse {} line = .ok r) : ∃ left right, SidesAt line left right ∧
    IsHead left ∧ r.head = String.ofList (Text.trim left) ∧
      ((right.splitOn '|').map Text.withoutBlanks).mapM readAlternative = .ok r.alternatives := by
  rw [parse_default] at h
  split at h
  · cases h
  · next left right hsides =>
    obtain ⟨⟨head, body⟩, hhead, h⟩ := Result.bind_eq_ok.1 h
    obtain ⟨alternatives, halternatives, h⟩ := Result.bind_eq_ok.1 h
    obtain rfl := Except.ok.inj h
    obtain ⟨rfl, rfl, _⟩ := parseSides_eq_ok hhead
    rw [pieces_trim] at halternatives
    exact ⟨left, right, sides?_eq_some_iff.1 hsides, (parseSides_eq_ok_iff.1 ⟨_, hhead⟩).1, rfl,
      halternatives⟩

theorem exists_parse_iff : (∃ r, parse {} line = .ok r) ↔ IsGood line := by
  constructor
  · rintro ⟨r, h⟩
    obtain ⟨left, right, hsides, hhead, _, hpieces⟩ := parse_eq_ok h
    refine ⟨left, right, hsides, hhead, fun piece hpiece => ?_⟩
    obtain ⟨alternative, _, hread⟩ :=
      (Result.mapM_eq_ok hpieces).1 _ (List.mem_map_of_mem hpiece)
    exact readAlternative_eq_ok_iff.1 ⟨alternative, hread⟩
  · rintro ⟨left, right, hsides, hhead, hpieces⟩
    obtain ⟨⟨head, body⟩, hs⟩ :=
      parseSides_eq_ok_iff.2 ⟨hhead, trim_ne_of_alternatives hpieces⟩
    obtain ⟨_, rfl, _⟩ := parseSides_eq_ok hs
    obtain ⟨alternatives, hread⟩ : ∃ alternatives,
        ((Text.withoutBlanks (Text.trim right)).splitOn '|').mapM readAlternative =
          .ok alternatives := by
      refine Result.exists_mapM_eq_ok fun cs hcs => ?_
      rw [pieces_trim] at hcs
      obtain ⟨piece, hpiece, rfl⟩ := List.mem_map.1 hcs
      exact readAlternative_eq_ok_iff.2 (hpieces piece hpiece)
    refine ⟨⟨String.ofList head, alternatives⟩, ?_⟩
    rw [parse_default, sides?_eq_some_iff.2 hsides]
    simp only [hs, hread, bind, Except.bind]
    rfl

lemma kind_of_parse (h : parse {} line = .error fault) :
    fault.kind = .missingArrow ∧ ¬ HasArrow line ∨ fault.kind = .malformed ∧ HasArrow line := by
  have harrows : ({} : Settings).arrows = .each (["→", "->"].map Name.text) := rfl
  have hline : (∃ arrow ∈ ["→", "->"], arrow.toList <:+: line) ↔ HasArrow line := by
    simp [HasArrow, List.singleton_infix_iff]
  have hkind := kind_of_parse_typed Settings.typed_default harrows h
  rwa [hline] at hkind

def Has (r : Rule) (name : String) : Prop :=
  r.head = name ∨ ∃ c ∈ r.symbols, isNonTerminalSymbol c = true ∧ String.singleton c = name

lemma mem_of_readAlternative {alternative : List Char} {c : Char}
    (h : readAlternative cs = .ok alternative) :
    c ∈ alternative ↔ ¬ IsEmptyWord cs ∧ c ∈ cs := by
  rw [readAlternative] at h
  split at h
  · cases h
  · split at h
    · next hm =>
      obtain rfl := Except.ok.inj h
      simp [IsEmptyWord, hm]
    · next hm =>
      split at h
      · cases h
      · obtain rfl := Except.ok.inj h
        simp [IsEmptyWord, hm]

lemma mem_symbols_iff {pieces : List (List Char)} {c : Char}
    (h : (pieces.map Text.withoutBlanks).mapM readAlternative = .ok r.alternatives) :
    c ∈ r.symbols ↔ ∃ piece ∈ pieces, ¬ IsEmptyWord (Text.withoutBlanks piece) ∧
      c ∈ Text.withoutBlanks piece := by
  obtain ⟨hread, hwritten⟩ := Result.mapM_eq_ok h
  rw [symbols, List.mem_flatten]
  constructor
  · rintro ⟨alternative, halternative, hc⟩
    obtain ⟨_, hmem, hr⟩ := hwritten alternative halternative
    obtain ⟨piece, hpiece, rfl⟩ := List.mem_map.1 hmem
    exact ⟨piece, hpiece, (mem_of_readAlternative hr).1 hc⟩
  · rintro ⟨piece, hpiece, hc⟩
    obtain ⟨alternative, halternative, hr⟩ := hread _ (List.mem_map_of_mem hpiece)
    exact ⟨alternative, halternative, (mem_of_readAlternative hr).2 hc⟩

lemma sidesAt_unique {left' right' : List Char} (h : SidesAt line left right)
    (h' : SidesAt line left' right') : left = left' ∧ right = right' := by
  rw [← sides?_eq_some_iff] at h h'
  simpa [h] using h'

theorem has_iff_mentions (h : parse {} line = .ok r) (name : String) :
    r.Has name ↔ Mentions line name.toList := by
  obtain ⟨left, right, hsides, _, hhead, hpieces⟩ := parse_eq_ok h
  constructor
  · rintro (rfl | ⟨c, hc, hcap, rfl⟩)
    · exact ⟨left, right, hsides, .inl (by rw [hhead, String.toList_ofList])⟩
    · obtain ⟨piece, hpiece, hword, hc⟩ := (mem_symbols_iff hpieces).1 hc
      rw [isNonTerminalSymbol, Bool.and_eq_true, decide_eq_true_iff, decide_eq_true_iff] at hcap
      exact ⟨left, right, hsides, .inr ⟨piece, hpiece, hword, c, (Text.mem_withoutBlanks.1 hc).1,
        hcap.1, hcap.2, String.toList_singleton c⟩⟩
  · rintro ⟨left', right', hsides', hname⟩
    obtain ⟨rfl, rfl⟩ := sidesAt_unique hsides hsides'
    rcases hname with hname | ⟨piece, hpiece, hword, c, hc, hA, hZ, hname⟩
    · exact .inl (by rw [hhead, hname, String.ofList_toList])
    · have hcap : isNonTerminalSymbol c = true := by simp [isNonTerminalSymbol, hA, hZ]
      have hblank := (readable_of_isNonTerminalSymbol hcap).1
      exact .inr ⟨c, (mem_symbols_iff hpieces).2
        ⟨piece, hpiece, hword, Text.mem_withoutBlanks.2 ⟨hc, hblank⟩⟩, hcap,
        String.toList_injective (by rw [String.toList_singleton, hname])⟩

end Rule

end DfaWorkbench
