import DfaWorkbench.Proofs.Grammar.Reading
import DfaWorkbench.Proofs.Grammar.RuleLine

/-! One rule can be spelt in many ways: what is read off a line is settled by its head and by the
characters of its body that are not blank. -/

namespace DfaWorkbench

open RuleLine

variable {line line' left right head body : List Char} {text text' : String}

def ParseError.kind? : ParseError → Option FaultKind
  | badLine _ _ fault => some fault.kind
  | unknownStart _ => none

namespace RuleLine

/-- Arrows have no blanks in them, so the arrow of a line stays its arrow once the line is
trimmed. -/
lemma SidesAt.trim (h : SidesAt line left right) :
    SidesAt (Text.trim line) (left.dropWhile Text.isBlank) (right.rdropWhile Text.isBlank) := by
  have hleft : left.dropWhile Text.isBlank <:+ left := List.dropWhile_suffix _
  have hright : right.rdropWhile Text.isBlank <+: right := List.rdropWhile_prefix _ _
  rw [Text.trim_eq_rdropWhile]
  cases h with
  | sign harrow =>
    have hsign : Text.isBlank '→' = false := rfl
    rw [Text.dropWhile_append_cons hsign, Text.rdropWhile_append_cons hsign]
    exact .sign fun hmem => harrow (hleft.subset hmem)
  | ascii hl hr hascii =>
    have hdash : Text.isBlank '-' = false := rfl
    have hangle : Text.isBlank '>' = false := rfl
    rw [Text.dropWhile_append_cons hdash, List.append_cons, Text.rdropWhile_append_cons hangle,
      ← List.append_cons]
    exact .ascii (fun hmem => hl (hleft.subset hmem)) (fun hmem => hr (hright.subset hmem))
      fun hpart => hascii (hpart.trans hleft.isInfix)

lemma HasArrow.withoutBlanks (h : HasArrow left) : HasArrow (Text.withoutBlanks left) := by
  rcases h with hmem | hpart
  · exact .inl (Text.mem_withoutBlanks.2 ⟨hmem, rfl⟩)
  · exact .inr (hpart.filter fun c => !Text.isBlank c)

lemma Leads.sidesAt {arrow : List Char} (h : Leads arrow body) (hleft : ¬ HasArrow left)
    (hright : '→' ∈ right → '→' ∈ body) : SidesAt (left ++ arrow ++ right) left right := by
  rw [HasArrow, not_or] at hleft
  cases h with
  | sign =>
    rw [List.append_assoc]
    exact .sign hleft.1
  | ascii hbody =>
    rw [List.append_assoc]
    exact .ascii hleft.1 (fun hmem => hbody (hright hmem)) hleft.2

/-- The first arrow of a line that spells a rule out is the one behind its head. A hyphen that the
head ends in makes no arrow with what comes next. -/
lemma Spells.sidesAt (h : Spells line head body) : ∃ left right, SidesAt line left right ∧
    Text.trim left = head ∧ Text.withoutBlanks right = Text.withoutBlanks body := by
  obtain ⟨before, between, after, behind, arrow, harrow, hblank, rfl⟩ := h.parts
  simp only [List.forall_mem_append] at hblank
  obtain ⟨⟨⟨hbefore, hbetween⟩, hafter⟩, hbehind⟩ := hblank
  have hleft : Text.withoutBlanks (before ++ head ++ between) = head := by
    rw [Text.withoutBlanks_append, Text.withoutBlanks_append, Text.withoutBlanks_of_blank hbefore,
      Text.withoutBlanks_of_blank hbetween, Text.withoutBlanks_of_forall h.head_word,
      List.nil_append, List.append_nil]
  have hright : Text.withoutBlanks (after ++ body ++ behind) = Text.withoutBlanks body := by
    rw [Text.withoutBlanks_append, Text.withoutBlanks_append, Text.withoutBlanks_of_blank hafter,
      Text.withoutBlanks_of_blank hbehind, List.nil_append, List.append_nil]
  refine ⟨before ++ head ++ between, after ++ body ++ behind, ?_, ?_, hright⟩
  · have hsides : SidesAt ((before ++ head ++ between) ++ arrow ++ (after ++ body ++ behind))
        (before ++ head ++ between) (after ++ body ++ behind) := by
      refine harrow.sidesAt (fun hl => h.head_bare (hleft ▸ hl.withoutBlanks)) fun hmem => ?_
      have hsign := Text.mem_withoutBlanks.2 ⟨hmem, rfl⟩
      rw [hright] at hsign
      exact (Text.mem_withoutBlanks.1 hsign).1
    simpa only [List.append_assoc] using hsides
  · rw [Text.trim_append_right hbetween, Text.trim_append_left hbefore,
      (Text.isTight_of_forall h.head_word).trim_eq]

end RuleLine

namespace Rule

def ofSides (head body : List Char) : Except RuleFault Rule :=
  if body = [] then .error .emptySide
  else do
    let alternatives ← (body.splitOn '|').mapM readAlternative
    return ⟨String.ofList head, alternatives⟩

lemma parse_of_sidesAt (h : SidesAt line left right) (hne : Text.trim left ≠ [])
    (hword : ∀ c ∈ Text.trim left, Text.isBlank c = false) :
    parse {} line = ofSides (Text.trim left) (Text.withoutBlanks right) := by
  rw [parse_default, sides?_eq_some_iff.2 h, ofSides]
  by_cases hbody : Text.withoutBlanks right = []
  · have hright := Text.trim_eq_nil_iff.2 hbody
    simp [parseSides, hright, hbody, bind, Except.bind]
  · have hright := mt Text.trim_eq_nil_iff.1 hbody
    have hsides : parseSides left right = .ok (Text.trim left, Text.trim right) := by
      simp [parseSides, hne, hright, Text.isOneWord_iff.2 hword]
    simp only [hsides, if_neg hbody, bind, Except.bind, Text.withoutBlanks_trim]

lemma parse_of_spells (h : Spells line head body) :
    parse {} (Text.trim line) = ofSides head (Text.withoutBlanks body) := by
  obtain ⟨left, right, hsides, rfl, hright⟩ := h.sidesAt
  have hleft := Text.trim_dropWhile left
  rw [parse_of_sidesAt hsides.trim (hleft ▸ h.head_ne) (hleft ▸ h.head_word), hleft,
    Text.withoutBlanks_rdropWhile, hright]

lemma parse_of_sameRule (h : SameRule line line') :
    parse {} (Text.trim line) = parse {} (Text.trim line') := by
  obtain ⟨head, body, body', hline, hline', hbody⟩ := h
  rw [parse_of_spells hline, parse_of_spells hline', hbody]

end Rule

namespace Grammar

lemma mapError_parseLine {number number' : ℕ}
    (h : Rule.parse {} line = Rule.parse {} line') :
    (parseLine {} number line).mapError ParseError.kind? =
      (parseLine {} number' line').mapError ParseError.kind? := by
  rw [parseLine, parseLine, h]
  cases Rule.parse {} line' with
  | ok r => rfl
  | error fault => rfl

lemma mapError_parseRules {text text' : List Char}
    (h : List.Forall₂ SameRule (linesOf text) (linesOf text')) :
    (parseRules {} text).mapError ParseError.kind? =
      (parseRules {} text').mapError ParseError.kind? := by
  have hlines : List.Forall₂ (fun line line' => Rule.parse {} line = Rule.parse {} line')
      ((ruleLines text).map Prod.snd) ((ruleLines text').map Prod.snd) := by
    rw [map_snd_ruleLines_eq, map_snd_ruleLines_eq, List.forall₂_map_left_iff,
      List.forall₂_map_right_iff]
    exact h.imp fun line line' => Rule.parse_of_sameRule
  rw [List.forall₂_map_left_iff, List.forall₂_map_right_iff] at hlines
  exact Result.mapError_mapM (hlines.imp fun line line' => mapError_parseLine)

theorem parse_respelled
    (h : List.Forall₂ SameRule (linesOf text.toList) (linesOf text'.toList)) (start : String) :
    (∃ g, parse {} start text = .ok g ∧ parse {} start text' = .ok g) ∨
      ∃ e e', parse {} start text = .error e ∧ parse {} start text' = .error e' ∧
        e.kind? = e'.kind? := by
  refine Result.of_mapError_eq ?_
  rw [parse, parse, Result.mapError_bind, Result.mapError_bind, mapError_parseRules h]

theorem parse_respelled_hyphen :
    List.Forall₂ SameRule (linesOf "S--> a B |^\n\nB->\tb".toList)
      (linesOf "  S- →aB|  ^\r\n\u2003\nB → b \u2028".toList) ∧
    ∃ g, parse {} "S-" "S--> a B |^\n\nB->\tb" = .ok g ∧
      parse {} "S-" "  S- →aB|  ^\r\n\u2003\nB → b \u2028" = .ok g := by
  have hlines : linesOf "S--> a B |^\n\nB->\tb".toList =
      ["S--> a B |^".toList, "B->\tb".toList] := by decide +kernel
  have hlines' : linesOf "  S- →aB|  ^\r\n\u2003\nB → b \u2028".toList =
      ["  S- →aB|  ^".toList, "B → b ".toList] := by decide +kernel
  have hsame : List.Forall₂ SameRule (linesOf "S--> a B |^\n\nB->\tb".toList)
      (linesOf "  S- →aB|  ^\r\n\u2003\nB → b \u2028".toList) := by
    rw [hlines, hlines']
    have hhyphen : ¬ HasArrow ['S', '-'] := by
      rw [HasArrow]
      decide
    have hletter : ¬ HasArrow ['B'] := by
      rw [HasArrow]
      decide
    have hhyphenWord : ∀ c ∈ ['S', '-'], Text.isBlank c = false := by
      rw [List.forall_mem_cons, List.forall_mem_singleton]
      exact ⟨rfl, rfl⟩
    have hletterWord : ∀ c ∈ ['B'], Text.isBlank c = false := List.forall_mem_singleton.2 rfl
    refine .cons ⟨['S', '-'], "a B |^".toList, "aB|  ^".toList, ?_, ?_, by decide +kernel⟩
      (.cons ⟨['B'], ['b'], ['b'], ?_, ?_, rfl⟩ .nil)
    · exact ⟨by decide, hhyphenWord, hhyphen, [], [], [' '], [], ['-', '>'],
        .ascii (by decide), List.all_eq_true.1 rfl, by decide +kernel⟩
    · exact ⟨by decide, hhyphenWord, hhyphen, [' ', ' '], [' '], [], [], ['→'],
        .sign, List.all_eq_true.1 rfl, by decide +kernel⟩
    · exact ⟨by decide, hletterWord, hletter, [], [], ['\t'], [], ['-', '>'],
        .ascii (by decide), List.all_eq_true.1 rfl, by decide +kernel⟩
    · exact ⟨by decide, hletterWord, hletter, [], [' '], [' '], [' '], ['→'],
        .sign, List.all_eq_true.1 rfl, by decide +kernel⟩
  have hrules : parseRules {} "S--> a B |^\n\nB->\tb".toList =
      .ok [⟨"S-", [['a', 'B'], []]⟩, ⟨"B", [['b']]⟩] := by decide +kernel
  have hg := parse_of_start "S-" hrules (by decide +kernel) (by decide +kernel)
  rcases parse_respelled hsame "S-" with ⟨g, hg, hg'⟩ | ⟨e, _, he, _⟩
  · exact ⟨hsame, g, hg, hg'⟩
  · cases hg.symm.trans he

end Grammar

end DfaWorkbench
