import Mathlib.Order.Basic
import DfaWorkbench.Proofs.Grammar.Reading
import DfaWorkbench.Proofs.Grammar.RuleLine

/-! Reading a text of rules ends at the first line that is not one, whatever comes after it. -/

namespace DfaWorkbench

open RuleLine

variable {raw line : List Char} {raws raws' : List (List Char)} {rules : List Rule} {i : ℕ}

namespace RuleLine

lemma firstBad_zero : FirstBad (raw :: raws) 0 line ↔
    Text.trim raw = line ∧ line ≠ [] ∧ ¬ IsGood line := by
  constructor
  · intro h
    exact ⟨by simpa using h.line_eq, h.line_ne, h.bad⟩
  · rintro ⟨hline, hne, hbad⟩
    exact ⟨by simpa using hline, hne, hbad, by simp⟩

lemma firstBad_succ :
    FirstBad (raw :: raws) (i + 1) line ↔ Passes raw ∧ FirstBad raws i line := by
  constructor
  · intro h
    have hbefore := h.before
    rw [List.take_succ_cons, List.forall_mem_cons] at hbefore
    exact ⟨hbefore.1, by simpa using h.line_eq, h.line_ne, h.bad, hbefore.2⟩
  · rintro ⟨hraw, h⟩
    refine ⟨by simpa using h.line_eq, h.line_ne, h.bad, ?_⟩
    rw [List.take_succ_cons, List.forall_mem_cons]
    exact ⟨hraw, h.before⟩

lemma not_firstBad_nil : ¬ FirstBad [] i line := by
  intro h
  simpa using h.line_eq

lemma exists_firstBad (h : ∃ raw ∈ raws, ¬ Passes raw) : ∃ i line, FirstBad raws i line := by
  induction raws with
  | nil => simp at h
  | cons raw raws ih =>
    by_cases hraw : Passes raw
    · rw [List.exists_mem_cons_iff] at h
      obtain ⟨i, line, hi⟩ := ih (h.resolve_left (not_not_intro hraw))
      exact ⟨i + 1, line, firstBad_succ.2 ⟨hraw, hi⟩⟩
    · rw [Passes, not_or] at hraw
      exact ⟨0, _, firstBad_zero.2 ⟨rfl, hraw⟩⟩

lemma FirstBad.exists_mem (h : FirstBad raws i line) :
    ∃ raw ∈ raws, Text.trim raw ≠ [] ∧ ¬ IsGood (Text.trim raw) := by
  obtain ⟨raw, hraw, rfl⟩ := Option.map_eq_some_iff.1 h.line_eq
  exact ⟨raw, List.mem_of_getElem? hraw, h.line_ne, h.bad⟩

lemma FirstBad.of_take_eq (h : FirstBad raws i line)
    (htake : raws'.take (i + 1) = raws.take (i + 1)) : FirstBad raws' i line := by
  have hbefore : raws'.take i = raws.take i := by
    have := congrArg (List.take i) htake
    simpa [List.take_take] using this
  have hline : raws'[i]? = raws[i]? := by
    have := congrArg (·[i]?) htake
    simpa using this
  exact ⟨hline ▸ h.line_eq, h.line_ne, h.bad, hbefore ▸ h.before⟩

end RuleLine

namespace Grammar

def numbered (n : ℕ) (raws : List (List Char)) : List (ℕ × List Char) :=
  ((raws.zipIdx n).map fun (raw, i) => (i + 1, Text.trim raw)).filter fun (_, l) => !l.isEmpty

lemma numbered_cons (n : ℕ) (raw : List Char) (raws : List (List Char)) :
    numbered n (raw :: raws) =
      if Text.trim raw = [] then numbered (n + 1) raws
      else (n + 1, Text.trim raw) :: numbered (n + 1) raws := by
  rw [numbered, List.zipIdx_cons, List.map_cons, List.filter_cons]
  by_cases h : Text.trim raw = []
  · simp [h, numbered]
  · simp [h, numbered]

lemma exists_parseLine_iff {n : ℕ} : (∃ r, parseLine {} n line = .ok r) ↔ IsGood line := by
  rw [← Rule.exists_parse_iff]
  exact exists_congr fun r => parseLine_eq_ok

lemma parseLine_of_bad (h : ¬ IsGood line) (n : ℕ) : ∃ fault, Rule.parse {} line = .error fault ∧
    parseLine {} n line = .error (.badLine n (String.ofList line) fault) := by
  cases hp : Rule.parse {} line with
  | ok r => exact absurd (Rule.exists_parse_iff.1 ⟨r, hp⟩) h
  | error fault => exact ⟨fault, rfl, by rw [parseLine, hp]⟩

lemma mapM_numbered_of_firstBad {n : ℕ} {e : ParseError} (h : FirstBad raws i line)
    (he : parseLine {} (n + i + 1) line = .error e) :
    ((numbered n raws).mapM fun l => parseLine {} l.1 l.2) = .error e := by
  induction raws generalizing n i with
  | nil => exact absurd h not_firstBad_nil
  | cons raw raws ih =>
    rw [numbered_cons]
    cases i with
    | zero =>
      obtain ⟨rfl, hne, _⟩ := firstBad_zero.1 h
      rw [if_neg hne, List.mapM_cons]
      change parseLine {} (n + 1) (Text.trim raw) = .error e at he
      rw [he]
      rfl
    | succ i =>
      obtain ⟨hraw, h⟩ := firstBad_succ.1 h
      have hnumber : n + (i + 1) + 1 = n + 1 + i + 1 := by omega
      rw [hnumber] at he
      have hrest := ih h he
      split
      · exact hrest
      · next hne =>
        obtain ⟨r, hr⟩ := exists_parseLine_iff.2 (hraw.resolve_left hne)
        rw [List.mapM_cons, hr, hrest]
        rfl

lemma parseRules_of_firstBad {text : List Char} (h : FirstBad (Text.lines text) i line) :
    ∃ fault, Rule.parse {} line = .error fault ∧
      parseRules {} text = .error (.badLine (i + 1) (String.ofList line) fault) := by
  obtain ⟨fault, hfault, hline⟩ := parseLine_of_bad h.bad (0 + i + 1)
  refine ⟨fault, hfault, ?_⟩
  rw [Nat.zero_add] at hline
  exact mapM_numbered_of_firstBad (n := 0) h (by rw [Nat.zero_add, hline])

lemma mem_map_snd_ruleLines {text : List Char} : line ∈ (ruleLines text).map Prod.snd ↔
    line ≠ [] ∧ ∃ raw ∈ Text.lines text, Text.trim raw = line := by
  simp [map_snd_ruleLines, and_comm]

lemma parseRules_of_passes {text : List Char} (h : ∀ raw ∈ Text.lines text, Passes raw) :
    ∃ rules, parseRules {} text = .ok rules := by
  refine Result.exists_mapM_eq_ok fun l hl => ?_
  obtain ⟨hne, raw, hraw, htrim⟩ := mem_map_snd_ruleLines.1 (List.mem_map_of_mem hl)
  have hpasses := h raw hraw
  rw [Passes, htrim] at hpasses
  exact exists_parseLine_iff.2 (hpasses.resolve_left hne)

lemma parse_eq_badLine_iff {start text : String} {number : ℕ} {shown : String} {fault : RuleFault} :
    parse {} start text = .error (.badLine number shown fault) ↔
      ∃ i, number = i + 1 ∧ FirstBad (Text.lines text.toList) i shown.toList ∧
        Rule.parse {} shown.toList = .error fault := by
  constructor
  · intro h
    by_cases hall : ∀ raw ∈ Text.lines text.toList, Passes raw
    · obtain ⟨rules, hrules⟩ := parseRules_of_passes hall
      rw [parse_of_rules hrules] at h
      split at h
      · cases h
      · cases h
    · obtain ⟨i, line, hfirst⟩ := exists_firstBad (by simpa using hall)
      obtain ⟨fault', hfault, hrules⟩ := parseRules_of_firstBad hfirst
      rw [parse, hrules] at h
      obtain ⟨rfl, rfl, rfl⟩ : i + 1 = number ∧ String.ofList line = shown ∧ fault' = fault := by
        simpa using Except.error.inj h
      rw [String.toList_ofList]
      exact ⟨i, rfl, hfirst, hfault⟩
  · rintro ⟨i, rfl, hfirst, hfault⟩
    obtain ⟨fault', hfault', hrules⟩ := parseRules_of_firstBad hfirst
    obtain rfl := Except.error.inj (hfault.symm.trans hfault')
    rw [parse, hrules, String.ofList_toList]
    rfl

lemma mem_nonTerminalsOf_iff_has {name : String} :
    name ∈ nonTerminalsOf rules ↔ ∃ r ∈ rules, r.Has name := by
  rw [mem_nonTerminalsOf]
  constructor
  · rintro (⟨r, hr, hhead⟩ | ⟨c, ⟨r, hr, hc⟩, hcap⟩)
    · exact ⟨r, hr, .inl hhead⟩
    · exact ⟨r, hr, .inr ⟨c, hc, hcap⟩⟩
  · rintro ⟨r, hr, hhead | ⟨c, hc, hcap⟩⟩
    · exact .inl ⟨r, hr, hhead⟩
    · exact .inr ⟨c, ⟨r, hr, hc⟩, hcap⟩

lemma not_mentions_nil {name : List Char} : ¬ Mentions [] name := by
  rintro ⟨left, right, hsides, _⟩
  rw [← Rule.sides?_eq_some_iff] at hsides
  cases hsides

lemma exists_has_iff {text : List Char} (h : parseRules {} text = .ok rules) (name : String) :
    (∃ r ∈ rules, r.Has name) ↔
      ∃ raw ∈ Text.lines text, Mentions (Text.trim raw) name.toList := by
  obtain ⟨hread, hwritten⟩ := Result.mapM_eq_ok h
  have hparse {l : ℕ × List Char} {r : Rule} (hl : parseLine {} l.1 l.2 = .ok r) :
      Rule.parse {} l.2 = .ok r := by
    rw [parseLine] at hl
    split at hl
    · next hr => rw [hr, Except.ok.inj hl]
    · cases hl
  constructor
  · rintro ⟨r, hr, hhas⟩
    obtain ⟨l, hl, hline⟩ := hwritten r hr
    obtain ⟨_, raw, hraw, htrim⟩ := mem_map_snd_ruleLines.1 (List.mem_map_of_mem hl)
    refine ⟨raw, hraw, ?_⟩
    rw [htrim]
    exact (Rule.has_iff_mentions (hparse hline) name).1 hhas
  · rintro ⟨raw, hraw, hname⟩
    have hne : Text.trim raw ≠ [] := by
      intro he
      rw [he] at hname
      exact not_mentions_nil hname
    obtain ⟨l, hl, htrim⟩ := List.mem_map.1 (mem_map_snd_ruleLines.2 ⟨hne, raw, hraw, rfl⟩)
    obtain ⟨r, hr, hline⟩ := hread l hl
    rw [← htrim] at hname
    exact ⟨r, hr, (Rule.has_iff_mentions (hparse hline) name).2 hname⟩

/-- A text has an error with the number of a line if some line is neither blank nor a rule, and then
it is the error of the first such line: neither what comes later nor the start symbol changes it.
A text without such lines is a grammar if its start symbol comes up on a line, and names the start
symbol as unknown if not. -/
theorem parse_blames_first_bad (start text : String) :
    ((∃ number line fault, parse {} start text = .error (.badLine number line fault)) ↔
      ∃ raw ∈ Text.lines text.toList, Text.trim raw ≠ [] ∧ ¬ IsGood (Text.trim raw)) ∧
    (∀ number line fault, parse {} start text = .error (.badLine number line fault) →
      (∃ i, number = i + 1 ∧ FirstBad (Text.lines text.toList) i line.toList) ∧
      (fault.kind = .missingArrow ↔ ¬ HasArrow line.toList) ∧
      (fault.kind = .malformed ↔ HasArrow line.toList) ∧
      ∀ start' text', (Text.lines text'.toList).take number =
          (Text.lines text.toList).take number →
        parse {} start' text' = .error (.badLine number line fault)) ∧
    ((∀ raw ∈ Text.lines text.toList, Text.trim raw ≠ [] → IsGood (Text.trim raw)) →
      (parse {} start text = .error (.unknownStart (String.ofList (Text.trim start.toList))) ↔
        ¬ ∃ raw ∈ Text.lines text.toList, Mentions (Text.trim raw) (Text.trim start.toList)) ∧
      ((∃ g, parse {} start text = .ok g) ↔
        ∃ raw ∈ Text.lines text.toList, Mentions (Text.trim raw) (Text.trim start.toList))) := by
  refine ⟨⟨?_, ?_⟩, ?_, ?_⟩
  · rintro ⟨number, line, fault, h⟩
    obtain ⟨i, _, hfirst, _⟩ := parse_eq_badLine_iff.1 h
    exact hfirst.exists_mem
  · rintro ⟨raw, hraw, hne, hbad⟩
    obtain ⟨i, line, hfirst⟩ := exists_firstBad ⟨raw, hraw, not_or.2 ⟨hne, hbad⟩⟩
    obtain ⟨fault, _, hrules⟩ := parseRules_of_firstBad hfirst
    refine ⟨i + 1, String.ofList line, fault, ?_⟩
    rw [parse, hrules]
    rfl
  · intro number line fault h
    obtain ⟨i, rfl, hfirst, hfault⟩ := parse_eq_badLine_iff.1 h
    refine ⟨⟨i, rfl, hfirst⟩, ?_, ?_, fun start' text' htake => ?_⟩
    · rcases Rule.kind_of_parse hfault with ⟨hk, harrow⟩ | ⟨hk, harrow⟩ <;> simp [hk, harrow]
    · rcases Rule.kind_of_parse hfault with ⟨hk, harrow⟩ | ⟨hk, harrow⟩ <;> simp [hk, harrow]
    · exact parse_eq_badLine_iff.2 ⟨i, rfl, hfirst.of_take_eq htake, hfault⟩
  · intro hall
    obtain ⟨rules, hrules⟩ := parseRules_of_passes fun raw hraw =>
      or_iff_not_imp_left.2 (hall raw hraw)
    have hhas := exists_has_iff hrules (String.ofList (Text.trim start.toList))
    have hname := (@mem_nonTerminalsOf_iff_has rules _).trans hhas
    rw [String.toList_ofList] at hname
    rw [parse_of_rules hrules, ← hname]
    split
    · next h => simp [h]
    · next h => simp [h]

example : parseRules {} "S → aA | ^\n\u2028 A\tb\n→ S".toList =
    .error (.badLine 3 "A\tb" (.noArrow ["→", "->"])) := by decide +kernel

end Grammar

end DfaWorkbench
