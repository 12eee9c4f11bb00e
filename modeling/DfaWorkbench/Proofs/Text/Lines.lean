import DfaWorkbench.Proofs.Text.Blank

/-! Lines that are put together with line feeds are taken apart again. -/

namespace DfaWorkbench.Text

variable {c : Char} {l rest : List Char} {ls : List (List Char)}

lemma mem_of_mem_intercalate {sep : List Char} (h : c ∈ sep.intercalate ls) :
    c ∈ sep ∨ ∃ l ∈ ls, c ∈ l := by
  induction ls with
  | nil => cases h
  | cons l ls ih =>
    cases ls with
    | nil => exact .inr ⟨l, List.mem_cons_self, by simpa using h⟩
    | cons m ls =>
      rw [List.intercalate_cons_cons, List.mem_append, List.mem_append] at h
      rcases h with (h | h) | h
      · exact .inr ⟨l, List.mem_cons_self, h⟩
      · exact .inl h
      · exact (ih h).imp_right fun ⟨p, hp, hc⟩ => ⟨p, List.mem_cons_of_mem l hp, hc⟩

lemma eq_nil_of_lines_eq_nil {cs : List Char} (h : lines cs = []) : cs = [] := by
  rw [lines.eq_def] at h
  split at h
  · rfl
  · cases h
  · split at h
    · cases h
    · split at h <;> cases h

lemma lines_cons_of_isBreak (hc : isBreak c = true)
    (hfused : ∀ cs, c = '\r' → rest = '\n' :: cs → False) :
    lines (c :: rest) = [] :: lines rest := by
  rw [lines]
  · simp [hc]
  · exact hfused

lemma lines_cons_of_not_isBreak (hc : isBreak c = false) (hl : lines rest = l :: ls) :
    lines (c :: rest) = (c :: l) :: ls := by
  rw [lines]
  · simp [hc, hl]
  · rintro cs rfl
    simp [isBreak] at hc

lemma lines_append (h : ∀ c ∈ l, isBreak c = false) (rest : List Char) :
    lines (l ++ '\n' :: rest) = l :: lines rest := by
  induction l with
  | nil => rfl
  | cons c l ih =>
    exact lines_cons_of_not_isBreak (h c List.mem_cons_self)
      (ih fun d hd => h d (List.mem_cons_of_mem c hd))

lemma lines_eq_singleton (h : ∀ c ∈ l, isBreak c = false) (hl : l ≠ []) : lines l = [l] := by
  induction l with
  | nil => exact absurd rfl hl
  | cons c l ih =>
    cases l with
    | nil =>
      have hc := h c List.mem_cons_self
      rw [lines]
      · simp [hc, lines]
      · simp
    | cons d l =>
      exact lines_cons_of_not_isBreak (h c List.mem_cons_self)
        (ih (fun e he => h e (List.mem_cons_of_mem c he)) (List.cons_ne_nil d l))

/-- A line feed between two texts ends the last line of the first one. If that has ended already, it
makes a blank line, or is one break with a carriage return there. -/
lemma lines_append_cases (cs ds : List Char) :
    lines (cs ++ '\n' :: ds) = lines cs ++ lines ds ∨
      lines (cs ++ '\n' :: ds) = lines cs ++ [] :: lines ds := by
  induction cs using lines.induct with
  | case1 => exact .inr rfl
  | case2 cs ih => exact ih.imp (congrArg ([] :: ·)) (congrArg ([] :: ·))
  | case3 c cs hcs hc ih =>
    by_cases hfused : c = '\r' ∧ cs = []
    · obtain ⟨rfl, rfl⟩ := hfused
      exact .inl rfl
    · have hboth : lines (c :: (cs ++ '\n' :: ds)) = [] :: lines (cs ++ '\n' :: ds) := by
        refine lines_cons_of_isBreak hc fun es hr he => ?_
        cases cs with
        | nil => exact hfused ⟨hr, rfl⟩
        | cons d cs => exact hcs cs hr (by rw [(List.cons.inj he).1])
      rw [lines_cons_of_isBreak hc hcs, List.cons_append, hboth]
      exact ih.imp (congrArg ([] :: ·)) (congrArg ([] :: ·))
  | case4 c cs _ hc hlines _ =>
    have hc : ∀ d ∈ [c], isBreak d = false := by simpa using hc
    obtain rfl := eq_nil_of_lines_eq_nil hlines
    rw [lines_append hc, lines_eq_singleton hc (List.cons_ne_nil c [])]
    exact .inl rfl
  | case5 c cs _ hc l ls hlines ih =>
    have hc : isBreak c = false := Bool.eq_false_iff.2 hc
    rw [hlines] at ih
    rw [lines_cons_of_not_isBreak hc hlines]
    exact ih.imp (lines_cons_of_not_isBreak hc) (lines_cons_of_not_isBreak hc)

lemma lines_intercalate (h : ∀ l ∈ ls, l ≠ [] ∧ ∀ c ∈ l, isBreak c = false) :
    lines (['\n'].intercalate ls) = ls := by
  induction ls with
  | nil => rfl
  | cons l ls ih =>
    obtain ⟨hl, hbreak⟩ := h l List.mem_cons_self
    have ih := ih fun m hm => h m (List.mem_cons_of_mem l hm)
    cases ls with
    | nil => rw [List.intercalate_singleton, lines_eq_singleton hbreak hl]
    | cons m ls =>
      rw [List.intercalate_cons_cons, List.append_assoc, List.singleton_append,
        lines_append hbreak, ih]

end DfaWorkbench.Text
