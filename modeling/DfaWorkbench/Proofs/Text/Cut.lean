import Mathlib.Data.List.Infix
import DfaWorkbench.Proofs.Text.Blank
import DfaWorkbench.Text.Cut

/-! Cutting at one character or at two, and what is left of the pieces once their blanks are
gone. -/

namespace DfaWorkbench.Text

variable {s c : Char} {cs before after sep : List Char}

lemma cutAt_cons_eq_some_iff : cutAt sep (c :: cs) = some (before, after) ↔
    (sep <+: c :: cs ∧ before = [] ∧ after = (c :: cs).drop sep.length) ∨
      (¬ sep <+: c :: cs ∧ ∃ rest, before = c :: rest ∧ cutAt sep cs = some (rest, after)) := by
  rw [cutAt, ← List.isPrefixOf_iff_prefix]
  cases sep.isPrefixOf (c :: cs) with
  | true => simp [eq_comm]
  | false =>
    cases cutAt sep cs with
    | none => simp
    | some sides => simp [Prod.ext_iff, eq_comm, and_comm]

lemma eq_append_of_cutAt (h : cutAt sep cs = some (before, after)) :
    cs = before ++ sep ++ after := by
  induction cs generalizing before with
  | nil =>
    rw [cutAt] at h
    split at h
    · next he =>
      obtain ⟨rfl, rfl⟩ : [] = before ∧ [] = after := by simpa using h
      simpa using he.symm
    · cases h
  | cons c cs ih =>
    rcases cutAt_cons_eq_some_iff.1 h with ⟨⟨rest, hrest⟩, rfl, rfl⟩ | ⟨_, rest, rfl, hcut⟩
    · simp [← hrest]
    · rw [ih hcut]
      rfl

lemma cutAt_eq_none_iff : cutAt sep cs = none ↔ ¬ sep <:+: cs := by
  induction cs with
  | nil => simp [cutAt]
  | cons c cs ih =>
    rw [cutAt, List.infix_cons_iff, ← List.isPrefixOf_iff_prefix]
    cases hp : sep.isPrefixOf (c :: cs) with
    | true => simp
    | false => simp [ih]

lemma occursIn_iff : occursIn sep cs = true ↔ sep <:+: cs := by
  rw [occursIn, Option.isSome_iff_ne_none, ne_eq, cutAt_eq_none_iff, not_not]

lemma notInfix_of_cutAt (hsep : sep ≠ []) (h : cutAt sep cs = some (before, after)) :
    ¬ sep <:+: before := by
  induction cs generalizing before with
  | nil => simp [cutAt, hsep] at h
  | cons c cs ih =>
    rcases cutAt_cons_eq_some_iff.1 h with ⟨_, rfl, _⟩ | ⟨hp, rest, rfl, hcut⟩
    · simpa using hsep
    · rw [List.infix_cons_iff]
      rintro (hstarts | hinfix)
      · refine hp (hstarts.trans ?_)
        rw [eq_append_of_cutAt hcut, List.append_assoc]
        exact List.prefix_append (c :: rest) _
      · exact ih hcut hinfix

/-- Two signs that differ cannot overlap with themselves, so what stands before their first
occurrence need only be free of them. -/
lemma cutAt_pair_append (hne : s ≠ c) (h : ¬ [s, c] <:+: before) :
    cutAt [s, c] (before ++ s :: c :: after) = some (before, after) := by
  induction before with
  | nil => simp [cutAt]
  | cons d before ih =>
    rw [List.infix_cons_iff, not_or] at h
    have hp : ¬ [s, c].isPrefixOf (d :: (before ++ s :: c :: after)) = true := by
      rw [List.isPrefixOf_iff_prefix]
      intro hstarts
      cases before with
      | nil => simp [hne.symm] at hstarts
      | cons e before =>
        obtain ⟨rfl, rfl⟩ : s = d ∧ c = e := by simpa using hstarts
        exact h.1 (List.prefix_append [s, c] before)
    rw [List.cons_append, cutAt, if_neg hp, ih h.2]
    rfl

lemma cutAt_char_cons_self : cutAt [s] (s :: cs) = some ([], cs) := by
  simp [cutAt]

lemma cutAt_char_cons_ne (h : c ≠ s) :
    cutAt [s] (c :: cs) = (cutAt [s] cs).map fun (before, after) => (c :: before, after) := by
  simp [cutAt, h.symm]

lemma cutAt_char_append (h : s ∉ before) :
    cutAt [s] (before ++ s :: after) = some (before, after) := by
  induction before with
  | nil => exact cutAt_char_cons_self
  | cons c before ih =>
    rw [List.mem_cons, not_or] at h
    rw [List.cons_append, cutAt_char_cons_ne (Ne.symm h.1), ih h.2]
    rfl

lemma cutAt_char_eq_none_iff : cutAt [s] cs = none ↔ s ∉ cs := by
  rw [cutAt_eq_none_iff, List.singleton_infix_iff]

lemma notMem_of_cutAt_char (h : cutAt [s] cs = some (before, after)) : s ∉ before := by
  have hinfix := notInfix_of_cutAt (List.cons_ne_nil s []) h
  rwa [List.singleton_infix_iff] at hinfix

lemma pieces_char (s : Char) (cs : List Char) : pieces [s] cs = cs.splitOn s := by
  rw [pieces]
  induction cs with
  | nil => rfl
  | cons c cs ih =>
    rw [List.splitOn_cons_eq_if_modifyHead, piecesAfter]
    by_cases h : c = s
    · simp [h, ih]
    · obtain ⟨p, ps, hp⟩ := List.exists_cons_of_ne_nil (List.splitOn_ne_nil s cs)
      simp [h, Ne.symm h, ih, hp]

lemma map_withoutBlanks_splitOn (hs : isBlank s = false) (cs : List Char) :
    (cs.splitOn s).map withoutBlanks = (withoutBlanks cs).splitOn s := by
  induction cs with
  | nil => rfl
  | cons c cs ih =>
    obtain ⟨p, ps, hp⟩ := List.exists_cons_of_ne_nil (List.splitOn_ne_nil s cs)
    rw [hp] at ih
    rw [List.splitOn_cons_eq_if_modifyHead, hp]
    by_cases h : c = s
    · subst h
      rw [withoutBlanks, List.filter_cons_of_pos (by simp [hs]),
        List.splitOn_cons_eq_if_modifyHead]
      simpa [withoutBlanks] using ih
    · cases hc : isBlank c with
      | true =>
        rw [withoutBlanks, List.filter_cons_of_neg (by simp [hc])]
        rw [withoutBlanks] at ih
        simp [h, ← ih, withoutBlanks, hc]
      | false =>
        rw [withoutBlanks, List.filter_cons_of_pos (by simp [hc]),
          List.splitOn_cons_eq_if_modifyHead]
        rw [withoutBlanks] at ih
        simp [h, ← ih, withoutBlanks, hc]

lemma mem_of_mem_splitOn {p : List Char} (hp : p ∈ cs.splitOn s) (hc : c ∈ p) :
    c ∈ cs ∧ c ≠ s := by
  induction cs generalizing p with
  | nil =>
    obtain rfl : p = [] := by simpa using hp
    cases hc
  | cons d cs ih =>
    obtain ⟨q, qs, hq⟩ := List.exists_cons_of_ne_nil (List.splitOn_ne_nil s cs)
    rw [List.splitOn_cons_eq_if_modifyHead, hq] at hp
    have ih {r : List Char} (hr : r ∈ q :: qs) (hc : c ∈ r) : c ∈ d :: cs ∧ c ≠ s := by
      obtain ⟨hcs, hne⟩ := ih (hq ▸ hr) hc
      exact ⟨List.mem_cons_of_mem d hcs, hne⟩
    by_cases hd : d = s
    · rw [if_pos (by simpa using hd)] at hp
      rcases List.mem_cons.1 hp with rfl | hp
      · cases hc
      · exact ih hp hc
    · rw [if_neg (by simpa using hd), List.modifyHead_cons] at hp
      rcases List.mem_cons.1 hp with rfl | hp
      · rcases List.mem_cons.1 hc with rfl | hc
        · exact ⟨List.mem_cons_self, hd⟩
        · exact ih List.mem_cons_self hc
      · exact ih (List.mem_cons_of_mem q hp) hc

end DfaWorkbench.Text
