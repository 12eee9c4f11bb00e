import Mathlib.Data.List.DropRight
import Mathlib.Tactic.Common
import DfaWorkbench.Text.Blank
import DfaWorkbench.Text.Lines

/-! Texts that start and end with characters that are not blank, which trimming leaves alone. -/

namespace DfaWorkbench.Text

variable {c : Char} {cs ds : List Char}

lemma isBlank_of_isBreak (h : isBreak c = true) : isBlank c = true := by
  simp only [isBreak, isBlank, Bool.or_eq_true, Bool.and_eq_true, decide_eq_true_eq,
    beq_iff_eq] at h ⊢
  omega

lemma mem_of_mem_trim (h : c ∈ trim cs) : c ∈ cs := by
  have h := (List.dropWhile_sublist isBlank).subset (List.mem_reverse.1 h)
  exact (List.dropWhile_sublist isBlank).subset (List.mem_reverse.1 h)

lemma trim_cons (h : isBlank c = true) : trim (c :: cs) = trim cs := by
  simp [trim, h]

lemma trim_concat (h : isBlank c = true) : trim (cs ++ [c]) = trim cs := by
  rw [trim, trim, List.dropWhile_append]
  split
  · next he => simp [List.isEmpty_iff.1 he, h]
  · simp [h]

lemma trim_append_left (h : ∀ c ∈ ds, isBlank c = true) : trim (ds ++ cs) = trim cs := by
  induction ds with
  | nil => rfl
  | cons d ds ih =>
    rw [List.forall_mem_cons] at h
    rw [List.cons_append, trim_cons h.1, ih h.2]

lemma trim_append_right (h : ∀ c ∈ ds, isBlank c = true) : trim (cs ++ ds) = trim cs := by
  induction ds using List.reverseRecOn with
  | nil => rw [List.append_nil]
  | append_singleton ds d ih =>
    rw [List.forall_mem_append, List.forall_mem_singleton] at h
    rw [← List.append_assoc, trim_concat h.2, ih h.1]

lemma trim_dropWhile (cs : List Char) : trim (cs.dropWhile isBlank) = trim cs := by
  rw [trim, trim, List.dropWhile_idempotent]

lemma trim_eq_rdropWhile (cs : List Char) :
    trim cs = (cs.dropWhile isBlank).rdropWhile isBlank :=
  rfl

lemma dropWhile_append_cons (hc : isBlank c = false) :
    (cs ++ c :: ds).dropWhile isBlank = cs.dropWhile isBlank ++ c :: ds := by
  rw [List.dropWhile_append]
  split
  · next he =>
    rw [List.isEmpty_iff.1 he, List.nil_append, List.dropWhile_cons_of_neg (by simp [hc])]
  · rfl

lemma rdropWhile_append_cons (hc : isBlank c = false) :
    (cs ++ c :: ds).rdropWhile isBlank = cs ++ c :: ds.rdropWhile isBlank := by
  have hreverse : (cs ++ c :: ds).reverse = ds.reverse ++ c :: cs.reverse := by simp
  rw [List.rdropWhile, hreverse, dropWhile_append_cons hc]
  simp [List.rdropWhile]

def IsTight (cs : List Char) : Prop :=
  (∀ c ∈ cs.head?, isBlank c = false) ∧ ∀ c ∈ cs.getLast?, isBlank c = false

lemma IsTight.trim_eq (h : IsTight cs) : trim cs = cs := by
  have hleft : cs.dropWhile isBlank = cs := by
    cases cs with
    | nil => rfl
    | cons c cs => simp [h.1 c rfl]
  have hright : cs.reverse.dropWhile isBlank = cs.reverse := by
    cases hr : cs.reverse with
    | nil => rfl
    | cons c ds =>
      have hc : isBlank c = false := h.2 c (by simp [← List.head?_reverse, hr])
      simp [hc]
  rw [trim, hleft, hright, List.reverse_reverse]

lemma isTight_trim (cs : List Char) : IsTight (trim cs) := by
  constructor
  · intro c hc
    obtain ⟨ds, hds⟩ : trim cs <+: cs.dropWhile isBlank := List.rdropWhile_prefix isBlank _
    have hhead : (cs.dropWhile isBlank).head? = some c := by
      rw [← hds, List.head?_append, hc]
      rfl
    have hnot := List.head?_dropWhile_not isBlank cs
    rw [hhead] at hnot
    simpa using hnot
  · intro c hc
    rw [trim, List.getLast?_reverse] at hc
    have hnot := List.head?_dropWhile_not isBlank (cs.dropWhile isBlank).reverse
    rw [Option.mem_def.1 hc] at hnot
    simpa using hnot

lemma isTight_of_forall (h : ∀ c ∈ cs, isBlank c = false) : IsTight cs :=
  ⟨fun c hc => h c (List.mem_of_mem_head? hc), fun c hc => h c (List.mem_of_getLast? hc)⟩

lemma IsTight.append (hc : IsTight cs) (hd : IsTight ds) (hcs : cs ≠ []) (hds : ds ≠ [])
    (mid : List Char) : IsTight (cs ++ mid ++ ds) := by
  constructor
  · intro c h
    obtain ⟨d, cs, rfl⟩ := List.exists_cons_of_ne_nil hcs
    exact hc.1 c h
  · intro c h
    rw [List.getLast?_append, List.getLast?_eq_some_getLast hds] at h
    exact hd.2 c (by rw [List.getLast?_eq_some_getLast hds]; exact h)

lemma isTight_intercalate (sep : List Char) {ps : List (List Char)} (hps : ps ≠ [])
    (h : ∀ p ∈ ps, p ≠ [] ∧ IsTight p) :
    sep.intercalate ps ≠ [] ∧ IsTight (sep.intercalate ps) := by
  induction ps with
  | nil => exact absurd rfl hps
  | cons p ps ih =>
    obtain ⟨hp, ht⟩ := h p List.mem_cons_self
    cases ps with
    | nil => simpa using ⟨hp, ht⟩
    | cons q ps =>
      obtain ⟨hne, hrest⟩ := ih (List.cons_ne_nil q ps) fun r hr => h r (List.mem_cons_of_mem p hr)
      rw [List.intercalate_cons_cons]
      exact ⟨by simp [hp], ht.append hrest hp hne sep⟩

lemma isOneWord_iff : isOneWord cs = true ↔ ∀ c ∈ cs, isBlank c = false := by
  simp [isOneWord]

lemma mem_withoutBlanks : c ∈ withoutBlanks cs ↔ c ∈ cs ∧ isBlank c = false := by
  simp [withoutBlanks]

lemma withoutBlanks_of_forall (h : ∀ c ∈ cs, isBlank c = false) : withoutBlanks cs = cs :=
  List.filter_eq_self.2 fun c hc => by simp [h c hc]

lemma withoutBlanks_of_blank (h : ∀ c ∈ cs, isBlank c = true) : withoutBlanks cs = [] := by
  simpa [withoutBlanks] using h

lemma withoutBlanks_append (cs ds : List Char) :
    withoutBlanks (cs ++ ds) = withoutBlanks cs ++ withoutBlanks ds :=
  List.filter_append ..

lemma withoutBlanks_dropWhile (cs : List Char) :
    withoutBlanks (cs.dropWhile isBlank) = withoutBlanks cs := by
  induction cs with
  | nil => rfl
  | cons c cs ih =>
    cases hc : isBlank c with
    | true =>
      rw [List.dropWhile_cons_of_pos hc, ih, withoutBlanks, withoutBlanks,
        List.filter_cons_of_neg (by simp [hc])]
    | false => rw [List.dropWhile_cons_of_neg (by simp [hc])]

lemma withoutBlanks_reverse (cs : List Char) :
    withoutBlanks cs.reverse = (withoutBlanks cs).reverse :=
  List.filter_reverse

lemma withoutBlanks_rdropWhile (cs : List Char) :
    withoutBlanks (cs.rdropWhile isBlank) = withoutBlanks cs := by
  rw [List.rdropWhile, withoutBlanks_reverse, withoutBlanks_dropWhile, withoutBlanks_reverse,
    List.reverse_reverse]

lemma withoutBlanks_trim (cs : List Char) : withoutBlanks (trim cs) = withoutBlanks cs := by
  rw [trim, withoutBlanks_reverse, withoutBlanks_dropWhile, withoutBlanks_reverse,
    List.reverse_reverse, withoutBlanks_dropWhile]

lemma trim_eq_nil_iff : trim cs = [] ↔ withoutBlanks cs = [] := by
  constructor
  · intro h
    rw [← withoutBlanks_trim, h]
    rfl
  · intro h
    have hall : ∀ c ∈ cs, isBlank c = true := by simpa [withoutBlanks] using h
    rw [trim, List.dropWhile_eq_nil_iff.2 hall]
    rfl

lemma withoutBlanks_intercalate (sep : List Char) (ps : List (List Char)) :
    withoutBlanks (sep.intercalate ps) =
      (withoutBlanks sep).intercalate (ps.map withoutBlanks) := by
  induction ps with
  | nil => rfl
  | cons p ps ih =>
    cases ps with
    | nil => simp
    | cons q ps =>
      rw [List.intercalate_cons_cons, List.map_cons, List.map_cons, List.intercalate_cons_cons,
        ← List.map_cons, ← ih]
      simp [withoutBlanks]

end DfaWorkbench.Text
