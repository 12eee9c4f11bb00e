import Mathlib.Data.List.Nodup
import Mathlib.Order.Bounds.Basic
import Mathlib.Tactic.Common
import DfaWorkbench.Sequence.Fresh

/-! Of a series of distinct names, more than are taken, one is free. The first free name is the one
at which a count from zero stops, and so it is if several names are needed and the count goes on
from one to the next. -/

namespace DfaWorkbench.Sequence

variable {κ : Type}

/-- The count goes on as long as the name of the number is taken. -/
inductive Seeks (name : ℕ → κ) (taken : List κ) : ℕ → ℕ → Prop
  | free {n : ℕ} : name n ∉ taken → Seeks name taken n n
  | next {n m : ℕ} : name n ∈ taken → Seeks name taken (n + 1) m → Seeks name taken n m

/-- Each number comes from the count that the one before has stopped at, and its name is taken from
then on. -/
inductive Numbered (name : ℕ → κ) : List κ → ℕ → List ℕ → Prop
  | nil {taken : List κ} {n : ℕ} : Numbered name taken n []
  | cons {taken : List κ} {n m : ℕ} {ms : List ℕ} : Seeks name taken n m →
      Numbered name (name m :: taken) m ms → Numbered name taken n (m :: ms)

variable {name : ℕ → κ} {taken : List κ} {n m : ℕ} {ms ns : List ℕ}

lemma seeks_iff : Seeks name taken n m ↔
    n ≤ m ∧ name m ∉ taken ∧ ∀ k, n ≤ k → k < m → name k ∈ taken := by
  constructor
  · intro h
    induction h with
    | free hfree => exact ⟨le_rfl, hfree, fun k hle hlt => absurd hlt hle.not_gt⟩
    | @next n m htaken _ ih =>
      obtain ⟨hle, hfree, hbelow⟩ := ih
      refine ⟨by omega, hfree, fun k hk hlt => ?_⟩
      rcases Nat.eq_or_lt_of_le hk with rfl | hk
      · exact htaken
      · exact hbelow k hk hlt
  · rintro ⟨hle, hfree, hbelow⟩
    obtain ⟨d, rfl⟩ := Nat.exists_eq_add_of_le hle
    clear hle
    induction d generalizing n with
    | zero => exact .free hfree
    | succ d ih =>
      rw [← Nat.add_assoc, Nat.add_right_comm] at hfree hbelow ⊢
      apply Seeks.next
      · exact hbelow n le_rfl (by omega)
      · exact ih hfree fun k hk hlt => hbelow k (by omega) hlt

lemma mem_of_lt_least (h : IsLeast {k | name k ∉ taken} m) {k : ℕ} (hlt : k < m) :
    name k ∈ taken := by
  by_contra hk
  exact absurd (h.2 hk) hlt.not_ge

lemma seeks_iff_isLeast (hn : ∀ k < n, name k ∈ taken) :
    Seeks name taken n m ↔ IsLeast {k | name k ∉ taken} m := by
  rw [seeks_iff]
  constructor
  · rintro ⟨_, hfree, hbelow⟩
    refine ⟨hfree, fun k hk => ?_⟩
    by_contra! hlt
    rcases Nat.lt_or_ge k n with hkn | hkn
    · exact hk (hn k hkn)
    · exact hk (hbelow k hkn hlt)
  · intro h
    refine ⟨?_, h.1, fun k _ hlt => mem_of_lt_least h hlt⟩
    by_contra! hlt
    exact h.1 (hn m hlt)

lemma numbered_iff (hn : ∀ k < n, name k ∈ taken) : Numbered name taken n ms ↔
    ∀ i m, ms[i]? = some m → IsLeast {k | name k ∉ taken ∧ name k ∉ (ms.take i).map name} m := by
  induction ms generalizing taken n with
  | nil => simp [Numbered.nil]
  | cons m ms ih =>
    have hcons : Numbered name taken n (m :: ms) ↔
        Seeks name taken n m ∧ Numbered name (name m :: taken) m ms := by
      constructor
      · rintro (_ | ⟨hseeks, hrest⟩)
        exact ⟨hseeks, hrest⟩
      · rintro ⟨hseeks, hrest⟩
        exact .cons hseeks hrest
    have hfirst : {k | name k ∉ taken ∧ name k ∉ ([] : List ℕ).map name} =
        {k | name k ∉ taken} := by
      simp
    have hlater (i : ℕ) : {k | name k ∉ taken ∧ name k ∉ ((m :: ms).take (i + 1)).map name} =
        {k | name k ∉ name m :: taken ∧ name k ∉ (ms.take i).map name} := by
      ext k
      simp only [Set.mem_ofPred_eq, List.take_succ_cons, List.map_cons, List.mem_cons, not_or]
      tauto
    have hrest (hleast : IsLeast {k | name k ∉ taken} m) :=
      @ih (name m :: taken) m fun _ hlt => List.mem_cons_of_mem _ (mem_of_lt_least hleast hlt)
    rw [hcons, seeks_iff_isLeast hn]
    constructor
    · rintro ⟨hleast, hnumbered⟩ (_ | i) k hk
      · obtain rfl : m = k := by simpa using hk
        rwa [List.take_zero, hfirst]
      · rw [hlater]
        exact (hrest hleast).1 hnumbered i k hk
    · intro h
      have hleast : IsLeast {k | name k ∉ taken} m := hfirst ▸ h 0 m rfl
      refine ⟨hleast, (hrest hleast).2 fun i k hk => ?_⟩
      rw [← hlater]
      exact h (i + 1) k hk

lemma numbered_append_iff : Numbered name taken 0 (ms ++ ns) ↔
    Numbered name taken 0 ms ∧ Numbered name (taken ++ ms.map name) 0 ns := by
  have hlater (i : ℕ) :
      {k | name k ∉ taken ∧ name k ∉ ((ms ++ ns).take (ms.length + i)).map name} =
        {k | name k ∉ taken ++ ms.map name ∧ name k ∉ (ns.take i).map name} := by
    ext k
    simp only [Set.mem_ofPred_eq, List.take_length_add_append, List.map_append, List.mem_append,
      not_or, and_assoc]
  simp only [numbered_iff (n := 0) (fun k hk => absurd hk k.not_lt_zero)]
  constructor
  · intro h
    refine ⟨fun i m hm => ?_, fun i n hn => ?_⟩
    · have hi := (List.getElem?_eq_some_iff.1 hm).1
      have hleast := h i m ((List.getElem?_append_left hi).trans hm)
      rwa [List.take_append_of_le_length hi.le] at hleast
    · rw [← hlater]
      apply h (ms.length + i) n
      rwa [List.getElem?_append_right (by omega), Nat.add_sub_cancel_left]
  · rintro ⟨hms, hns⟩ i m hm
    rcases Nat.lt_or_ge i ms.length with hi | hi
    · rw [List.take_append_of_le_length hi.le]
      exact hms i m ((List.getElem?_append_left hi).symm.trans hm)
    · obtain ⟨j, rfl⟩ := Nat.exists_eq_add_of_le hi
      rw [List.getElem?_append_right (by omega), Nat.add_sub_cancel_left] at hm
      rw [hlater]
      exact hns j m hm

lemma Numbered.name_notMem (h : Numbered name taken n ms) : ∀ m ∈ ms, name m ∉ taken := by
  induction h with
  | nil => exact List.forall_mem_nil _
  | cons hseeks _ ih =>
    refine List.forall_mem_cons.2 ⟨(seeks_iff.1 hseeks).2.1, fun k hk hmem => ?_⟩
    exact ih k hk (List.mem_cons_of_mem _ hmem)

lemma Numbered.nodup (h : Numbered name taken n ms) : (ms.map name).Nodup := by
  induction h with
  | nil => exact List.nodup_nil
  | cons _ hrest ih =>
    rw [List.map_cons, List.nodup_cons]
    refine ⟨fun hmem => ?_, ih⟩
    obtain ⟨k, hk, he⟩ := List.mem_map.1 hmem
    exact hrest.name_notMem k hk (he ▸ List.mem_cons_self)

variable [DecidableEq κ]

section Free

variable (hname : Function.Injective name)

include hname

lemma exists_free (taken : List κ) (start : ℕ) :
    ∃ n ∈ List.range' start (taken.length + 1), name n ∉ taken := by
  by_contra! h
  have hnodup : ((List.range' start (taken.length + 1)).map name).Nodup :=
    (List.nodup_range' 1).map hname
  have hsub : (List.range' start (taken.length + 1)).map name ⊆ taken := by
    intro k hk
    obtain ⟨n, hn, rfl⟩ := List.mem_map.1 hk
    exact h n hn
  have hle := hnodup.length_le_of_subset hsub
  simp only [List.length_map, List.length_range'] at hle
  omega

lemma seeks_firstFree (taken : List κ) (start : ℕ) :
    Seeks name taken start (firstFree name taken start) := by
  rw [firstFree]
  cases hf : (List.range' start (taken.length + 1)).find? fun n => name n ∉ taken with
  | some n =>
    obtain ⟨hfree, hn, hbelow⟩ := List.find?_range'_eq_some.1 hf
    refine seeks_iff.2 ⟨(List.mem_range'_1.1 hn).1, of_decide_eq_true hfree, fun k hk hlt => ?_⟩
    simpa using hbelow k hk hlt
  | none =>
    obtain ⟨n, hn, hfree⟩ := exists_free hname taken start
    have hall := List.find?_eq_none.1 hf n hn
    exact absurd (decide_eq_true hfree) hall

lemma firstFree_notMem (taken : List κ) (start : ℕ) :
    name (firstFree name taken start) ∉ taken :=
  (seeks_iff.1 (seeks_firstFree hname taken start)).2.1

lemma isLeast_firstFree (hn : ∀ k < n, name k ∈ taken) :
    IsLeast {k | name k ∉ taken} (firstFree name taken n) :=
  (seeks_iff_isLeast hn).1 (seeks_firstFree hname taken n)

lemma firstFree_congr {taken' : List κ} {n' : ℕ} (h : ∀ k, k ∈ taken ↔ k ∈ taken')
    (hn : ∀ k < n, name k ∈ taken) (hn' : ∀ k < n', name k ∈ taken') :
    firstFree name taken n = firstFree name taken' n' := by
  apply (isLeast_firstFree hname hn).unique
  simpa only [h] using isLeast_firstFree hname hn'

lemma mem_of_lt_firstFree (hn : ∀ k < n, name k ∈ taken) :
    ∀ k < firstFree name taken n, name k ∈ name (firstFree name taken n) :: taken :=
  fun _ hlt => List.mem_cons_of_mem _ (mem_of_lt_least (isLeast_firstFree hname hn) hlt)

end Free

lemma numbered_injective (base : String) : Function.Injective fun n : ℕ => base ++ n.repr := by
  have hread :
      Function.LeftInverse (fun s : String => Nat.ofDigitChars 10 s.toList 0) Nat.repr := by
    intro n
    simp only [Nat.toList_repr, Nat.ofDigitChars_ten_toDigits]
  intro m n h
  exact hread.injective ((String.append_right_inj base).1 h)

end DfaWorkbench.Sequence
