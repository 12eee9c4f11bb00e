import Mathlib.Data.List.Induction
import Mathlib.Data.List.Nodup
import Mathlib.Tactic.Common
import DfaWorkbench.Sequence.Distinct

/-! Lists without repetition. The two ways of taking repetitions out leave them as they are, and an
entry can be found by its key. -/

namespace DfaWorkbench.Sequence

variable {α κ : Type}

section EraseDups

variable [BEq α] [LawfulBEq α]

lemma nodup_eraseDups (xs : List α) : xs.eraseDups.Nodup := by
  induction hn : xs.length using Nat.strongRecOn generalizing xs with
  | _ n ih =>
    cases xs with
    | nil => simp
    | cons x xs =>
      rw [List.eraseDups_cons, List.nodup_cons, List.mem_eraseDups]
      have hle : (xs.filter fun y => !y == x).length ≤ xs.length := List.length_filter_le _ xs
      refine ⟨by simp, ih _ ?_ _ rfl⟩
      rw [← hn, List.length_cons]
      omega

lemma eraseDups_filter (p : α → Bool) (xs : List α) :
    (xs.filter p).eraseDups = xs.eraseDups.filter p := by
  induction xs using List.reverseRecOn with
  | nil => rfl
  | append_singleton xs x ih =>
    rw [List.filter_append, List.eraseDups_append, List.eraseDups_append, List.filter_append, ih]
    congr 1
    by_cases hp : p x
    · by_cases hx : x ∈ xs
      · simp [List.removeAll, hx, hp]
      · simp [List.removeAll, hx, hp, List.eraseDups_cons]
    · by_cases hx : x ∈ xs
      · simp [List.removeAll, hx, hp]
      · simp [List.removeAll, hx, hp, List.eraseDups_cons]

lemma eraseDups_append_eq (xs ys : List α) :
    (xs ++ ys).eraseDups = xs.eraseDups ++ ys.eraseDups.filter (· ∉ xs.eraseDups) := by
  rw [List.eraseDups_append, List.removeAll, eraseDups_filter]
  simp

end EraseDups

variable [DecidableEq κ] {key : α → κ} {xs : List α}

lemma unseen_of_nodup {seen : List κ} (h : (xs.map key).Nodup)
    (hseen : ∀ x ∈ xs, key x ∉ seen) : unseen key seen xs = xs := by
  induction xs generalizing seen with
  | nil => rfl
  | cons x xs ih =>
    rw [List.map_cons, List.nodup_cons] at h
    rw [unseen, if_neg (hseen x List.mem_cons_self), ih h.2]
    intro y hy
    rw [List.mem_cons, not_or]
    refine ⟨fun he => h.1 (he ▸ List.mem_map_of_mem hy), hseen y (List.mem_cons_of_mem x hy)⟩

lemma distinct_of_nodup (h : (xs.map key).Nodup) : distinct key xs = xs :=
  unseen_of_nodup h (by simp)

lemma unseen_congr {seen seen' : List κ} (h : ∀ k, k ∈ seen ↔ k ∈ seen') :
    unseen key seen xs = unseen key seen' xs := by
  induction xs generalizing seen seen' with
  | nil => rfl
  | cons x xs ih =>
    have hcons : ∀ k, k ∈ key x :: seen ↔ k ∈ key x :: seen' := by
      intro k
      rw [List.mem_cons, List.mem_cons, h]
    rw [unseen, unseen, ih h, ih hcons]
    simp only [h]

lemma unseen_append (seen : List κ) (xs ys : List α) :
    unseen key seen (xs ++ ys) = unseen key seen xs ++ unseen key (seen ++ xs.map key) ys := by
  induction xs generalizing seen with
  | nil => simp [unseen]
  | cons x xs ih =>
    rw [List.cons_append, unseen, unseen, ih, ih]
    split
    · next hx =>
      congr 1
      apply unseen_congr
      intro k
      simp only [List.mem_append, List.map_cons, List.mem_cons]
      grind
    · rw [List.cons_append]
      congr 2
      apply unseen_congr
      intro k
      simp only [List.mem_append, List.map_cons, List.mem_cons]
      tauto

lemma distinct_append (h : (xs.map key).Nodup) (ys : List α) :
    distinct key (xs ++ ys) = xs ++ unseen key (xs.map key) ys := by
  rw [distinct, unseen_append, List.nil_append, unseen_of_nodup h (by simp)]

lemma distinct_distinct_append (xs ys : List α) :
    distinct key (distinct key xs ++ ys) = distinct key (xs ++ ys) := by
  rw [distinct_append (nodup_keys_distinct key xs), distinct, distinct, unseen_append,
    List.nil_append]
  congr 1
  apply unseen_congr
  intro k
  exact mem_keys_distinct

lemma unseen_map {β : Type} [DecidableEq β] {f : β → α} (hf : Function.Injective (key ∘ f))
    (seen : List κ) (ys : List β) :
    unseen key seen (ys.map f) = (ys.eraseDups.filter fun y => key (f y) ∉ seen).map f := by
  induction ys generalizing seen with
  | nil => rfl
  | cons y ys ih =>
    rw [List.map_cons, unseen, ih, ih, List.eraseDups_cons, eraseDups_filter, List.filter_cons,
      List.filter_filter]
    by_cases hy : key (f y) ∈ seen
    · simp only [hy, if_true, not_true_eq_false, decide_false, Bool.false_eq_true, if_false]
      congr 1
      refine List.filter_congr fun z _ => ?_
      by_cases hz : z = y <;> simp [hz, hy]
    · simp only [hy, if_false, not_false_eq_true, decide_true, if_true, List.map_cons]
      congr 2
      refine List.filter_congr fun z _ => ?_
      have hz : key (f z) = key (f y) ↔ z = y := hf.eq_iff
      simp [hz, beq_eq_decide, Bool.and_comm]

lemma find?_eq_some_iff (h : (xs.map key).Nodup) {k : κ} {x : α} :
    xs.find? (key · = k) = some x ↔ x ∈ xs ∧ key x = k := by
  have hsound {y : α} (hy : xs.find? (key · = k) = some y) : y ∈ xs ∧ key y = k := by
    have hk := List.find?_some hy
    exact ⟨List.mem_of_find?_eq_some hy, of_decide_eq_true hk⟩
  refine ⟨hsound, fun ⟨hx, hk⟩ => ?_⟩
  cases hy : xs.find? (key · = k) with
  | none => exact absurd (decide_eq_true hk) (List.find?_eq_none.1 hy x hx)
  | some y => rw [List.inj_on_of_nodup_map h (hsound hy).1 hx ((hsound hy).2.trans hk.symm)]

lemma find?_of_perm {ys : List α} (h : xs.Perm ys) (hnodup : (ys.map key).Nodup) (k : κ) :
    xs.find? (key · = k) = ys.find? (key · = k) := by
  have hxs : (xs.map key).Nodup := (h.map key).nodup_iff.2 hnodup
  refine Option.ext fun x => ?_
  rw [find?_eq_some_iff hxs, find?_eq_some_iff hnodup, h.mem_iff]

end DfaWorkbench.Sequence
