import Mathlib.Data.List.Basic
import Mathlib.Tactic.Common

namespace DfaWorkbench.Sequence

variable {α β : Type}

lemma exists_map_eq {f : α → β} {p : α → Prop} {ys : List β} (h : ∀ y ∈ ys, ∃ x, f x = y ∧ p x) :
    ∃ xs : List α, xs.map f = ys ∧ ∀ x ∈ xs, p x := by
  induction ys with
  | nil => exact ⟨[], rfl, by simp⟩
  | cons y ys ih =>
    rw [List.forall_mem_cons] at h
    obtain ⟨x, rfl, hx⟩ := h.1
    obtain ⟨xs, rfl, hxs⟩ := ih h.2
    exact ⟨x :: xs, rfl, List.forall_mem_cons.2 ⟨hx, hxs⟩⟩

lemma flatMap_filter (p : α → Bool) (f : α → List β) (xs : List α) :
    (xs.filter p).flatMap f = xs.flatMap fun x => if p x then f x else [] := by
  induction xs with
  | nil => rfl
  | cons x xs ih =>
    rw [List.filter_cons, List.flatMap_cons, ← ih]
    split
    · rw [List.flatMap_cons]
    · rw [List.nil_append]

lemma flatMap_filter_of_map_eq {γ κ : Type} [DecidableEq κ] {key : α → κ} {k : γ → κ}
    {f : γ → List β} {zs : List γ} {xs : List α} (hnodup : (zs.map k).Nodup)
    (h : xs.map key = zs.flatMap fun z => (f z).map fun _ => k z) :
    (zs.flatMap fun z => xs.filter (key · = k z)) = xs := by
  induction zs generalizing xs with
  | nil => exact (List.map_eq_nil_iff.1 h).symm
  | cons z zs ih =>
    rw [List.map_cons, List.nodup_cons] at hnodup
    rw [List.flatMap_cons] at h
    obtain ⟨us, vs, rfl, hus, hvs⟩ := List.map_eq_append_iff.1 h
    have hfirst : ∀ x ∈ us, key x = k z := by
      intro x hx
      have hmem : key x ∈ (f z).map fun _ => k z := hus ▸ List.mem_map_of_mem hx
      obtain ⟨_, _, hk⟩ := List.mem_map.1 hmem
      exact hk.symm
    have hothers : ∀ x ∈ vs, key x ∈ zs.map k := by
      intro x hx
      have hmem : key x ∈ zs.flatMap fun z => (f z).map fun _ => k z :=
        hvs ▸ List.mem_map_of_mem hx
      obtain ⟨z', hz', hmem⟩ := List.mem_flatMap.1 hmem
      obtain ⟨_, _, hk⟩ := List.mem_map.1 hmem
      exact List.mem_map.2 ⟨z', hz', hk⟩
    have hgroup : (us ++ vs).filter (key · = k z) = us := by
      rw [List.filter_append, List.filter_eq_self.2 (by simpa using hfirst),
        List.filter_eq_nil_iff.2, List.append_nil]
      intro x hx
      rw [decide_eq_true_iff]
      exact fun hk => hnodup.1 (hk ▸ hothers x hx)
    have hrest : ∀ z' ∈ zs, (us ++ vs).filter (key · = k z') = vs.filter (key · = k z') := by
      intro z' hz'
      rw [List.filter_append, List.filter_eq_nil_iff.2, List.nil_append]
      intro x hx
      rw [decide_eq_true_iff, hfirst x hx]
      exact fun hk => hnodup.1 (hk ▸ List.mem_map_of_mem hz')
    rw [List.flatMap_cons, hgroup, List.flatMap_congr hrest, ih hnodup.2 hvs]

end DfaWorkbench.Sequence
