/-!
Lists without repetition, with entries told apart by a key. The first of several entries with one
key is kept.
-/

namespace DfaWorkbench.Sequence

variable {α κ : Type} [DecidableEq κ]

def unseen (key : α → κ) (seen : List κ) : List α → List α
  | [] => []
  | x :: xs => if key x ∈ seen then unseen key seen xs else x :: unseen key (key x :: seen) xs

def distinct (key : α → κ) (xs : List α) : List α :=
  unseen key [] xs

theorem mem_of_mem_unseen {key : α → κ} {seen : List κ} {x : α} {xs : List α}
    (h : x ∈ unseen key seen xs) : x ∈ xs := by
  induction xs generalizing seen with
  | nil => exact h
  | cons y ys ih =>
    rw [unseen] at h
    split at h
    · exact List.mem_cons_of_mem _ (ih h)
    · rcases List.mem_cons.1 h with rfl | h
      · exact List.mem_cons_self
      · exact List.mem_cons_of_mem _ (ih h)

theorem key_notMem_of_mem_unseen {key : α → κ} {seen : List κ} {x : α} {xs : List α}
    (h : x ∈ unseen key seen xs) : key x ∉ seen := by
  induction xs generalizing seen with
  | nil => cases h
  | cons y ys ih =>
    rw [unseen] at h
    split at h
    · exact ih h
    · next hy =>
      rcases List.mem_cons.1 h with rfl | h
      · exact hy
      · exact fun hx => ih h (List.mem_cons_of_mem _ hx)

theorem nodup_keys_unseen (key : α → κ) (seen : List κ) (xs : List α) :
    ((unseen key seen xs).map key).Nodup := by
  induction xs generalizing seen with
  | nil => exact List.nodup_nil
  | cons x xs ih =>
    rw [unseen]
    split
    · exact ih seen
    · rw [List.map_cons, List.nodup_cons]
      refine ⟨fun h => ?_, ih _⟩
      obtain ⟨y, hy, hk⟩ := List.mem_map.1 h
      exact key_notMem_of_mem_unseen hy (hk ▸ List.mem_cons_self)

theorem mem_keys_unseen {key : α → κ} {seen : List κ} {k : κ} {xs : List α} :
    k ∈ (unseen key seen xs).map key ↔ k ∈ xs.map key ∧ k ∉ seen := by
  induction xs generalizing seen with
  | nil => simp [unseen]
  | cons x xs ih =>
    rw [unseen]
    split
    · rw [ih]
      grind
    · rw [List.map_cons, List.mem_cons, ih]
      grind

theorem mem_keys_distinct {key : α → κ} {k : κ} {xs : List α} :
    k ∈ (distinct key xs).map key ↔ k ∈ xs.map key := by
  simp [distinct, mem_keys_unseen]

theorem nodup_keys_distinct (key : α → κ) (xs : List α) : ((distinct key xs).map key).Nodup :=
  nodup_keys_unseen key [] xs

end DfaWorkbench.Sequence
