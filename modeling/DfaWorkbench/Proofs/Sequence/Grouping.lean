import Mathlib.Data.List.Induction
import Mathlib.Data.List.Nodup
import Mathlib.Tactic.Common
import DfaWorkbench.Proofs.Sequence.Distinct
import DfaWorkbench.Sequence.Grouping

/-! Each key has one group, whose members are the entries with that key, in their order. -/

namespace DfaWorkbench.Sequence

variable {α κ : Type} [BEq κ]

lemma members_cons (k j : κ) (xs : List α) (gs : List (κ × List α)) :
    members ((k, xs) :: gs) j = if j == k then xs else members gs j := by
  rw [members, List.lookup_cons]
  cases j == k <;> rfl

lemma groupedBy_concat (key : α → κ) (xs : List α) (x : α) :
    groupedBy key (xs ++ [x]) = addToGroup (key x) x (groupedBy key xs) := by
  simp [groupedBy]

lemma flatMap_addToGroup_perm (key : κ) (x : α) (gs : List (κ × List α)) :
    ((addToGroup key x gs).flatMap Prod.snd).Perm (gs.flatMap Prod.snd ++ [x]) := by
  induction gs with
  | nil => exact .refl _
  | cons g gs ih =>
    rw [addToGroup]
    split
    · rw [List.flatMap_cons, List.flatMap_cons, List.append_assoc, List.append_assoc]
      exact List.perm_append_comm.append_left g.2
    · rw [List.flatMap_cons, List.flatMap_cons, List.append_assoc]
      exact ih.append_left g.2

lemma flatMap_groupedBy_perm (key : α → κ) (xs : List α) :
    ((groupedBy key xs).flatMap Prod.snd).Perm xs := by
  induction xs using List.reverseRecOn with
  | nil => exact .refl _
  | append_singleton xs x ih =>
    rw [groupedBy_concat]
    exact (flatMap_addToGroup_perm (key x) x _).trans (ih.append_right [x])

variable [LawfulBEq κ]

lemma members_addToGroup (key j : κ) (x : α) (gs : List (κ × List α)) :
    members (addToGroup key x gs) j = if j == key then members gs j ++ [x] else members gs j := by
  induction gs with
  | nil =>
    rw [addToGroup, members_cons]
    rfl
  | cons g gs ih =>
    obtain ⟨k, xs⟩ := g
    rw [addToGroup]
    by_cases hk : k = key
    · subst hk
      rw [if_pos (beq_self_eq_true k), members_cons, members_cons]
      cases j == k <;> rfl
    · rw [if_neg (by simpa using hk), members_cons, members_cons, ih]
      by_cases hj : j = k
      · subst hj
        simp [hk]
      · simp [hj]

lemma members_groupedBy (key : α → κ) (xs : List α) (j : κ) :
    members (groupedBy key xs) j = xs.filter (j == key ·) := by
  -- Generalised over the groups that the entries before have made.
  have go (gs : List (κ × List α)) :
      members (xs.foldl (fun gs x => addToGroup (key x) x gs) gs) j =
        members gs j ++ xs.filter (j == key ·) := by
    induction xs generalizing gs with
    | nil => simp
    | cons x xs ih =>
      rw [List.foldl_cons, ih, members_addToGroup]
      cases h : j == key x
      · simp [h]
      · simp [h]
  exact go []

lemma addToGroup_of_notMem {key : κ} {x : α} {gs : List (κ × List α)}
    (h : key ∉ gs.map Prod.fst) : addToGroup key x gs = gs ++ [(key, [x])] := by
  induction gs with
  | nil => rfl
  | cons g gs ih =>
    rw [List.map_cons, List.mem_cons, not_or] at h
    rw [addToGroup, if_neg (by simpa using Ne.symm h.1), ih h.2]
    rfl

lemma keys_addToGroup {key : κ} {x : α} {gs : List (κ × List α)} (h : key ∈ gs.map Prod.fst) :
    (addToGroup key x gs).map Prod.fst = gs.map Prod.fst := by
  induction gs with
  | nil => cases h
  | cons g gs ih =>
    obtain ⟨k, xs⟩ := g
    rw [addToGroup]
    by_cases hk : k = key
    · rw [if_pos (by simpa using hk)]
      rfl
    · rw [if_neg (by simpa using hk), List.map_cons, List.map_cons,
        ih ((List.mem_cons.1 h).resolve_left (Ne.symm hk))]

lemma keys_groupedBy (key : α → κ) (xs : List α) :
    (groupedBy key xs).map Prod.fst = (xs.map key).eraseDups := by
  induction xs using List.reverseRecOn with
  | nil => rfl
  | append_singleton xs x ih =>
    have hmem : key x ∈ (groupedBy key xs).map Prod.fst ↔ key x ∈ xs.map key := by
      rw [ih, List.mem_eraseDups]
    rw [groupedBy_concat, List.map_append, List.map_singleton, List.eraseDups_append, ← ih]
    by_cases h : key x ∈ xs.map key
    · rw [keys_addToGroup (hmem.2 h)]
      simp [List.removeAll, h]
    · rw [addToGroup_of_notMem (mt hmem.1 h)]
      simp [List.removeAll, h, List.eraseDups_cons]

lemma mem_keys_groupedBy {key : α → κ} {xs : List α} {j : κ} :
    j ∈ (groupedBy key xs).map Prod.fst ↔ ∃ x ∈ xs, key x = j := by
  rw [keys_groupedBy, List.mem_eraseDups, List.mem_map]

lemma nodup_keys_groupedBy (key : α → κ) (xs : List α) :
    ((groupedBy key xs).map Prod.fst).Nodup := by
  rw [keys_groupedBy]
  exact nodup_eraseDups _

lemma members_of_mem {gs : List (κ × List α)} (hgs : (gs.map Prod.fst).Nodup) {k : κ}
    {xs : List α} (h : (k, xs) ∈ gs) : members gs k = xs := by
  induction gs with
  | nil => cases h
  | cons g gs ih =>
    obtain ⟨j, ys⟩ := g
    rw [List.map_cons, List.nodup_cons] at hgs
    rw [members_cons]
    rcases List.mem_cons.1 h with he | hmem
    · obtain ⟨rfl, rfl⟩ := Prod.mk.inj he
      simp
    · have hne : k ≠ j := by
        rintro rfl
        exact hgs.1 (List.mem_map.2 ⟨_, hmem, rfl⟩)
      rw [if_neg (by simpa using hne), ih hgs.2 hmem]

lemma mem_groupedBy {key : α → κ} {xs ys : List α} {k : κ} :
    (k, ys) ∈ groupedBy key xs ↔ (∃ x ∈ xs, key x = k) ∧ ys = xs.filter (k == key ·) := by
  have hmembers {zs : List α} (h : (k, zs) ∈ groupedBy key xs) :
      zs = xs.filter (k == key ·) := by
    rw [← members_groupedBy, members_of_mem (nodup_keys_groupedBy key xs) h]
  rw [← mem_keys_groupedBy]
  constructor
  · exact fun h => ⟨List.mem_map_of_mem h, hmembers h⟩
  · rintro ⟨hk, rfl⟩
    obtain ⟨⟨j, zs⟩, h, rfl⟩ := List.mem_map.1 hk
    rwa [← hmembers h]

lemma groupedBy_eq (key : α → κ) (xs : List α) :
    groupedBy key xs = (xs.map key).eraseDups.map fun k => (k, xs.filter (k == key ·)) := by
  rw [← keys_groupedBy, List.map_map]
  refine ((List.map_congr_left fun g hg => ?_).trans (List.map_id _)).symm
  exact Prod.ext rfl (mem_groupedBy.1 hg).2.symm

lemma pairwise_findIdx_keys (key : α → κ) (p : α → Bool) (xs : List α) :
    ((xs.filter p).map key).eraseDups.Pairwise fun k j =>
      (xs.findIdx fun x => p x && key x == k) < xs.findIdx fun x => p x && key x == j := by
  induction xs generalizing p with
  | nil => simp
  | cons x xs ih =>
    by_cases hx : p x = true
    · -- The keys after the first one are those of the entries with another key.
      have hrest : ((xs.filter p).map key).filter (!· == key x) =
          (xs.filter fun y => p y && !key y == key x).map key := by
        rw [List.filter_map, List.filter_filter]
        congr 1
        exact List.filter_congr fun y _ => Bool.and_comm _ _
      have hne {k : κ} (hk : k ∈ ((xs.filter fun y => p y && !key y == key x).map key).eraseDups) :
          k ≠ key x := by
        obtain ⟨y, hy, rfl⟩ := List.mem_map.1 (List.mem_eraseDups.1 hk)
        have hother := (List.mem_filter.1 hy).2
        simp only [Bool.and_eq_true, Bool.not_eq_true', beq_eq_false_iff_ne] at hother
        exact hother.2
      have hlater {k : κ} (hk : k ≠ key x) : ((x :: xs).findIdx fun y => p y && key y == k) =
          (xs.findIdx fun y => (p y && !key y == key x) && key y == k) + 1 := by
        have hfirst : (p x && key x == k) = false := by simp [Ne.symm hk]
        have hsame : (fun y => p y && key y == k) =
            fun y => (p y && !key y == key x) && key y == k := by
          funext y
          cases hy : key y == k with
          | false => simp
          | true => simp [eq_of_beq hy, hk]
        rw [List.findIdx_cons, hfirst, hsame]
        rfl
      rw [List.filter_cons_of_pos hx, List.map_cons, List.eraseDups_cons, hrest,
        List.pairwise_cons]
      constructor
      · intro k hk
        rw [hlater (hne hk), List.findIdx_cons]
        simp [hx]
      · refine (ih _).imp_of_mem fun {k j} hk hj hlt => ?_
        rw [hlater (hne hk), hlater (hne hj)]
        omega
    · rw [List.filter_cons_of_neg hx]
      refine (ih p).imp fun {k j} hlt => ?_
      simpa [List.findIdx_cons, hx] using hlt

lemma groupedBy_of_nodup {key : α → κ} {xs : List α} (h : (xs.map key).Nodup) :
    groupedBy key xs = xs.map fun x => (key x, [x]) := by
  induction xs using List.reverseRecOn with
  | nil => rfl
  | append_singleton xs x ih =>
    rw [List.map_append, List.map_singleton, ← List.concat_eq_append, List.nodup_concat] at h
    have hkeys : key x ∉ (groupedBy key xs).map Prod.fst := by
      rw [mem_keys_groupedBy]
      rintro ⟨y, hy, hk⟩
      exact h.1 (hk ▸ List.mem_map_of_mem hy)
    rw [groupedBy_concat, addToGroup_of_notMem hkeys, ih h.2, List.map_append]
    rfl

end DfaWorkbench.Sequence
