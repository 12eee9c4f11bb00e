import Mathlib.Data.List.Forall2
import Mathlib.Data.Option.Basic

namespace DfaWorkbench.Sequence

variable {α β : Type} {r : α → β → Prop} {xs : List α} {ys : List β}

lemma isSome_eq_of_rel {x : Option α} {y : Option β} (h : Option.Rel r x y) :
    x.isSome = y.isSome := by
  cases h with
  | none => rfl
  | some _ => rfl

lemma rel_find? {p : α → Bool} {q : β → Bool} (hpq : ∀ x y, r x y → p x = q y)
    (h : List.Forall₂ r xs ys) : Option.Rel r (xs.find? p) (ys.find? q) := by
  induction h with
  | nil => exact .none
  | cons hxy _ ih =>
    rw [List.find?_cons, List.find?_cons, hpq _ _ hxy]
    split
    · exact .some hxy
    · exact ih

lemma forall₂_flatMap {γ : Type} {zs : List γ} {f : γ → List α} {g : γ → List β}
    (hfg : ∀ z, List.Forall₂ r (f z) (g z)) :
    List.Forall₂ r (zs.flatMap f) (zs.flatMap g) :=
  List.rel_flatMap (List.forall₂_same.2 fun z _ => hfg z) fun _ _ h => h

lemma all_eq_of_forall₂ {p : α → Bool} {q : β → Bool} (hpq : ∀ x y, r x y → p x = q y)
    (h : List.Forall₂ r xs ys) : xs.all p = ys.all q := by
  induction h with
  | nil => rfl
  | cons hxy _ ih => rw [List.all_cons, List.all_cons, hpq _ _ hxy, ih]

lemma isEmpty_eq_of_forall₂ (h : List.Forall₂ r xs ys) : xs.isEmpty = ys.isEmpty := by
  cases h with
  | nil => rfl
  | cons _ _ => rfl

lemma exists_of_mem_left (h : List.Forall₂ r xs ys) : ∀ x ∈ xs, ∃ y ∈ ys, r x y := by
  induction h with
  | nil => exact List.forall_mem_nil _
  | cons hxy _ ih =>
    refine List.forall_mem_cons.2 ⟨⟨_, List.mem_cons_self, hxy⟩, fun x hx => ?_⟩
    exact (ih x hx).imp fun y hy => ⟨List.mem_cons_of_mem _ hy.1, hy.2⟩

lemma exists_of_mem_right (h : List.Forall₂ r xs ys) : ∀ y ∈ ys, ∃ x ∈ xs, r x y :=
  exists_of_mem_left h.flip

lemma forall_of_forall₂ {p : β → Prop} (hp : ∀ x y, r x y → p y) (h : List.Forall₂ r xs ys) :
    ∀ y ∈ ys, p y := by
  intro y hy
  obtain ⟨x, _, hxy⟩ := exists_of_mem_right h y hy
  exact hp x y hxy

lemma map_eq_of_forall₂ {γ : Type} {f : α → γ} {g : β → γ} (hfg : ∀ x y, r x y → f x = g y)
    (h : List.Forall₂ r xs ys) : xs.map f = ys.map g := by
  rw [← List.forall₂_eq_eq_eq, List.forall₂_map_left_iff, List.forall₂_map_right_iff]
  exact h.imp hfg

lemma forall₂_of_map_eq {γ : Type} {f : α → γ} {g : β → γ} (h : xs.map f = ys.map g) :
    List.Forall₂ (fun x y => f x = g y) xs ys := by
  rwa [← List.forall₂_eq_eq_eq, List.forall₂_map_left_iff, List.forall₂_map_right_iff] at h

lemma forall₂_comp {γ : Type} {s : β → γ → Prop} {zs : List γ} :
    List.Forall₂ (fun x z => ∃ y, r x y ∧ s y z) xs zs ↔
      ∃ ys, List.Forall₂ r xs ys ∧ List.Forall₂ s ys zs := by
  constructor
  · intro h
    induction h with
    | nil => exact ⟨[], .nil, .nil⟩
    | cons hxz _ ih =>
      obtain ⟨y, hxy, hyz⟩ := hxz
      obtain ⟨ys, hxs, hzs⟩ := ih
      exact ⟨y :: ys, .cons hxy hxs, .cons hyz hzs⟩
  · rintro ⟨ys, hxs, hzs⟩
    induction hxs generalizing zs with
    | nil =>
      obtain rfl := List.forall₂_nil_left_iff.1 hzs
      exact .nil
    | cons hxy _ ih =>
      obtain ⟨z, zs, hyz, hrest, rfl⟩ := List.forall₂_cons_left_iff.1 hzs
      exact .cons ⟨_, hxy, hyz⟩ (ih hrest)

lemma forall₂_append_left_iff {xs' : List α} : List.Forall₂ r (xs ++ xs') ys ↔
    ∃ us vs, ys = us ++ vs ∧ List.Forall₂ r xs us ∧ List.Forall₂ r xs' vs := by
  constructor
  · intro h
    exact ⟨ys.take xs.length, ys.drop xs.length, (List.take_append_drop _ ys).symm,
      by simpa using List.forall₂_take xs.length h, by simpa using List.forall₂_drop xs.length h⟩
  · rintro ⟨us, vs, rfl, hus, hvs⟩
    exact List.rel_append hus hvs

end DfaWorkbench.Sequence
