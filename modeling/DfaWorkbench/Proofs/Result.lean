import Mathlib.Data.List.Forall2
import Mathlib.Tactic.Common
import DfaWorkbench.Proofs.Sequence.Related

namespace DfaWorkbench.Result

variable {ε α β : Type}

lemma bind_eq_ok {x : Except ε α} {f : α → Except ε β} {b : β} :
    (x >>= f) = .ok b ↔ ∃ a, x = .ok a ∧ f a = .ok b := by
  cases x with
  | error e => simp [bind, Except.bind]
  | ok a => simp [bind, Except.bind]

lemma bind_eq_error {x : Except ε α} {f : α → Except ε β} {e : ε} :
    (x >>= f) = .error e ↔ x = .error e ∨ ∃ a, x = .ok a ∧ f a = .error e := by
  cases x with
  | error e' => simp [bind, Except.bind]
  | ok a => simp [bind, Except.bind]

lemma bind_ne_error {x : Except ε α} {f : α → Except ε β} {e : ε} (hx : x ≠ .error e)
    (hf : ∀ a, f a ≠ .error e) : (x >>= f) ≠ .error e := by
  rw [Ne, bind_eq_error]
  rintro (h | ⟨a, _, h⟩)
  · exact hx h
  · exact hf a h

lemma map_bind {γ : Type} (x : Except ε α) (f : α → Except ε β) (k : β → γ) :
    (x >>= f).map k = x >>= fun a => (f a).map k := by
  cases x <;> rfl

lemma mapM_eq_ok_iff {f : α → Except ε β} {xs : List α} {ys : List β} :
    xs.mapM f = .ok ys ↔ List.Forall₂ (fun x y => f x = .ok y) xs ys := by
  induction xs generalizing ys with
  | nil =>
    rw [List.forall₂_nil_left_iff, List.mapM_nil]
    exact ⟨fun h => (Except.ok.inj h).symm, fun h => by rw [h]; rfl⟩
  | cons x xs ih =>
    rw [List.mapM_cons, bind_eq_ok, List.forall₂_cons_left_iff]
    refine exists_congr fun y => ?_
    constructor
    · rintro ⟨hy, h⟩
      obtain ⟨zs, hzs, h⟩ := bind_eq_ok.1 h
      exact ⟨zs, hy, ih.1 hzs, (Except.ok.inj h).symm⟩
    · rintro ⟨zs, hy, hzs, rfl⟩
      exact ⟨hy, bind_eq_ok.2 ⟨zs, ih.2 hzs, rfl⟩⟩

lemma mapM_eq_ok {f : α → Except ε β} {xs : List α} {ys : List β} (h : xs.mapM f = .ok ys) :
    (∀ x ∈ xs, ∃ y ∈ ys, f x = .ok y) ∧ ∀ y ∈ ys, ∃ x ∈ xs, f x = .ok y :=
  ⟨Sequence.exists_of_mem_left (mapM_eq_ok_iff.1 h),
    Sequence.exists_of_mem_right (mapM_eq_ok_iff.1 h)⟩

lemma map_eq_of_mapM {γ : Type} {f : α → Except ε β} {k : β → γ} {l : α → γ} {xs : List α}
    {ys : List β} (h : xs.mapM f = .ok ys) (hkl : ∀ x y, f x = .ok y → k y = l x) :
    ys.map k = xs.map l :=
  (Sequence.map_eq_of_forall₂ (fun x y hxy => (hkl x y hxy).symm) (mapM_eq_ok_iff.1 h)).symm

lemma mapM_of_forall {f : α → Except ε β} {g : α → β} {xs : List α}
    (h : ∀ x ∈ xs, f x = .ok (g x)) : xs.mapM f = .ok (xs.map g) := by
  rw [mapM_eq_ok_iff, List.forall₂_map_right_iff, List.forall₂_same]
  exact h

lemma mapM_eq_error {f : α → Except ε β} {xs : List α} {e : ε} (h : xs.mapM f = .error e) :
    ∃ x ∈ xs, f x = .error e := by
  induction xs with
  | nil => cases h
  | cons x xs ih =>
    rw [List.mapM_cons] at h
    cases hx : f x with
    | error e' =>
      rw [hx] at h
      obtain rfl : e' = e := Except.error.inj h
      exact ⟨x, List.mem_cons_self, hx⟩
    | ok y =>
      cases hxs : xs.mapM f with
      | error e' =>
        rw [hx, hxs] at h
        obtain rfl : e' = e := Except.error.inj h
        obtain ⟨z, hz, hf⟩ := ih hxs
        exact ⟨z, List.mem_cons_of_mem _ hz, hf⟩
      | ok ys =>
        rw [hx, hxs] at h
        cases h

lemma mapM_ne_error {f : α → Except ε β} {xs : List α} {e : ε} (h : ∀ x, f x ≠ .error e) :
    xs.mapM f ≠ .error e := by
  intro he
  obtain ⟨x, _, hx⟩ := mapM_eq_error he
  exact h x hx

lemma exists_mapM_eq_ok {f : α → Except ε β} {xs : List α} (h : ∀ x ∈ xs, ∃ y, f x = .ok y) :
    ∃ ys, xs.mapM f = .ok ys := by
  cases hm : xs.mapM f with
  | ok ys => exact ⟨ys, rfl⟩
  | error e =>
    obtain ⟨x, hx, he⟩ := mapM_eq_error hm
    obtain ⟨y, hy⟩ := h x hx
    rw [hy] at he
    cases he

lemma mapM_eq_error_of_first {f : α → Except ε β} {before after : List α} {x : α} {e : ε}
    (hbefore : ∀ y ∈ before, ∃ b, f y = .ok b) (hx : f x = .error e) :
    (before ++ x :: after).mapM f = .error e := by
  obtain ⟨bs, hbs⟩ := exists_mapM_eq_ok hbefore
  rw [List.mapM_append, hbs, List.mapM_cons, hx]
  rfl

lemma exists_mapM_forall₂ {f : α → Except ε β} {r : α → β → Prop} {xs : List α}
    (h : ∀ x ∈ xs, ∃ y, f x = .ok y ∧ r x y) : ∃ ys, xs.mapM f = .ok ys ∧ List.Forall₂ r xs ys := by
  obtain ⟨ys, hys⟩ := exists_mapM_eq_ok fun x hx => (h x hx).imp fun y hy => hy.1
  have hboth := (List.forall₂_and_left xs ys).2 ⟨fun x hx => hx, mapM_eq_ok_iff.1 hys⟩
  refine ⟨ys, hys, hboth.imp fun x y ⟨hx, hxy⟩ => ?_⟩
  obtain ⟨z, hxz, hz⟩ := h x hx
  exact Except.ok.inj (hxz.symm.trans hxy) ▸ hz

lemma exists_mapM_forall {f : α → Except ε β} {P : β → Prop} {xs : List α}
    (h : ∀ x ∈ xs, ∃ y, f x = .ok y ∧ P y) : ∃ ys, xs.mapM f = .ok ys ∧ ∀ y ∈ ys, P y := by
  obtain ⟨ys, hys, hP⟩ := exists_mapM_forall₂ (r := fun _ y => P y) h
  exact ⟨ys, hys, Sequence.forall_of_forall₂ (fun _ _ => id) hP⟩

lemma mapM_eq_ok_iff_exists {γ : Type} {f : α → Except ε α} {k : α → γ} {g : γ → Except ε γ}
    {r : γ → α → Prop} (h : ∀ x y, f x = .ok y ↔ ∃ z, g (k x) = .ok z ∧ r z y) {xs ys : List α} :
    xs.mapM f = .ok ys ↔ ∃ zs, (xs.map k).mapM g = .ok zs ∧ List.Forall₂ r zs ys := by
  simp only [mapM_eq_ok_iff, h, List.forall₂_map_left_iff]
  exact Sequence.forall₂_comp

lemma mapError_eq_ok {ε' : Type} {x : Except ε α} {k : ε → ε'} {a : α} :
    x.mapError k = .ok a ↔ x = .ok a := by
  cases x <;> simp [Except.mapError]

lemma mapError_eq_error {ε' : Type} {x : Except ε α} {k : ε → ε'} {e' : ε'} :
    x.mapError k = .error e' ↔ ∃ e, x = .error e ∧ k e = e' := by
  cases x <;> simp [Except.mapError]

lemma mapError_ne_error {ε' : Type} {x : Except ε α} {k : ε → ε'} {e' : ε'} (h : ∀ e, k e ≠ e') :
    x.mapError k ≠ .error e' := by
  rw [Ne, mapError_eq_error]
  rintro ⟨e, -, he⟩
  exact h e he

lemma of_mapError_eq {ε' γ : Type} {x : Except ε α} {y : Except ε' α} {k : ε → γ} {l : ε' → γ}
    (h : x.mapError k = y.mapError l) :
    (∃ a, x = .ok a ∧ y = .ok a) ∨ ∃ e e', x = .error e ∧ y = .error e' ∧ k e = l e' := by
  cases x with
  | ok a =>
    cases y with
    | ok b => exact .inl ⟨a, rfl, congrArg _ (Except.ok.inj h).symm⟩
    | error e' => cases h
  | error e =>
    cases y with
    | ok b => cases h
    | error e' => exact .inr ⟨e, e', rfl, rfl, Except.error.inj h⟩

lemma mapError_bind {γ : Type} (x : Except ε α) (f : α → Except ε β) (k : ε → γ) :
    (x >>= f).mapError k = x.mapError k >>= fun a => (f a).mapError k := by
  cases x <;> rfl

lemma mapError_mapM {ε' γ δ : Type} {f : α → Except ε γ} {g : β → Except ε' γ} {k : ε → δ}
    {l : ε' → δ} {xs : List α} {ys : List β}
    (h : List.Forall₂ (fun x y => (f x).mapError k = (g y).mapError l) xs ys) :
    (xs.mapM f).mapError k = (ys.mapM g).mapError l := by
  induction h with
  | nil => rfl
  | cons hxy _ ih =>
    rw [List.mapM_cons, List.mapM_cons, mapError_bind, mapError_bind, hxy]
    refine bind_congr fun z => ?_
    rw [mapError_bind, mapError_bind, ih]
    rfl

end DfaWorkbench.Result
