import Mathlib.Tactic.Common
import DfaWorkbench.Proofs.Json.Numeral
import DfaWorkbench.Proofs.Result

/-! The limits of JSON text. Where a value is not nested too deep, what keeps it from being written
is what keeps its text from being read: a whole number with too many digits. -/

namespace DfaWorkbench.Json

/-- Values that are at most so many levels deep, whose objects have no repeated fields and whose
floats are of a certain kind. -/
inductive Shaped (float : Float → Prop) : ℕ → Json → Prop
  | null {depth : ℕ} : Shaped float depth null
  | bool {depth : ℕ} (b : Bool) : Shaped float depth (bool b)
  | num {depth : ℕ} {n : Number} (h : ∀ x, n = .float x → float x) : Shaped float depth (num n)
  | str {depth : ℕ} (s : String) : Shaped float depth (str s)
  | arr {depth : ℕ} {xs : List Json} (h : ∀ x ∈ xs, Shaped float depth x) :
      Shaped float (depth + 1) (arr xs)
  | obj {depth : ℕ} {fs : List (String × Json)} (hkeys : (fs.map Prod.fst).Nodup)
      (h : ∀ f ∈ fs, Shaped float depth f.2) : Shaped float (depth + 1) (obj fs)

mutual

def check : Json → Except ReadError Unit
  | num n => checkNumber n
  | arr xs => checkItems xs
  | obj fs => checkFields fs
  | _ => .ok ()

def checkItems : List Json → Except ReadError Unit
  | [] => .ok ()
  | x :: xs => do
    check x
    checkItems xs

def checkFields : List (String × Json) → Except ReadError Unit
  | [] => .ok ()
  | (_, x) :: fs => do
    check x
    checkFields fs

end

variable {float : Float → Prop} {l : Layout} {v x : Json} {xs : List Json}
  {fs gs : List (String × Json)} {depth room : ℕ}

lemma Shaped.of_mem_fields (h : Shaped float (depth + 1) (Json.obj fs)) {f : String × Json}
    (hf : f ∈ fs) : Shaped float depth f.2 := by
  cases h with
  | obj _ hall => exact hall f hf

lemma checkItems_eq_ok : checkItems xs = .ok () ↔ ∀ x ∈ xs, check x = .ok () := by
  induction xs with
  | nil => simp [checkItems]
  | cons x xs ih =>
    rw [checkItems, Result.bind_eq_ok, List.forall_mem_cons, ← ih]
    exact ⟨fun ⟨_, hx, hxs⟩ => ⟨hx, hxs⟩, fun ⟨hx, hxs⟩ => ⟨(), hx, hxs⟩⟩

lemma checkFields_eq_checkItems (fs : List (String × Json)) :
    checkFields fs = checkItems (fs.map Prod.snd) := by
  induction fs with
  | nil => rfl
  | cons f fs ih => rw [checkFields, ih, List.map_cons, checkItems]

lemma checkFields_eq_ok : checkFields fs = .ok () ↔ ∀ f ∈ fs, check f.2 = .ok () := by
  rw [checkFields_eq_checkItems, checkItems_eq_ok, List.forall_mem_map]

lemma checkFields_singleton (name : String) (v : Json) : checkFields [(name, v)] = check v := by
  rw [checkFields]
  cases check v <;> rfl

lemma checkFields_append :
    checkFields (fs ++ gs) = checkFields fs >>= fun _ => checkFields gs := by
  induction fs with
  | nil => rfl
  | cons f fs ih =>
    rw [List.cons_append, checkFields, ih, checkFields]
    cases check f.2 <;> rfl

lemma isTooLong_of_checkItems {e : ReadError} (hxs : ∀ x ∈ xs, check x = .error e → IsTooLong e)
    (h : checkItems xs = .error e) : IsTooLong e := by
  induction xs with
  | nil => cases h
  | cons x xs ih =>
    rw [List.forall_mem_cons] at hxs
    rcases Result.bind_eq_error.1 h with h | ⟨_, _, h⟩
    · exact hxs.1 h
    · exact ih hxs.2 h

lemma isTooLong_of_check (hv : Shaped float depth v) {e : ReadError} (h : check v = .error e) :
    IsTooLong e := by
  induction hv with
  | null | bool | str => cases h
  | num => exact isTooLong_of_checkNumber h
  | arr _ ih => exact isTooLong_of_checkItems ih h
  | obj _ _ ih =>
    rw [check, checkFields_eq_checkItems] at h
    exact isTooLong_of_checkItems (List.forall_mem_map.2 ih) h

lemma requireNumber_eq (n : Number) :
    requireWritable l (room + 1) (num n) = (checkNumber n).mapError fun _ => .tooLong := by
  cases n with
  | float x => rfl
  | int n =>
    rw [requireWritable, checkNumber]
    split <;> rfl

lemma requireItems_eq (h : ∀ x ∈ xs,
    requireWritable l room x = (check x).mapError fun _ => .tooLong) :
    requireItems l room xs = (checkItems xs).mapError fun _ => .tooLong := by
  induction xs with
  | nil => rfl
  | cons x xs ih =>
    rw [List.forall_mem_cons] at h
    rw [requireItems, checkItems, Result.mapError_bind, h.1, ih h.2]

lemma requireFields_eq_requireItems (l : Layout) (room : ℕ) (fs : List (String × Json)) :
    requireFields l room fs = requireItems l room (fs.map Prod.snd) := by
  induction fs with
  | nil => rfl
  | cons f fs ih => rw [requireFields, ih, List.map_cons, requireItems]

lemma requireFields_eq (h : ∀ f ∈ fs,
    requireWritable l room f.2 = (check f.2).mapError fun _ => .tooLong) :
    requireFields l room fs = (checkFields fs).mapError fun _ => .tooLong := by
  rw [requireFields_eq_requireItems, checkFields_eq_checkItems]
  exact requireItems_eq (List.forall_mem_map.2 h)

/-- One level more than there are in a value leaves room for a float at the bottom. -/
theorem requireWritable_of_shaped (h : Shaped float depth v) :
    requireWritable l (depth + 1) v = (check v).mapError fun _ => .tooLong := by
  induction h with
  | null | bool | str => rfl
  | num => exact requireNumber_eq _
  | arr _ ih =>
    rw [requireWritable, check]
    exact requireItems_eq ih
  | obj _ _ ih =>
    rw [requireWritable, check]
    exact requireFields_eq ih

end DfaWorkbench.Json
