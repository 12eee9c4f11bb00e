import Mathlib.Algebra.Group.Nat.Defs
import Mathlib.Data.List.TakeDrop
import Mathlib.Data.List.TakeWhile
import Mathlib.Tactic.Common
import DfaWorkbench.Json.Printer
import DfaWorkbench.Json.Reader

/-! Numbers in JSON text. What is read of a number does not depend on what comes after it, so that
a whole number is read as it was written unless it has too many digits. -/

namespace DfaWorkbench.Json

variable {c : Char} {cs rest : List Char} {n : Numeral}

/-- What may stand after a value: the end of the text, or a character that is part of no value. -/
def Closes (rest : List Char) : Prop :=
  ∀ c ∈ rest.head?, c ∈ [',', ']', '\x7d', '\n']

lemma Closes.nil : Closes [] := by
  simp [Closes]

lemma Closes.cons (h : c ∈ [',', ']', '\x7d', '\n']) : Closes (c :: cs) := by
  simpa [Closes] using h

lemma append_ne (hcs : ∀ tail, cs ≠ c :: tail) (hrest : ∀ tail, rest ≠ c :: tail) :
    ∀ tail, cs ++ rest ≠ c :: tail := by
  cases cs with
  | nil => exact hrest
  | cons d cs => exact fun tail h => hcs cs (by rw [(List.cons.inj h).1])

section Closes

variable (hrest : Closes rest)

include hrest

lemma Closes.head_ne (h : c ∉ [',', ']', '\x7d', '\n']) (tail : List Char) : rest ≠ c :: tail :=
  fun he => h (hrest c (by rw [he]; rfl))

lemma Closes.span_digits : rest.span Char.isDigit = ([], rest) := by
  cases rest with
  | nil => rfl
  | cons c tail =>
    have hc : c.isDigit = false := by
      have hmem := hrest c rfl
      simp only [List.mem_cons, List.not_mem_nil, or_false] at hmem
      rcases hmem with rfl | rfl | rfl | rfl <;> rfl
    simp [List.span_eq_takeWhile_dropWhile, hc]

lemma span_digits_append (cs : List Char) :
    (cs ++ rest).span Char.isDigit =
      ((cs.span Char.isDigit).1, (cs.span Char.isDigit).2 ++ rest) := by
  have hspan := hrest.span_digits
  rw [List.span_eq_takeWhile_dropWhile, Prod.mk.injEq] at hspan
  induction cs with
  | nil => simp [List.span_eq_takeWhile_dropWhile, hspan.1, hspan.2]
  | cons c cs ih =>
    rw [List.span_eq_takeWhile_dropWhile, List.span_eq_takeWhile_dropWhile, Prod.mk.injEq] at ih
    cases hc : c.isDigit <;> simp [List.span_eq_takeWhile_dropWhile, hc, ih.1, ih.2]

lemma whole?_append :
    whole? (cs ++ rest) = (whole? cs).map fun (w, tail) => (w, tail ++ rest) := by
  by_cases hzero : ∃ tail, cs = '0' :: tail
  · obtain ⟨tail, rfl⟩ := hzero
    rfl
  · rw [not_exists] at hzero
    have happend : ∀ tail, cs ++ rest ≠ '0' :: tail :=
      append_ne hzero (hrest.head_ne (by decide))
    rw [whole?.eq_2 _ happend, whole?.eq_2 _ hzero, span_digits_append hrest]
    cases cs.span Char.isDigit with
    | mk ds tail => cases ds <;> rfl

lemma fraction_append :
    fraction (cs ++ rest) = ((fraction cs).1, (fraction cs).2 ++ rest) := by
  by_cases hpoint : ∃ tail, cs = '.' :: tail
  · obtain ⟨tail, rfl⟩ := hpoint
    have hspan := span_digits_append hrest tail
    have htake : (tail ++ rest).takeWhile Char.isDigit = tail.takeWhile Char.isDigit := by
      simpa [List.span_eq_takeWhile_dropWhile] using congrArg Prod.fst hspan
    rw [List.cons_append, fraction, fraction, htake, hspan]
    split <;> rfl
  · rw [not_exists] at hpoint
    have happend : ∀ tail, cs ++ rest ≠ '.' :: tail :=
      append_ne hpoint (hrest.head_ne (by decide))
    rw [fraction.eq_2 _ happend, fraction.eq_2 _ hpoint]

lemma signed_append : signed (cs ++ rest) = ((signed cs).1, (signed cs).2 ++ rest) := by
  cases cs with
  | cons c cs =>
    rw [List.cons_append]
    unfold signed
    split <;> split <;> simp_all
  | nil =>
    rw [List.nil_append, signed]
    · rfl
    · exact hrest.head_ne (by decide)
    · exact hrest.head_ne (by decide)

lemma power?_append :
    power? (cs ++ rest) = (power? cs).map fun (e, tail) => (e, tail ++ rest) := by
  cases cs with
  | nil =>
    cases rest with
    | nil => rfl
    | cons c tail =>
      have he : c ≠ 'e' := fun he => hrest.head_ne (c := 'e') (by decide) tail (he ▸ rfl)
      have hE : c ≠ 'E' := fun he => hrest.head_ne (c := 'E') (by decide) tail (he ▸ rfl)
      simp [power?, he, hE]
  | cons c cs =>
    simp only [List.cons_append, power?, signed_append hrest, span_digits_append hrest]
    split
    · split <;> rfl
    · rfl

lemma unsigned?_append (negative : Bool) (cs : List Char) :
    unsigned? negative (cs ++ rest) =
      (unsigned? negative cs).map fun (n, tail) => (n, tail ++ rest) := by
  simp only [unsigned?, whole?_append hrest]
  cases whole? cs with
  | none => rfl
  | some w =>
    simp only [Option.map_some, Option.bind_eq_bind, Option.bind_some, fraction_append hrest,
      power?_append hrest]
    cases power? (fraction w.2).2 <;> rfl

lemma numeral?_append :
    numeral? (cs ++ rest) = (numeral? cs).map fun (n, tail) => (n, tail ++ rest) := by
  by_cases hminus : ∃ tail, cs = '-' :: tail
  · obtain ⟨tail, rfl⟩ := hminus
    exact unsigned?_append hrest _ _
  · rw [not_exists] at hminus
    have happend : ∀ tail, cs ++ rest ≠ '-' :: tail :=
      append_ne hminus (hrest.head_ne (by decide))
    rw [numeral?.eq_2 _ happend, numeral?.eq_2 _ hminus]
    exact unsigned?_append hrest _ _

end Closes

lemma exists_digit_of_whole? (h : (whole? cs).isSome) :
    ∃ c tail, cs = c :: tail ∧ c.isDigit = true := by
  cases cs with
  | nil => cases h
  | cons c tail =>
    refine ⟨c, tail, rfl, ?_⟩
    unfold whole? at h
    split at h
    · next he => rw [(List.cons.inj he).1]; rfl
    · by_contra hc
      simp [List.span_eq_takeWhile_dropWhile, hc] at h

lemma exists_digit_of_numeral? (h : (numeral? cs).isSome) :
    ∃ c tail, (cs = c :: tail ∨ cs = '-' :: c :: tail) ∧ c.isDigit = true := by
  have hwhole {negative : Bool} {cs : List Char} (hu : (unsigned? negative cs).isSome) :
      ∃ c tail, cs = c :: tail ∧ c.isDigit = true := by
    refine exists_digit_of_whole? ?_
    cases hw : whole? cs with
    | none => simp [unsigned?, hw] at hu
    | some w => rfl
  unfold numeral? at h
  split at h
  · obtain ⟨c, tail, rfl, hc⟩ := hwhole h
    exact ⟨c, tail, .inr rfl, hc⟩
  · obtain ⟨c, tail, rfl, hc⟩ := hwhole h
    exact ⟨c, tail, .inl rfl, hc⟩

lemma exists_head_of_numeral? (h : (numeral? cs).isSome) :
    ∃ c tail, cs = c :: tail ∧ (c.isDigit = true ∨ c = '-') := by
  obtain ⟨c, tail, rfl | rfl, hc⟩ := exists_digit_of_numeral? h
  · exact ⟨c, tail, rfl, .inl hc⟩
  · exact ⟨'-', c :: tail, rfl, .inr rfl⟩

lemma after?_of_ne {word : String} {d : Char} {ds : List Char} (hword : word.toList = d :: ds)
    (hd : d ≠ c) : after? word (c :: cs) = none := by
  rw [after?, hword]
  simp [hd]

lemma word?_of_numeral? (h : (numeral? cs).isSome) : word? cs = none := by
  obtain ⟨c, tail, hcs, hc⟩ := exists_digit_of_numeral? h
  have hne {d : Char} (hd : d.isDigit = false) : d ≠ c := by
    rintro rfl
    rw [hc] at hd
    cases hd
  rcases hcs with rfl | rfl
  · rw [word?, after?_of_ne (d := 'n') rfl (hne rfl), after?_of_ne (d := 't') rfl (hne rfl),
      after?_of_ne (d := 'f') rfl (hne rfl), after?_of_ne (d := 'N') rfl (hne rfl),
      after?_of_ne (d := 'I') rfl (hne rfl), after?_of_ne (d := '-') rfl (hne rfl)]
    rfl
  · rw [word?, after?_of_ne (d := 'n') rfl (by decide), after?_of_ne (d := 't') rfl (by decide),
      after?_of_ne (d := 'f') rfl (by decide), after?_of_ne (d := 'N') rfl (by decide),
      after?_of_ne (d := 'I') rfl (by decide)]
    have hI : 'I' ≠ c := hne rfl
    simp [after?, hI]

lemma readScalar_append (h : numeral? cs = some (n, [])) (hrest : Closes rest) :
    readScalar (cs ++ rest) = n.value.map (·, rest) := by
  have hn : numeral? (cs ++ rest) = some (n, rest) := by rw [numeral?_append hrest, h]; rfl
  rw [readScalar, word?_of_numeral? (by rw [hn]; rfl), hn]
  cases hv : n.value <;> simp [hv, orMalformed, bind, Except.bind, Except.map, pure, Except.pure]

lemma digitsValue_toDigits (m : ℕ) : digitsValue (Nat.toDigits 10 m) = m := by
  rw [digitsValue, ← Nat.ofDigitChars_eq_foldl, Nat.ofDigitChars_ten_toDigits]

lemma isDigit_of_mem_toDigits {m : ℕ} (h : c ∈ Nat.toDigits 10 m) : c.isDigit = true :=
  Nat.isDigit_of_mem_toDigits (by decide) (by decide) h

lemma toDigits_eq_zero_cons {m : ℕ} {ds : List Char} (h : Nat.toDigits 10 m = '0' :: ds) :
    ds = [] := by
  induction m using Nat.strongRecOn generalizing ds with
  | _ m ih =>
    rcases Nat.lt_or_ge m 10 with hm | hm
    · rw [Nat.toDigits_of_lt_base hm] at h
      exact (List.cons.inj h).2.symm
    · exfalso
      rw [Nat.toDigits_of_base_le (by decide) hm] at h
      cases hq : Nat.toDigits 10 (m / 10) with
      | nil => exact Nat.toDigits_ne_nil hq
      | cons d es =>
        rw [hq, List.cons_append] at h
        obtain ⟨rfl, -⟩ := List.cons.inj h
        obtain rfl := ih (m / 10) (by omega) hq
        have hvalue := digitsValue_toDigits (m / 10)
        rw [hq] at hvalue
        have hzero : digitsValue ['0'] = 0 := rfl
        omega

lemma whole?_toDigits (m : ℕ) : whole? (Nat.toDigits 10 m) = some (Nat.toDigits 10 m, []) := by
  have hspan : (Nat.toDigits 10 m).span Char.isDigit = (Nat.toDigits 10 m, []) := by
    have hdigits : ∀ c ∈ Nat.toDigits 10 m, c.isDigit = true := fun c => isDigit_of_mem_toDigits
    rw [List.span_eq_takeWhile_dropWhile, List.takeWhile_eq_self_iff.2 hdigits,
      List.dropWhile_eq_nil_iff.2 hdigits]
  by_cases hzero : ∃ tail, Nat.toDigits 10 m = '0' :: tail
  · obtain ⟨tail, htail⟩ := hzero
    rw [htail, toDigits_eq_zero_cons htail]
    rfl
  · rw [not_exists] at hzero
    rw [whole?.eq_2 _ hzero, hspan]
    simp [Nat.toDigits_ne_nil]

lemma unsigned?_toDigits (negative : Bool) (m : ℕ) :
    unsigned? negative (Nat.toDigits 10 m) =
      some (⟨negative, Nat.toDigits 10 m, [], none⟩, []) := by
  rw [unsigned?, whole?_toDigits]
  rfl

lemma numeral?_intText (m : Int) :
    numeral? (intText m) = some (⟨m < 0, Nat.toDigits 10 m.natAbs, [], none⟩, []) := by
  rw [intText]
  split
  · next hm => rw [numeral?, unsigned?_toDigits, decide_eq_true hm]
  · next hm =>
    rw [numeral?, unsigned?_toDigits, decide_eq_false hm]
    rintro cs hcs
    have hdigit := isDigit_of_mem_toDigits (m := m.natAbs) (c := '-') (by rw [hcs]; simp)
    cases hdigit

def FloatReadsBack (x : Float) : Prop :=
  ∃ n, numeral? (floatForm.text x).toList = some (n, []) ∧ n.number = .float x

def checkNumber : Number → Except ReadError Unit
  | .int n =>
    if maxDigits < (Nat.toDigits 10 n.natAbs).length then
      .error (.tooLong (Nat.toDigits 10 n.natAbs).length)
    else .ok ()
  | .float _ => .ok ()

def IsTooLong (e : ReadError) : Prop :=
  ∃ digits, maxDigits < digits ∧ e = .tooLong digits

lemma checkNumber_eq_ok {m : Number} :
    checkNumber m = .ok () ↔ ∀ n, m = .int n → n.natAbs < 10 ^ maxDigits := by
  cases m with
  | float x => simp [checkNumber]
  | int n =>
    rw [checkNumber]
    have hlength := Nat.length_toDigits_le_iff (b := 10) (n := n.natAbs) (k := maxDigits)
      (by decide) (by decide)
    rw [← not_lt] at hlength
    split
    · next h => simpa using Nat.le_of_not_lt fun hlt => hlength.2 hlt h
    · next h => simpa using hlength.1 h

lemma isTooLong_of_checkNumber {m : Number} {e : ReadError} (h : checkNumber m = .error e) :
    IsTooLong e := by
  cases m with
  | float x => cases h
  | int n =>
    rw [checkNumber] at h
    split at h
    · next hn => exact ⟨_, hn, (Except.error.inj h).symm⟩
    · cases h

lemma value_of_whole {negative : Bool} {m : ℕ} :
    (⟨negative, Nat.toDigits 10 m, [], none⟩ : Numeral).value =
      if maxDigits < (Nat.toDigits 10 m).length then
        .error (.tooLong (Nat.toDigits 10 m).length)
      else .ok (num (.int (if negative then -m else m))) := by
  simp [Numeral.value, Numeral.isWhole, Numeral.number, digitsValue_toDigits]

lemma exists_numeral {m : Number} (hm : ∀ x, m = .float x → FloatReadsBack x) :
    ∃ n : Numeral, numeral? (numberText m) = some (n, []) ∧
      n.value = (checkNumber m).map fun _ => num m := by
  cases m with
  | int m =>
    refine ⟨_, numeral?_intText m, ?_⟩
    rw [value_of_whole, checkNumber]
    split
    · rfl
    · have hvalue : (if decide (m < 0) = true then -(m.natAbs : Int) else m.natAbs) = m := by
        simp only [decide_eq_true_eq]
        split <;> omega
      rw [hvalue]
      rfl
  | float x =>
    obtain ⟨n, hn, hx⟩ := hm x rfl
    refine ⟨n, hn, ?_⟩
    have hwhole : n.isWhole = false := by
      rw [← Bool.not_eq_true]
      intro h
      simp [Numeral.number, h] at hx
    simp [Numeral.value, hwhole, hx, checkNumber, Except.map]

end DfaWorkbench.Json
