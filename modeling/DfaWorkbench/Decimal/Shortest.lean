/-!
The shortest decimal that reads back as a given float. The reals that round to the float form an
interval; of the decimals in it with the fewest digits, the one nearest to the float is taken.
-/

namespace DfaWorkbench.Decimal

def twoTo (n : Nat) : Nat :=
  Nat.pow 2 n

def tenTo (n : Nat) : Nat :=
  Nat.pow 10 n

/-- The positive number `mantissa * 2 ^ exponent`; it is `closeBelow` if the next float below is
half as far away as the next one above. -/
structure Dyadic where
  mantissa : Nat
  exponent : Int
  closeBelow : Bool

def Dyadic.ofFloat (x : Float) : Dyadic :=
  let bits := x.toBits.toNat
  let fraction : Nat := bits % twoTo 52
  let biased : Nat := bits / twoTo 52 % twoTo 11
  if biased = 0 then ⟨fraction, -1074, false⟩
  else ⟨twoTo 52 + fraction, biased - 1075, fraction = 0 ∧ 1 < biased⟩

/-- The reals that round to `mid`, all as multiples of `1 / den`. The two ends belong to the
interval if it is `closed`. -/
structure Interval where
  low : Nat
  mid : Nat
  high : Nat
  den : Nat
  closed : Bool

def Dyadic.interval (x : Dyadic) : Interval where
  low := (4 * x.mantissa - if x.closeBelow then 1 else 2) * twoTo (x.exponent - 2).toNat
  mid := 4 * x.mantissa * twoTo (x.exponent - 2).toNat
  high := (4 * x.mantissa + 2) * twoTo (x.exponent - 2).toNat
  den := twoTo (2 - x.exponent).toNat
  closed := x.mantissa % 2 = 0

def Interval.holds (i : Interval) (g : Int) (d : Nat) : Bool :=
  let point := d * tenTo g.toNat * i.den
  let unit := tenTo (-g).toNat
  if i.closed then i.low * unit ≤ point && point ≤ i.high * unit
  else i.low * unit < point && point < i.high * unit

/-- The multiple of `10 ^ g` in the interval that is nearest to its middle, an even one on a tie. -/
def Interval.nearest? (i : Interval) (g : Int) : Option Nat :=
  let step := tenTo g.toNat * i.den
  let mid := i.mid * tenTo (-g).toNat
  let d := mid / step
  match i.holds g d, i.holds g (d + 1) with
  | true, true =>
    match compare (2 * mid) ((2 * d + 1) * step) with
    | .lt => some d
    | .gt => some (d + 1)
    | .eq => some (if d % 2 = 0 then d else d + 1)
  | true, false => some d
  | false, true => some (d + 1)
  | false, false => none

def Interval.magnitude (i : Interval) : Int :=
  if i.den ≤ i.mid then (Nat.toDigits 10 (i.mid / i.den)).length
  else 1 - (Nat.toDigits 10 ((i.den - 1) / i.mid)).length

/-- The number `0.d₁d₂… * 10 ^ point`, with no zero at the end of its digits. -/
structure Digits where
  digits : List Char
  point : Int

def Digits.ofScaled (d : Nat) (g : Int) : Digits :=
  let digits := Nat.toDigits 10 d
  ⟨(digits.reverse.dropWhile (· == '0')).reverse, digits.length + g⟩

/-- The shortest decimal of a positive number; seventeen digits always suffice. -/
def Dyadic.shortest (x : Dyadic) : Digits :=
  let i := x.interval
  let k := i.magnitude
  let found := (List.range 17).findSome? fun (n : Nat) =>
    (i.nearest? (k - n - 1)).map fun d => Digits.ofScaled d (k - n - 1)
  found.getD (.ofScaled (i.mid * tenTo (17 - k).toNat / (i.den * tenTo (k - 17).toNat)) (k - 17))

end DfaWorkbench.Decimal
