import DfaWorkbench.Decimal.Shortest

/-!
The written form of a float: its shortest digits, placed around a point or before an exponent.
-/

namespace DfaWorkbench.Decimal

/-- How floats are written: `least` and `bound` enclose the powers of ten that are written around a
point, and `nan` and `infinity` stand for what has no digits. -/
structure Form where
  least : Int := -4
  bound : Int := 16
  nan : String
  infinity : String

def zeros (n : Int) : List Char :=
  List.replicate n.toNat '0'

def Digits.positional (d : Digits) : List Char :=
  if d.point ≤ 0 then '0' :: '.' :: zeros (-d.point) ++ d.digits
  else if d.point < d.digits.length then
    d.digits.take d.point.toNat ++ '.' :: d.digits.drop d.point.toNat
  else d.digits ++ zeros (d.point - d.digits.length) ++ ['.', '0']

def exponentText (e : Int) : List Char :=
  let digits := Nat.toDigits 10 e.natAbs
  'e' :: (if e < 0 then '-' else '+') :: (if digits.length < 2 then '0' :: digits else digits)

def Digits.scientific (d : Digits) : List Char :=
  match d.digits with
  | [] => exponentText (d.point - 1)
  | [c] => c :: exponentText (d.point - 1)
  | c :: cs => c :: '.' :: cs ++ exponentText (d.point - 1)

def Form.magnitude (form : Form) (x : Float) : List Char :=
  if x == 0 then ['0', '.', '0']
  else
    let d := (Dyadic.ofFloat x).shortest
    if form.least < d.point ∧ d.point ≤ form.bound then d.positional else d.scientific

def Form.text (form : Form) (x : Float) : String :=
  if x.isNaN then form.nan
  else
    let sign := if x.toBits >>> 63 = 1 then "-" else ""
    if x.isInf then sign ++ form.infinity
    else sign ++ String.ofList (form.magnitude x)

end DfaWorkbench.Decimal
