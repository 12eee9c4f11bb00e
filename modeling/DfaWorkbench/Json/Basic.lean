import DfaWorkbench.Decimal.Shortest
import DfaWorkbench.Sequence.Assignment

/-!
JSON values. Whole numbers and floats are different numbers, and the fields of an object keep
their order.
-/

namespace DfaWorkbench

inductive Number
  | int (n : Int)
  | float (x : Float)
  deriving DecidableEq, Inhabited

inductive Json
  | null
  | bool (b : Bool)
  | num (n : Number)
  | str (s : String)
  | arr (items : List Json)
  | obj (fields : List (String × Json))
  deriving Inhabited

namespace Number

def wholeOf? (x : Float) : Option Int :=
  if x.isNaN || x.isInf then none
  else
    let d := Decimal.Dyadic.ofFloat x
    let m := d.mantissa * Decimal.twoTo d.exponent.toNat
    let unit := Decimal.twoTo (-d.exponent).toNat
    if m % unit = 0 then some (if x < 0 then -((m / unit : Nat) : Int) else (m / unit : Nat))
    else none

def canonical : Number → Number
  | int n => int n
  | float x =>
    match wholeOf? x with
    | some n => int n
    | none => float x

def agrees (m n : Number) : Bool :=
  m.canonical = n.canonical

/-- Order by value, for numbers in canonical form. A float that is not whole is either less than
`2 ^ 53` away from zero or infinite. -/
def precedes : Number → Number → Bool
  | int m, int n => m ≤ n
  | int m, float y => if y.isInf then 0 < y else Float.ofInt m ≤ y
  | float x, int n => if x.isInf then x < 0 else x ≤ Float.ofInt n
  | float x, float y => x ≤ y

/-- The number `2 ^ 1024 - 2 ^ 970`: from here on, whole numbers of either sign are at least as near
to `2 ^ 1024` as to any float. -/
def floatLimit : Nat :=
  (Decimal.twoTo 54 - 1) * Nat.pow (Decimal.twoTo 97) 10

def toFloat? : Number → Option Float
  | int n => if n.natAbs < floatLimit then some (Float.ofInt n) else none
  | float x => some x

def add? : Number → Number → Option Number
  | int m, int n => some (int (m + n))
  | m, n => do return float ((← m.toFloat?) + (← n.toFloat?))

/-- A multiple by an index. No list has so many entries that an index is beyond all floats. -/
def times (index : Nat) : Number → Number
  | int n => int (index * n)
  | float x => float (Float.ofInt index * x)

/-- Half of a number is a float, also where the number is even. A whole number beyond all floats
may have a half among them; of its last two bits it only counts whether there are any. -/
def half? : Number → Option Number
  | int n =>
    match (int n).toFloat? with
    | some x => some (float (x / 2))
    | none => (int (n / 4 * 2 + if n % 4 = 0 then 0 else 1)).toFloat?.map float
  | float x => some (float (x / 2))

end Number

namespace Json

/-- The most digits that a whole number may have in a text. -/
def maxDigits : Nat :=
  4300

/-- How deep values may be nested in a text. Calls may be nested a thousand deep and each level of a
value takes one. Where a program reads or writes a record, 15 others lead to its first value; a
caller that is nested deeper itself leaves fewer levels. -/
def maxDepth : Nat :=
  1000 - 15

def ofNat (n : Nat) : Json :=
  num (.int n)

def isEmpty : Json → Bool
  | null | bool false | str "" | arr [] | obj [] => true
  | num (.int n) => n == 0
  | num (.float x) => x == 0
  | _ => false

def isAtom : Json → Bool
  | arr _ | obj _ => false
  | _ => true

def entries? : Json → Option (List Json)
  | arr xs => some xs
  | str s => some (s.toList.map fun c => str (String.singleton c))
  | obj fs => some (fs.map fun f => str f.1)
  | _ => none

def asNumber? : Json → Option Number
  | num n => some n
  | bool b => some (.int (if b then 1 else 0))
  | _ => none

def field? (fields : List (String × Json)) (name : String) : Option Json :=
  fields.lookup name

def merged (fields : List (String × Json)) : List (String × Json) :=
  Sequence.merged id fields

mutual

def agrees : Json → Json → Bool
  | null, null => true
  | bool a, bool b => a == b
  | num m, num n => m.agrees n
  | str s, str t => s == t
  | arr xs, arr ys => itemsAgree xs ys
  | obj fs, obj gs => fieldsAgree fs gs
  | _, _ => false

def itemsAgree : List Json → List Json → Bool
  | [], [] => true
  | x :: xs, y :: ys => agrees x y && itemsAgree xs ys
  | _, _ => false

def fieldsAgree : List (String × Json) → List (String × Json) → Bool
  | [], [] => true
  | (k, x) :: fs, (l, y) :: gs => k == l && agrees x y && fieldsAgree fs gs
  | _, _ => false

end

mutual

/-- Values that agree have one canonical value: a truth value is a number, and the fields of an
object stand in the order of their names. -/
def canonical : Json → Json
  | null => null
  | bool b => num (.int (if b then 1 else 0))
  | num n => num n.canonical
  | str s => str s
  | arr xs => arr (canonicalItems xs)
  | obj fs => obj ((canonicalFields fs).mergeSort fun f g => f.1 ≤ g.1)

def canonicalItems : List Json → List Json
  | [] => []
  | x :: xs => canonical x :: canonicalItems xs

def canonicalFields : List (String × Json) → List (String × Json)
  | [] => []
  | (k, x) :: fs => (k, canonical x) :: canonicalFields fs

end

end Json

end DfaWorkbench
