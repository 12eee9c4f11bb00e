import DfaWorkbench.Name

/-!
Tables of cells. A column keeps the values that it is given, except that one float among whole
numbers makes all of them floats.
-/

namespace DfaWorkbench

inductive Cell
  | text (s : String)
  | number (n : Nat)
  | name (n : Name)

inductive TableError
  | unfitName (e : NameError)
  | tooLarge

namespace TableError

def message : TableError → String
  | unfitName e => e.message
  | tooLarge => "a number is beyond all floats"

end TableError

namespace Cell

def list (ns : List Name) : Except NameError Cell := do
  Name.requireTexts ns
  return text (", ".intercalate (ns.map Name.shown))

def value : Cell → Json
  | text s => .str s
  | number n => .ofNat n
  | name n => n.value

def toFloat (c : Cell) : Cell :=
  match c.value with
  | .num n =>
    match n.toFloat? with
    | some x => name (.of (.num (.float x)))
    | none => c
  | _ => c

end Cell

structure Column where
  hasFloat : Bool := false
  hasTruth : Bool := false
  hasNegative : Bool := false
  hasLong : Bool := false

namespace Column

/-- Looks through the values of a column, up to one that makes it a column of mixed values: anything
but a number or a truth value, a whole number of more than 64 bits, or the second one of a negative
number and one that has no bit left for a sign. -/
def scan (seen : Column) : List Json → Except TableError (Option Column)
  | [] => .ok (some seen)
  | .bool _ :: vs => { seen with hasTruth := true }.scan vs
  | .num (.float _) :: vs => { seen with hasFloat := true }.scan vs
  | .num (.int n) :: vs =>
    if (Number.int n).toFloat?.isNone then .error .tooLarge
    else
      let negative := seen.hasNegative || n < 0
      let long := seen.hasLong || 0x8000000000000000 ≤ n
      if n < -0x8000000000000000 || 0x10000000000000000 ≤ n || (negative && long) then .ok none
      else { seen with hasNegative := negative, hasLong := long }.scan vs
  | _ => .ok none

def holdsFloats (vs : List Json) : Except TableError Bool := do
  match ← scan {} vs with
  | some seen => return seen.hasFloat && !seen.hasTruth
  | none => return false

end Column

structure Table where
  columns : List Name
  rows : List (List Cell)

def Table.make (columns : List Name) (rows : List (List Cell)) : Except TableError Table := do
  let floats ← (List.range columns.length).mapM fun i =>
    Column.holdsFloats ((rows.filterMap (·[i]?)).map Cell.value)
  let settle (row : List Cell) := (row.zip floats).map fun (c, float) =>
    if float then c.toFloat else c
  return { columns, rows := rows.map settle }

end DfaWorkbench
