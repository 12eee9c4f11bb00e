import DfaWorkbench.Json.Basic
import DfaWorkbench.Decimal.Form

/-!
Writing JSON text, on one line or with an item a line. The text of a value is written unless it goes
beyond the limits for digits and nesting.
-/

namespace DfaWorkbench.Json

/-- How a value is laid out: with an `indent` every item has a line of its own, which begins with
that text once for each level. Text is `ascii` if all other characters are escaped. -/
structure Layout where
  indent : Option (List Char) := none
  ascii : Bool := false

def Layout.ofWidth (width : Option Nat) : Layout where
  indent := width.map fun n => List.replicate n ' '

def floatForm : Decimal.Form where
  nan := "NaN"
  infinity := "Infinity"

def Layout.newline (l : Layout) (depth : Nat) : List Char :=
  match l.indent with
  | none => []
  | some text => '\n' :: (List.replicate depth text).flatten

def Layout.separator (l : Layout) (depth : Nat) : List Char :=
  match l.indent with
  | none => [',', ' ']
  | some _ => ',' :: l.newline depth

def unitEscape (u : Nat) : List Char :=
  let hex (n : Nat) := Nat.digitChar (n % 16)
  ['\\', 'u', hex (u / 4096), hex (u / 256), hex (u / 16), hex u]

def escapeChar (l : Layout) (c : Char) : List Char :=
  let n := c.toNat
  if c = '"' ∨ c = '\\' then ['\\', c]
  else if c = '\n' then ['\\', 'n']
  else if c = '\r' then ['\\', 'r']
  else if c = '\t' then ['\\', 't']
  else if c = '\x08' then ['\\', 'b']
  else if c = '\x0c' then ['\\', 'f']
  else if n < 0x20 then unitEscape n
  else if l.ascii = false ∨ n < 0x7F then [c]
  else if n < 0x10000 then unitEscape n
  else
    unitEscape (0xD800 + (n - 0x10000) / 0x400) ++ unitEscape (0xDC00 + (n - 0x10000) % 0x400)

def stringText (l : Layout) (s : String) : List Char :=
  '"' :: s.toList.flatMap (escapeChar l) ++ ['"']

def intText (n : Int) : List Char :=
  if n < 0 then '-' :: Nat.toDigits 10 n.natAbs else Nat.toDigits 10 n.natAbs

def numberText : Number → List Char
  | .int n => intText n
  | .float x => (floatForm.text x).toList

mutual

def write (l : Layout) (depth : Nat) : Json → List Char
  | null => "null".toList
  | bool b => (if b then "true" else "false").toList
  | num n => numberText n
  | str s => stringText l s
  | arr [] => ['[', ']']
  | arr (x :: xs) =>
    '[' :: l.newline (depth + 1) ++ write l (depth + 1) x ++ writeItems l (depth + 1) xs ++
      l.newline depth ++ [']']
  | obj [] => ['\x7b', '\x7d']
  | obj ((k, x) :: fs) =>
    '\x7b' :: l.newline (depth + 1) ++ stringText l k ++ ':' :: ' ' :: write l (depth + 1) x ++
      writeFields l (depth + 1) fs ++ l.newline depth ++ ['\x7d']

def writeItems (l : Layout) (depth : Nat) : List Json → List Char
  | [] => []
  | x :: xs => l.separator depth ++ write l depth x ++ writeItems l depth xs

def writeFields (l : Layout) (depth : Nat) : List (String × Json) → List Char
  | [] => []
  | (k, x) :: fs =>
    l.separator depth ++ stringText l k ++ ':' :: ' ' :: write l depth x ++ writeFields l depth fs

end

def render (l : Layout) (v : Json) : String :=
  String.ofList (write l 0 v)

inductive WriteError
  | tooLong
  | tooDeep
  /-- A field is named by a fixed list. -/
  | notKey
  deriving DecidableEq

def WriteError.message : WriteError → String
  | tooLong =>
    "Exceeds the limit (" ++ maxDigits.repr ++ " digits) for integer string conversion; " ++
      "use sys.set_int_max_str_digits() to increase the limit"
  | tooDeep => "values are nested too deep"
  | notKey => "keys must be str, int, float, bool or None, not tuple"

/-- How deep the items of an array or object may go on where `room` levels are left. With an indent
an empty one takes no level. -/
def Layout.enter (l : Layout) (room : Nat) (isEmpty : Bool) : Except WriteError Nat :=
  match room with
  | room + 1 => .ok room
  | 0 => if isEmpty && l.indent.isSome then .ok 0 else .error .tooDeep

mutual

/-- Whether a value can be written where `room` levels are left. With an indent a float takes one
too. -/
def requireWritable (l : Layout) (room : Nat) : Json → Except WriteError Unit
  | num (.int n) =>
    if maxDigits < (Nat.toDigits 10 n.natAbs).length then .error .tooLong else .ok ()
  | num (.float _) => if room = 0 && l.indent.isSome then .error .tooDeep else .ok ()
  | arr xs => do requireItems l (← l.enter room xs.isEmpty) xs
  | obj fs => do requireFields l (← l.enter room fs.isEmpty) fs
  | _ => .ok ()

def requireItems (l : Layout) (room : Nat) : List Json → Except WriteError Unit
  | [] => .ok ()
  | x :: xs => do
    requireWritable l room x
    requireItems l room xs

def requireFields (l : Layout) (room : Nat) : List (String × Json) → Except WriteError Unit
  | [] => .ok ()
  | (_, x) :: fs => do
    requireWritable l room x
    requireFields l room fs

end

end DfaWorkbench.Json
