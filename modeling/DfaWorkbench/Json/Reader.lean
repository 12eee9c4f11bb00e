import DfaWorkbench.Json.Basic

/-!
Reading JSON text. Beyond the standard the words `NaN`, `Infinity` and `-Infinity` are numbers.
There are limits to the digits of a whole number and to nesting.
-/

namespace DfaWorkbench.Json

inductive ReadError
  | malformed
  | tooLong (digits : Nat)
  | tooDeep
  deriving DecidableEq

def ReadError.message : ReadError → String
  | malformed => "the text is not JSON"
  | tooLong digits =>
    "Exceeds the limit (" ++ maxDigits.repr ++ " digits) for integer string conversion: " ++
      "value has " ++ digits.repr ++
      " digits; use sys.set_int_max_str_digits() to increase the limit"
  | tooDeep => "values are nested too deep"

def isSpace (c : Char) : Bool :=
  c == ' ' || c == '\t' || c == '\n' || c == '\r'

def skipSpace (cs : List Char) : List Char :=
  cs.dropWhile isSpace

def after? (word : String) (cs : List Char) : Option (List Char) :=
  if word.toList.isPrefixOf cs then some (cs.drop word.length) else none

def digitsValue (ds : List Char) : Nat :=
  ds.foldl (fun n c => 10 * n + (c.toNat - '0'.toNat)) 0

/-- `m * 10 ^ e` as a float. Powers beyond the range of floats are not computed. -/
def scaled (m : Nat) (e : Int) : Float :=
  let width : Int := (Nat.toDigits 10 m).length
  if m = 0 ∨ e + width < -400 then 0
  else if 400 < e + width then Float.ofScientific 1 false 400
  else Float.ofScientific m (e < 0) e.natAbs

def fraction : List Char → List Char × List Char
  | '.' :: cs =>
    if (cs.takeWhile Char.isDigit).isEmpty then ([], '.' :: cs) else cs.span Char.isDigit
  | cs => ([], cs)

def signed : List Char → Bool × List Char
  | '-' :: cs => (true, cs)
  | '+' :: cs => (false, cs)
  | cs => (false, cs)

def power? : List Char → Option (Int × List Char)
  | c :: cs =>
    if c == 'e' || c == 'E' then
      let (negative, cs) := signed cs
      let (ds, rest) := cs.span Char.isDigit
      if ds.isEmpty then none
      else some (if negative then -(digitsValue ds : Int) else digitsValue ds, rest)
    else none
  | [] => none

def whole? : List Char → Option (List Char × List Char)
  | '0' :: cs => some (['0'], cs)
  | cs =>
    let (ds, rest) := cs.span Char.isDigit
    if ds.isEmpty then none else some (ds, rest)

structure Numeral where
  negative : Bool
  whole : List Char
  fraction : List Char
  power : Option Int

namespace Numeral

def isWhole (n : Numeral) : Bool :=
  n.fraction.isEmpty && n.power.isNone

def number (n : Numeral) : Number :=
  if n.isWhole then
    let m : Int := digitsValue n.whole
    .int (if n.negative then -m else m)
  else
    let x := scaled (digitsValue (n.whole ++ n.fraction)) (n.power.getD 0 - n.fraction.length)
    .float (if n.negative then -x else x)

def value (n : Numeral) : Except ReadError Json :=
  if n.isWhole && maxDigits < n.whole.length then .error (.tooLong n.whole.length)
  else .ok (num n.number)

end Numeral

def unsigned? (negative : Bool) (cs : List Char) : Option (Numeral × List Char) := do
  let (whole, rest) ← whole? cs
  let (fraction, rest) := fraction rest
  match power? rest with
  | some (power, rest) => return (⟨negative, whole, fraction, some power⟩, rest)
  | none => return (⟨negative, whole, fraction, none⟩, rest)

def numeral? : List Char → Option (Numeral × List Char)
  | '-' :: cs => unsigned? true cs
  | cs => unsigned? false cs

def hexValue? (c : Char) : Option Nat :=
  if c.isDigit then some (c.toNat - '0'.toNat)
  else if 'a' ≤ c ∧ c ≤ 'f' then some (c.toNat - 'a'.toNat + 10)
  else if 'A' ≤ c ∧ c ≤ 'F' then some (c.toNat - 'A'.toNat + 10)
  else none

def hexUnit? (a b c d : Char) : Option Nat := do
  return (((← hexValue? a) * 16 + (← hexValue? b)) * 16 + (← hexValue? c)) * 16 + (← hexValue? d)

def unescape? : Char → Option Char
  | '"' => some '"'
  | '\\' => some '\\'
  | '/' => some '/'
  | 'b' => some '\x08'
  | 'f' => some '\x0c'
  | 'n' => some '\n'
  | 'r' => some '\r'
  | 't' => some '\t'
  | _ => none

/-- The code units of a string up to its closing quote; only an escape can give half of a pair. -/
def units? : List Char → Option (List Nat × List Char)
  | [] => none
  | '"' :: cs => some ([], cs)
  | '\\' :: 'u' :: a :: b :: c :: d :: cs => do
    let u ← hexUnit? a b c d
    let (us, rest) ← units? cs
    return (u :: us, rest)
  | '\\' :: c :: cs => do
    let c ← unescape? c
    let (us, rest) ← units? cs
    return (c.toNat :: us, rest)
  | c :: cs =>
    if c.toNat < 0x20 then none
    else (units? cs).map fun (us, rest) => (c.toNat :: us, rest)

/-- The character of a code unit, or the replacement character for half of a pair. -/
def unitChar (u : Nat) : Char :=
  if 0xD800 ≤ u ∧ u < 0xE000 then '\uFFFD' else Char.ofNat u

def joinPairs : List Nat → List Char
  | [] => []
  | [u] => [unitChar u]
  | u :: v :: us =>
    if 0xD800 ≤ u ∧ u < 0xDC00 ∧ 0xDC00 ≤ v ∧ v < 0xE000 then
      Char.ofNat (0x10000 + (u - 0xD800) * 0x400 + (v - 0xDC00)) :: joinPairs us
    else unitChar u :: joinPairs (v :: us)

def string? (cs : List Char) : Option (String × List Char) := do
  let (us, rest) ← units? cs
  return (String.ofList (joinPairs us), rest)

def orMalformed {α : Type} : Option α → Except ReadError α
  | some a => .ok a
  | none => .error .malformed

def word? (cs : List Char) : Option (Json × List Char) :=
  (after? "null" cs).map (null, ·) <|>
  (after? "true" cs).map (bool true, ·) <|>
  (after? "false" cs).map (bool false, ·) <|>
  (after? "NaN" cs).map (num (.float (0 / 0)), ·) <|>
  (after? "Infinity" cs).map (num (.float (1 / 0)), ·) <|>
  (after? "-Infinity" cs).map (num (.float (-1 / 0)), ·)

def readScalar (cs : List Char) : Except ReadError (Json × List Char) := do
  match word? cs with
  | some v => return v
  | none =>
    let (n, rest) ← orMalformed (numeral? cs)
    return (← n.value, rest)

mutual

/-- The value at the start of a text, for texts that a nesting of `fuel` calls can read. It may
hold other values `depth` levels deep. -/
def readValue : Nat → Nat → List Char → Except ReadError (Json × List Char)
  | 0, _, _ => .error .malformed
  | _, _, [] => .error .malformed
  | fuel + 1, depth, c :: cs =>
    match c, depth with
    | '"', _ => do
      let (s, rest) ← orMalformed (string? cs)
      return (str s, rest)
    | '[', 0 | '\x7b', 0 => .error .tooDeep
    | '[', depth + 1 =>
      match skipSpace cs with
      | ']' :: rest => .ok (arr [], rest)
      | cs => do
        let (xs, rest) ← readItems fuel depth cs
        return (arr xs, rest)
    | '\x7b', depth + 1 =>
      match skipSpace cs with
      | '\x7d' :: rest => .ok (obj [], rest)
      | cs => do
        let (fs, rest) ← readMembers fuel depth cs
        return (obj (merged fs), rest)
    | c, _ => readScalar (c :: cs)

def readItems : Nat → Nat → List Char → Except ReadError (List Json × List Char)
  | 0, _, _ => .error .malformed
  | fuel + 1, depth, cs => do
    let (x, rest) ← readValue fuel depth cs
    match skipSpace rest with
    | ']' :: rest => return ([x], rest)
    | ',' :: rest =>
      let (xs, rest) ← readItems fuel depth (skipSpace rest)
      return (x :: xs, rest)
    | _ => throw .malformed

def readMembers : Nat → Nat → List Char → Except ReadError (List (String × Json) × List Char)
  | 0, _, _ => .error .malformed
  | fuel + 1, depth, cs => do
    match cs with
    | '"' :: cs =>
      let (name, rest) ← orMalformed (string? cs)
      match skipSpace rest with
      | ':' :: rest =>
        let (x, rest) ← readValue fuel depth (skipSpace rest)
        match skipSpace rest with
        | '\x7d' :: rest => return ([(name, x)], rest)
        | ',' :: rest =>
          let (fs, rest) ← readMembers fuel depth (skipSpace rest)
          return ((name, x) :: fs, rest)
        | _ => throw .malformed
      | _ => throw .malformed
    | _ => throw .malformed

end

/-- The value that a whole text denotes. Each character takes at most two nested calls. -/
def parse (text : String) : Except ReadError Json := do
  let (v, rest) ← readValue (2 * text.length + 2) maxDepth (skipSpace text.toList)
  if (skipSpace rest).isEmpty then return v else throw .malformed

end DfaWorkbench.Json
