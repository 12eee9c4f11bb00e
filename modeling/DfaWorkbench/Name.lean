import DfaWorkbench.Json.Display

/-!
Names of states, transitions, symbols and records. A name is a text as a rule, but any value can
stand for one. Names are looked up by their keys, so that the numbers 1 and 1.0 are one name.
-/

namespace DfaWorkbench

inductive Key
  | text (s : String)
  | number (n : Number)
  | null
  /-- A fixed list of atoms, as the text of its canonical items. -/
  | group (text : String)
  /-- What cannot be looked up, as the text of its canonical value. -/
  | composite (text : String)
  deriving DecidableEq

def Key.shown : Key → String
  | text s => s
  | number n => (Json.num n).display
  | null => Json.null.display
  | group s | composite s => s

def Key.precedes : Key → Key → Bool
  | text s, text t => s ≤ t
  | number m, number n => m.precedes n
  | _, _ => false

def Key.isNumber : Key → Bool
  | number _ => true
  | _ => false

def Key.isAtom : Key → Bool
  | composite _ => false
  | _ => true

inductive Name
  | of (value : Json)
  /-- A fixed list of values, as settings hold it. It can be looked up, as other lists cannot. -/
  | group (items : List Json)

inductive NameError
  | notAtom
  | notText
  deriving DecidableEq

def NameError.message : NameError → String
  | notAtom => "a list or an object cannot be looked up"
  | notText => "only texts can be joined"

namespace Name

def ofSetting : Json → Name
  | .arr xs => group xs
  | v => of v

def text (s : String) : Name :=
  of (.str s)

instance : Coe String Name := ⟨text⟩

def ofChar (c : Char) : Name :=
  text (String.singleton c)

def value : Name → Json
  | of v => v
  | group xs => .arr xs

def isEmpty (n : Name) : Bool :=
  n.value.isEmpty

def text? (n : Name) : Option String :=
  match n.value with
  | .str s => some s
  | _ => none

def isText (n : Name) : Bool :=
  n.text?.isSome

def isAtom : Name → Bool
  | of v => v.isAtom
  | group xs => xs.all Json.isAtom

def shown : Name → String
  | of v => v.plainText
  | group xs => Json.displayGroup xs

def keyOf : Json → Key
  | .str s => .text s
  | .num n => .number n
  | .null => .null
  | v => .composite v.display

def key : Name → Key
  | of v => keyOf v.canonical
  | group xs =>
    let text := Json.displayGroup (Json.canonicalItems xs)
    if xs.all Json.isAtom then .group text else .composite text

def atomKey (n : Name) : Except NameError Key :=
  if n.isAtom then .ok n.key else .error .notAtom

def requireTexts (ns : List Name) : Except NameError Unit :=
  if ns.all isText then .ok () else .error .notText

def requireAtoms (ns : List Name) : Except NameError Unit :=
  if ns.all isAtom then .ok () else .error .notAtom

def sorted (ns : List Name) : Except NameError (List Name) :=
  if ns.length ≤ 1 || ns.all isText || ns.all (·.key.isNumber) then
    .ok (ns.mergeSort fun m n => m.key.precedes n.key)
  else .error .notText

theorem isEmpty_eq_false {n : Name} (h : ¬ n.isEmpty) : n.isEmpty = false :=
  Bool.eq_false_iff.2 h

theorem isEmpty_text {s : String} (h : s ≠ "") : (text s).isEmpty = false := by
  simp [isEmpty, value, text, Json.isEmpty, h]

@[simp] theorem key_text (s : String) : (text s).key = .text s := rfl

@[simp] theorem text?_text (s : String) : (text s).text? = some s := rfl

@[simp] theorem shown_text (s : String) : (text s).shown = s := rfl

@[simp] theorem isAtom_text (s : String) : (text s).isAtom = true := rfl

theorem isAtom_key (n : Name) : n.key.isAtom = n.isAtom := by
  cases n with
  | of v => cases v <;> simp [key, keyOf, Json.canonical, Key.isAtom, isAtom, Json.isAtom]
  | group xs =>
    by_cases h : xs.all Json.isAtom
    · simp only [key, isAtom, h, if_true, Key.isAtom]
    · simp only [key, isAtom, h, Bool.false_eq_true, if_false, Key.isAtom]

end Name

end DfaWorkbench
