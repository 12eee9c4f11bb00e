import DfaWorkbench.Settings

/-!
The places of generated states: in a row, at equal distances from the origin of the settings. Texts
can be distances, too, which are put one after another.
-/

namespace DfaWorkbench

inductive LayoutError
  | coordinates (count : Nat)
  | notSummable
  | tooLarge
  deriving DecidableEq

def LayoutError.message : LayoutError → String
  | coordinates count =>
    if count < 2 then
      "not enough values to unpack (expected 2, got " ++ count.repr ++ ")"
    else "too many values to unpack (expected 2)"
  | notSummable => "a layout needs numbers"
  | tooLarge => "a number is beyond all floats"

structure Layout where
  x : Json
  y : Json
  spacing : Json

namespace Layout

def ofSettings (settings : Settings) : Except LayoutError Layout :=
  match settings.origin.entries? with
  | some [x, y] => .ok ⟨x, y, settings.spacing⟩
  | some xs => .error (.coordinates xs.length)
  | none => .error .notSummable

def number (v : Json) : Except LayoutError Number :=
  match v.asNumber? with
  | some n => .ok n
  | none => .error .notSummable

def sized (n : Option Number) : Except LayoutError Number :=
  match n with
  | some n => .ok n
  | none => .error .tooLarge

def slot (l : Layout) (index : Nat) : Except LayoutError Json :=
  match l.x, l.spacing with
  | .str start, .str distance =>
    .ok (.str (start ++ String.join (List.replicate index distance)))
  | _, _ => do
    let x ← number l.x
    let spacing ← number l.spacing
    return .num (← sized (x.add? (spacing.times index)))

def slotAfter (l : Layout) (index : Nat) : Except LayoutError Json := do
  let x ← number (← l.slot index)
  return .num (← sized (x.add? (← sized (← number l.spacing).half?)))

end Layout

end DfaWorkbench
