import DfaWorkbench.Name
import DfaWorkbench.Text.Cut

/-!
Settings: the spellings that rules are read with, the ones they are shown with, and the layout of
generated states. They are taken as they are entered; what is no text or number only matters where
it is used.
-/

namespace DfaWorkbench

/-- A set of spellings. A run of characters offers each of its characters as a spelling, and it
recognises each of its stretches. Of other values only objects offer any, the names of their
fields. -/
inductive Spellings
  | each (words : List Name)
  | run (text : String)
  | other (value : Json)

namespace Spellings

def isEmpty : Spellings → Bool
  | each words => words.isEmpty
  | run text => text = ""
  | other value => value.isEmpty

def words? : Spellings → Option (List Name)
  | each words => some words
  | run text => some (text.toList.map Name.ofChar)
  | other value => value.entries?.map fun vs => vs.map Name.of

def recognises? (cs : List Char) : Spellings → Option Bool
  | run text => some (Text.occursIn cs text.toList)
  | s => s.words?.map fun words => words.any (·.key = .text (String.ofList cs))

end Spellings

structure Settings where
  /-- Tried in order, so a body after the first arrow may hold the second one. -/
  arrows : Spellings := .each ["→", "->"]
  alternation : Name := "|"
  emptyMarkers : Spellings := .each ["ε", "^"]
  shownEmpty : Name := "ε"
  shownArrow : Name := "→"
  sinkId : Name := "qf"
  origin : Json := .arr [.num (.float 200), .num (.float 200)]
  spacing : Json := .num (.float 200)

inductive SettingsError
  | noArrow
  | noAlternation
  | noSinkId
  deriving DecidableEq

namespace SettingsError

def message : SettingsError → String
  | noArrow => "arrow_tokens must not be empty"
  | noAlternation => "alternation must not be empty"
  | noSinkId => "sink_state_id must not be empty"

end SettingsError

namespace Settings

def check (s : Settings) : Except SettingsError Settings :=
  if s.arrows.isEmpty then .error .noArrow
  else if s.alternation.isEmpty then .error .noAlternation
  else if s.sinkId.isEmpty then .error .noSinkId
  else .ok s

end Settings

end DfaWorkbench
