import DfaWorkbench.Entry.Parts
import DfaWorkbench.Automaton.Basic

/-!
Automata as plain data. All states are read before the transitions, and whether their ids are
distinct is looked at last.
-/

namespace DfaWorkbench

namespace State

def toJson (s : State) : Json :=
  .obj [
    ("id", s.id.value),
    ("label", s.label.value),
    ("type", .str s.type.name),
    ("x", s.x),
    ("y", s.y)]

/-- The id is looked up first, then the type is resolved, then the id has to be non-empty. -/
def ofJson (v : Json) : Except EntryError State := do
  let fs ← v.entryFields
  let id ← Json.need fs "id"
  let type ← (StateType.resolve
    (Json.fieldOr fs "type" (.str StateType.normal.name))).mapError .defect
  let label := Json.fieldOr fs "label" (.str "")
  let x := Json.fieldOr fs "x" (.num (.float 0))
  let y := Json.fieldOr fs "y" (.num (.float 0))
  (State.make (.of id) (.of label) type [x, y]).mapError .defect

end State

namespace Transition

def toJson (t : Transition) : Json :=
  .obj [
    ("id", t.id.value),
    ("from", t.source.value),
    ("to", t.target.value),
    ("symbol", .str t.symbolText)]

def ofJson (v : Json) : Except EntryError Transition := do
  let fs ← v.entryFields
  let id ← Json.need fs "id"
  let source ← Json.need fs "from"
  let target ← Json.need fs "to"
  let symbol ← Json.need fs "symbol"
  (Transition.make (.of id) (.of source) (.of target) symbol).mapError .defect

end Transition

namespace Automaton

def toFields (A : Automaton) : List (String × Json) :=
  [("states", .arr (A.states.map State.toJson)),
    ("transitions", .arr (A.transitions.map Transition.toJson)),
    ("alphabet", .arr (A.alphabet.map Name.value))]

def toJson (A : Automaton) : Json :=
  .obj A.toFields

def toJson? (A : Automaton) : Option Json :=
  if A.states.all State.isPlaced then some A.toJson else none

def ofFields (fs : List (String × Json)) : Except EntryError Automaton := do
  let states ← (← (Json.fieldOr fs "states" (.arr [])).entries).mapM State.ofJson
  let transitions ← (← (Json.fieldOr fs "transitions" (.arr [])).entries).mapM Transition.ofJson
  let alphabet ← (Json.fieldOr fs "alphabet" (.arr [])).names
  (make states transitions alphabet).mapError .defect

def ofJson (v : Json) : Except EntryError Automaton := do
  ofFields (← v.fields)

end Automaton

end DfaWorkbench
