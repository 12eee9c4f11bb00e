import DfaWorkbench.Entry.Basic
import DfaWorkbench.State
import DfaWorkbench.Transition

/-!
States and transitions from entered fields, whole ones and changes to them.
-/

namespace DfaWorkbench

namespace State

structure Draft where
  id : Name
  label : Name := ""
  type : Json := .str StateType.normal.name
  position : Json := .arr State.origin

def draft (s : State) : Draft :=
  ⟨s.id, s.label, .str s.type.name, .arr s.position⟩

/-- The id is looked at before the type, and the type before the position. -/
def Draft.build (d : Draft) : Except EntryError State :=
  if d.id.isEmpty then .error (.defect .emptyStateId)
  else do
    let type ← (StateType.resolve d.type).mapError .defect
    (State.make d.id d.label type (← d.position.entries)).mapError .defect

def Draft.assign (d : Draft) (name : String) (v : Json) : Except EntryError Draft :=
  match name with
  | "id" => .ok { d with id := .of v }
  | "label" => .ok { d with label := .of v }
  | "type" => .ok { d with type := v }
  | "position" => .ok { d with position := v }
  | _ => .error (.unknownField name)

def Draft.assignAll (d : Draft) (fs : List (String × Json)) : Except EntryError Draft :=
  fs.foldlM (fun d f => d.assign f.1 f.2) d

def ofFields (fs : List (String × Json)) : Except EntryError State := do
  let d ← Draft.assignAll { id := "" } fs
  match Json.field? fs "id" with
  | some _ => d.build
  | none => .error (.required "id")

def revise (s : State) (changes : List (String × Json)) : Except EntryError State := do
  (← s.draft.assignAll changes).build

end State

namespace Transition

structure Draft where
  id : Name
  source : Name
  target : Name
  symbol : Json

def draft (t : Transition) : Draft :=
  ⟨t.id, t.source, t.target, .str t.symbolText⟩

def Draft.build (d : Draft) : Except Defect Transition :=
  Transition.make d.id d.source d.target d.symbol

def Draft.assign (d : Draft) (name : String) (v : Json) : Except EntryError Draft :=
  match name with
  | "id" => .ok { d with id := .of v }
  | "source" => .ok { d with source := .of v }
  | "target" => .ok { d with target := .of v }
  | "symbol" => .ok { d with symbol := v }
  | _ => .error (.unknownField name)

def revise (t : Transition) (changes : List (String × Json)) : Except EntryError Transition := do
  let d ← changes.foldlM (fun d f => d.assign f.1 f.2) t.draft
  d.build.mapError .defect

end Transition

end DfaWorkbench
