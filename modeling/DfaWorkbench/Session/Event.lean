import DfaWorkbench.Diagram.Dot
import DfaWorkbench.Session.Basic

namespace DfaWorkbench

inductive PageFailure
  | unwritable (e : Json.WriteError)
  | unfitName (e : NameError)
  | notText
  | tooLarge

inductive Event
  | download (text : String)
  | subheader (title : Name)
  | selection (text : String)
  | caption (text : String)
  | heading (text : String)
  | success (text : String)
  | error (text : String)
  | warning (text : String)
  | info (text : String)
  | code (text : String)
  | text (text : String)
  | table (t : Table)
  | disabled (button : Button)
  | diagram (d : Diagram)
  | failure (e : PageFailure)

/-- A part of a page, drawn as a whole or not at all. -/
abbrev Section :=
  Except PageFailure (List Event)

namespace Section

def ofName {α : Type} (x : Except NameError α) (events : α → List Event) : Section :=
  match x with
  | .ok a => .ok (events a)
  | .error e => .error (.unfitName e)

def ofTable (t : Except TableError Table) : Section :=
  match t with
  | .ok t => .ok [.table t]
  | .error (.unfitName e) => .error (.unfitName e)
  | .error .tooLarge => .error .tooLarge

def allDrawn (parts : List Section) : Bool :=
  parts.all Except.isOk

def events : List Section → List Event
  | [] => []
  | .ok es :: parts => es ++ events parts
  | .error e :: _ => [.failure e]

end Section

end DfaWorkbench
