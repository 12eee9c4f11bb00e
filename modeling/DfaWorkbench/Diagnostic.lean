import DfaWorkbench.State
import DfaWorkbench.Transition

/-!
Diagnostics of an automaton: what was found, and how a report words it.
-/

namespace DfaWorkbench

inductive Severity
  | error
  | warning
  deriving DecidableEq

def Severity.name : Severity → String
  | error => "error"
  | warning => "warning"

def Severity.heading : Severity → String
  | error => "ERROR"
  | warning => "WARNING"

inductive DiagnosticKind
  | noStates
  | missingStart
  | multipleStart
  | noAccept
  | missingTransition
  | nonDeterministic
  | dangling
  | unknownSymbol
  | unreachable
  deriving DecidableEq

namespace DiagnosticKind

def name : DiagnosticKind → String
  | noStates => "no-states"
  | missingStart => "missing-start"
  | multipleStart => "multiple-start"
  | noAccept => "no-accept"
  | missingTransition => "missing-transition"
  | nonDeterministic => "non-deterministic"
  | dangling => "invalid-transitions"
  | unknownSymbol => "invalid-symbols"
  | unreachable => "unreachable-state"

def severity : DiagnosticKind → Severity
  | noStates | missingStart | multipleStart | nonDeterministic | dangling => .error
  | noAccept | missingTransition | unknownSymbol | unreachable => .warning

end DiagnosticKind

inductive Diagnostic
  | noStates
  | missingStart
  | multipleStart (starts : List State)
  | noAccept
  | missingTransition (state : State) (symbol : Name)
  | nonDeterministic (state : State) (symbol : Name) (choices : List Transition)
      (labels : List Name)
  | dangling (transitions : List Transition)
  | unknownSymbol (symbol : String) (transitions : List Transition)
  | unreachable (state start : State)

namespace Diagnostic

def kind : Diagnostic → DiagnosticKind
  | noStates => .noStates
  | missingStart => .missingStart
  | multipleStart _ => .multipleStart
  | noAccept => .noAccept
  | missingTransition _ _ => .missingTransition
  | nonDeterministic _ _ _ _ => .nonDeterministic
  | dangling _ => .dangling
  | unknownSymbol _ _ => .unknownSymbol
  | unreachable _ _ => .unreachable

def severity (d : Diagnostic) : Severity :=
  d.kind.severity

def isError (d : Diagnostic) : Bool :=
  d.severity = .error

def isWarning (d : Diagnostic) : Bool :=
  d.severity = .warning

def message : Diagnostic → String
  | noStates => "DFA must have at least one state"
  | missingStart => "No start state defined"
  | multipleStart _ => "Multiple start states detected"
  | noAccept => "No accept states defined"
  | missingTransition q a =>
    "State " ++ q.label.shown ++ " missing transition for symbol '" ++ a.shown ++ "'"
  | nonDeterministic q a _ _ =>
    "State " ++ q.label.shown ++ " has multiple transitions for '" ++ a.shown ++ "'"
  | dangling _ => "Transitions referencing deleted/missing states"
  | unknownSymbol a _ => "Transitions use symbol '" ++ a ++ "' which is not in the alphabet"
  | unreachable q _ => "State " ++ q.label.shown ++ " is unreachable"

def details : Diagnostic → String
  | noStates => "An automaton without states cannot be classified further."
  | missingStart => "DFA must have exactly one start state."
  | multipleStart starts =>
    "Found " ++ starts.length.repr ++ ": " ++ ", ".intercalate (starts.map (·.label.shown)) ++
      ". DFA must have exactly one start state."
  | noAccept => "Without an accept state the DFA rejects every string."
  | missingTransition _ _ =>
    "The DFA is partial: input reaching this pair gets stuck and is rejected."
  | nonDeterministic _ _ _ labels =>
    "Goes to: " ++ ", ".intercalate (labels.map Name.shown) ++
      ". A DFA needs exactly one transition per symbol from each state."
  | dangling ts =>
    "Transitions " ++ ", ".intercalate (ts.map (·.id.shown)) ++
      " have a missing 'from' or 'to' state."
  | unknownSymbol a ts =>
    "Symbol '" ++ a ++ "' is used by " ++ ts.length.repr ++ " transition(s) but not defined."
  | unreachable q start =>
    q.label.shown ++ " cannot be reached from the start state " ++ start.label.shown ++ "."

def suggestion : Diagnostic → String
  | noStates => "Add a start state."
  | missingStart => "Mark one state as start (or start/accept)."
  | multipleStart _ => "Change all but one start state to normal/accept."
  | noAccept => "Mark at least one state as accept if the language should be non-empty."
  | missingTransition q a => "Add a transition on '" ++ a.shown ++ "' from " ++ q.label.shown ++ "."
  | nonDeterministic q a _ _ =>
    "Keep only one transition for '" ++ a.shown ++ "' from " ++ q.label.shown ++
      " (or merge target states)."
  | dangling _ => "Delete or fix those transitions."
  | unknownSymbol _ _ => "Add it to the alphabet or change the transitions."
  | unreachable _ _ => "Add transitions to reach this state, or remove it if unused."

def affected : Diagnostic → List Name
  | noStates | missingStart | noAccept => []
  | multipleStart starts => starts.map State.id
  | missingTransition q _ | unreachable q _ => [q.id]
  | nonDeterministic _ _ ts _ | dangling ts | unknownSymbol _ ts => ts.map Transition.id

def listed : Diagnostic → List Name
  | multipleStart starts => starts.map State.label
  | nonDeterministic _ _ _ labels => labels
  | dangling ts => ts.map Transition.id
  | _ => []

def block (n : Nat) (d : Diagnostic) : String :=
  n.repr ++ ". [" ++ d.severity.heading ++ "] " ++ d.message ++ "\n   Details: " ++ d.details ++
    "\n   Suggestion: " ++ d.suggestion

def report (ds : List Diagnostic) : String :=
  "\n\n".intercalate (ds.zipIdx.map fun (d, i) => block (i + 1) d)

def errors (ds : List Diagnostic) : List Diagnostic :=
  ds.filter isError

def warnings (ds : List Diagnostic) : List Diagnostic :=
  ds.filter isWarning

end Diagnostic

end DfaWorkbench
