import DfaWorkbench.Diagnostic
import DfaWorkbench.Reachability

/-!
Validation: the structural checks of an automaton, in a fixed order. An automaton without errors
is ready to run; a missing transition is only a warning.
-/

namespace DfaWorkbench.Automaton

open Diagnostic

def startDiagnostics (A : Automaton) : List Diagnostic :=
  match A.startStates with
  | [] => [missingStart]
  | [_] => []
  | starts => [multipleStart starts]

def acceptDiagnostics (A : Automaton) : List Diagnostic :=
  if A.acceptStates.isEmpty then [noAccept] else []

def choice (A : Automaton) (q : State) (a : Name) (ts : List Transition) : Diagnostic :=
  nonDeterministic q a ts (ts.map fun t => A.labelOf t.target)

def declaredDiagnostics (A : Automaton) (moves : MoveIndex) (q : State) (a : Name) :
    List Diagnostic :=
  match Sequence.members moves (q.key, a.key) with
  | [] => [missingTransition q a]
  | [_] => []
  | ts => [A.choice q a ts]

def undeclaredDiagnostics (A : Automaton) (moves : MoveIndex) (q : State) (a : String) :
    List Diagnostic :=
  let ts := Sequence.members moves (q.key, .text a)
  if 1 < ts.length then [A.choice q a ts] else []

def declares (A : Automaton) (t : Transition) : Bool :=
  t.symbolKey ∈ A.alphabet.map Name.key

def undeclaredSymbols (A : Automaton) (leaving : SourceIndex) (q : State) : List String :=
  (((Sequence.members leaving q.key).filter (!A.declares ·)).map Transition.symbolText).eraseDups

def transitionDiagnostics (A : Automaton) : List Diagnostic :=
  let moves := A.bySourceAndSymbol
  let leaving := A.bySource
  A.states.flatMap fun q =>
    A.alphabet.flatMap (A.declaredDiagnostics moves q) ++
      (A.undeclaredSymbols leaving q).flatMap (A.undeclaredDiagnostics moves q)

def danglingDiagnostics (A : Automaton) : List Diagnostic :=
  match A.transitions.filter (!A.joins ·) with
  | [] => []
  | ts => [dangling ts]

def symbolDiagnostics (A : Automaton) : List Diagnostic :=
  (Sequence.groupedBy Transition.symbolText (A.transitions.filter (!A.declares ·))).map
    fun (a, ts) => unknownSymbol a ts

def reachabilityDiagnostics (A : Automaton) : List Diagnostic :=
  match A.startState? with
  | some start => A.unreachableStates.map fun q => unreachable q start
  | none => []

def validate (A : Automaton) : List Diagnostic :=
  if A.states.isEmpty then [noStates]
  else
    A.startDiagnostics ++ A.acceptDiagnostics ++ A.transitionDiagnostics ++
      A.danglingDiagnostics ++ A.symbolDiagnostics ++ A.reachabilityDiagnostics

/-- The diagnostics, for an automaton whose names can be looked up and listed where that is done. -/
def validated (A : Automaton) : Except NameError (List Diagnostic) :=
  let found := A.validate
  if A.states.isEmpty then .ok found
  else do
    Name.requireAtoms (A.transitions.map Transition.source)
    Name.requireAtoms ((A.transitions.filter (A.hasState ·.source.key)).map Transition.target)
    Name.requireTexts (found.flatMap Diagnostic.listed)
    return found

def errors (A : Automaton) : List Diagnostic :=
  Diagnostic.errors A.validate

def isReady (A : Automaton) : Bool :=
  A.errors.isEmpty

end DfaWorkbench.Automaton
