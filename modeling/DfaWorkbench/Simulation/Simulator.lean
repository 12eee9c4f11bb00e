import DfaWorkbench.Entry.Basic
import DfaWorkbench.Simulation.Run
import DfaWorkbench.Validation

/-!
The simulator holds one run at a time. An operation that is refused leaves it as it was.
-/

namespace DfaWorkbench

inductive Status
  | idle
  | running
  | accepted
  | rejected
  deriving DecidableEq

def Status.name : Status → String
  | idle => "idle"
  | running => "running"
  | accepted => "accepted"
  | rejected => "rejected"

inductive SimulationError
  | notASequence (value : Json)
  | notASymbol (value : Json)
  | unfitName (e : NameError)
  | notReady (errors : List Diagnostic)
  | locked
  | notRunning (status : Status)
  | noVerdict (status : Status)
  | noPosition
  | missingTarget (transition : Name)

namespace SimulationError

def message : SimulationError → String
  | notASequence value => "input must be a string or a sequence of symbols, got " ++ value.display
  | notASymbol value => "input symbols must be single characters, got " ++ value.display
  | unfitName e => e.message
  | notReady errors =>
    "Automaton is not ready for simulation: " ++ "; ".intercalate (errors.map Diagnostic.message)
  | locked => "another step is already in progress on this simulator"
  | notRunning status => "cannot step while " ++ status.name
  | noVerdict status => "no verdict while " ++ status.name
  | noPosition => "a run has no place"
  | missingTarget transition => "transition " ++ transition.shown ++ " targets a missing state"

/-- Whether an error is a fault of the simulator itself, and no refusal of what was asked. -/
def isFault : SimulationError → Bool
  | noPosition | missingTarget _ => true
  | _ => false

end SimulationError

def symbolOf (v : Json) : Except SimulationError Char :=
  match v with
  | .str s =>
    match s.toList with
    | [c] => .ok c
    | _ => .error (.notASymbol v)
  | _ => .error (.notASymbol v)

def wordOf (v : Json) : Except SimulationError (List Char) :=
  match v.entries? with
  | none => .error (.notASequence v)
  | some xs => xs.mapM symbolOf

structure Simulator where
  status : Status
  automaton? : Option Automaton
  input : List Char
  current? : Option State
  stepIndex : Nat
  /-- The symbol on which no transition leaves the state that a run got stuck in. -/
  stuckSymbol : Option Char
  path : List Name
  history : List (Name × Char × Name)

namespace Simulator

def idle : Simulator where
  status := .idle
  automaton? := none
  input := []
  current? := none
  stepIndex := 0
  stuckSymbol := none
  path := []
  history := []

def isRunning (s : Simulator) : Bool :=
  s.status = .running

def isFinished (s : Simulator) : Bool :=
  s.status = .accepted || s.status = .rejected

def nextSymbol (s : Simulator) : Option Char :=
  if s.isRunning then s.input[s.stepIndex]? else none

def conclude (s : Simulator) (q : State) : Simulator :=
  { s with status := if q.isAccept then .accepted else .rejected }

def opened (A : Automaton) (q : State) (word : List Char) : Simulator :=
  let s := { idle with
    status := .running, automaton? := some A, input := word, current? := some q, path := [q.label] }
  if word.isEmpty then s.conclude q else s

def begin (A : Automaton) (word : List Char) : Except SimulationError Simulator := do
  let found ← A.validated.mapError .unfitName
  match Diagnostic.errors found, A.startState? with
  | [], some q => return opened A q word
  | [], none => throw .noPosition
  | errors, _ => throw (.notReady errors)

def start (A : Automaton) (input : Json) : Except SimulationError Simulator := do
  begin A (← wordOf input)

def moveTo (s : Simulator) (q : State) (a : Char) (p : State) : Simulator :=
  let moved := { s with
    history := s.history ++ [(q.label, a, p.label)]
    current? := some p
    path := s.path ++ [p.label]
    stepIndex := s.stepIndex + 1 }
  if moved.stepIndex = moved.input.length then moved.conclude p else moved

def getStuck (s : Simulator) (a : Char) : Simulator :=
  { s with stuckSymbol := some a, status := .rejected }

def advance (s : Simulator) : Except SimulationError Simulator :=
  match s.automaton?, s.current?, s.input[s.stepIndex]? with
  | some A, some q, some a =>
    match A.firstOn? q.key a with
    | none => .ok (s.getStuck a)
    | some t =>
      match A.state? t.target.key with
      | some p => .ok (s.moveTo q a p)
      | none => .error (.missingTarget t.id)
  | _, _, _ => .error .noPosition

def step (s : Simulator) : Except SimulationError Simulator :=
  if s.isRunning then s.advance else .error (.notRunning s.status)

def stepFor : Nat → Simulator → Except SimulationError Simulator
  | 0, s => .ok s
  | n + 1, s => if s.isRunning then do stepFor n (← s.step) else .ok s

/-- Steps until there is a verdict, which takes as many steps as symbols are left at most. -/
def run (s : Simulator) : Except SimulationError Simulator :=
  stepFor (s.input.length - s.stepIndex) s

def verdict (s : Simulator) (q : State) : String :=
  let text := String.ofList s.input
  let subject := if text = "" then "Empty string" else "String '" ++ text ++ "'"
  match s.stuckSymbol with
  | some a =>
    subject ++ " is REJECTED by the DFA.\nNo transition defined for state " ++ q.label.shown ++
      " with symbol '" ++ String.singleton a ++ "'"
  | none =>
    if s.status = .accepted then
      subject ++ " is ACCEPTED by the DFA.\nEnded in accepting state: " ++ q.label.shown
    else subject ++ " is REJECTED by the DFA.\nEnded in non-accepting state: " ++ q.label.shown

def summary (s : Simulator) : Except SimulationError String :=
  if s.isFinished then
    match s.current? with
    | some q => .ok (s.verdict q)
    | none => .error .noPosition
  else .error (.noVerdict s.status)

inductive Operation
  | start (automaton : Automaton) (input : Json)
  | step
  | lockedStep
  | finish
  | summary
  | reset

def apply (s : Simulator) : Operation → Except SimulationError Simulator
  | .start A input => start A input
  | .step => s.step
  | .lockedStep => .error .locked
  | .finish => s.run
  | .summary => s.summary.map fun _ => s
  | .reset => .ok idle

def applyOrKeep (s : Simulator) (op : Operation) : Simulator :=
  match s.apply op with
  | .ok t => t
  | .error _ => s

def applyAll (s : Simulator) (ops : List Operation) : Simulator :=
  ops.foldl applyOrKeep s

def finish (s : Simulator) : Simulator :=
  s.applyOrKeep .finish

end Simulator

def Automaton.simulate (A : Automaton) (word : List Char) : Except SimulationError Simulator := do
  (← Simulator.begin A word).run

end DfaWorkbench
