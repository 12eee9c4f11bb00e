import DfaWorkbench.Simulation.Simulator

/-!
The calls of a simulator, field by field. What a call has written stays written if it fails. Calls
are made one after another, so only a step that is called for during another one finds the
simulator held.
-/

namespace DfaWorkbench

structure Stepper where
  simulator : Simulator
  held : Bool

namespace Stepper

def fresh : Stepper where
  simulator := .idle
  held := false

end Stepper

/-- A call ends with an answer or with an error, and with what it has made of the stepper. -/
abbrev Call :=
  EStateM SimulationError Stepper

namespace Call

def simulator : Call Simulator :=
  return (← get).simulator

def write (f : Simulator → Simulator) : Call Unit :=
  modify fun s => { s with simulator := f s.simulator }

def holding (call : Call Unit) : Call Unit := do
  modify ({ · with held := true })
  try call
  finally modify ({ · with held := false })

def conclude : Call Unit := do
  let some q := (← simulator).current? | throw .noPosition
  if q.isAccept then write ({ · with status := .accepted })
  else write ({ · with status := .rejected })

def enter (A : Automaton) (word : List Char) : Call Unit := do
  write fun _ => .idle
  write ({ · with automaton? := some A })
  write ({ · with input := word })
  write ({ · with current? := A.startState? })
  let some q := A.startState? | throw .noPosition
  write ({ · with path := [q.label] })
  write ({ · with status := .running })
  if word.isEmpty then conclude

/-- Begins a run. The input and the automaton are looked at before anything is written. -/
def start (A : Automaton) (input : Json) : Call Unit := do
  let word ← MonadExcept.ofExcept (wordOf input)
  let found ← MonadExcept.ofExcept (A.validated.mapError SimulationError.unfitName)
  let errors := Diagnostic.errors found
  unless errors.isEmpty do throw (.notReady errors)
  holding (enter A word)

def advance : Call Unit := do
  let s ← simulator
  let some a := s.input[s.stepIndex]? | throw .noPosition
  let some A := s.automaton? | throw .noPosition
  let some q := s.current? | throw .noPosition
  match A.firstOn? q.key a with
  | none =>
    write ({ · with stuckSymbol := some a })
    write ({ · with status := .rejected })
  | some t =>
    let some p := A.state? t.target.key | throw (.missingTarget t.id)
    write fun s => { s with history := s.history ++ [(q.label, a, p.label)] }
    write ({ · with current? := some p })
    write fun s => { s with path := s.path ++ [p.label] }
    write fun s => { s with stepIndex := s.stepIndex + 1 }
    let s ← simulator
    if s.stepIndex = s.input.length then conclude

def step : Call Unit := do
  if (← get).held then throw .locked
  holding do
    let s ← simulator
    unless s.isRunning do throw (.notRunning s.status)
    advance

def stepFor : Nat → Call Unit
  | 0 => pure ()
  | n + 1 => do
    if (← simulator).isRunning then
      step
      stepFor n

def finish : Call Status := do
  let s ← simulator
  stepFor (s.input.length - s.stepIndex)
  return (← simulator).status

def summary : Call String := do
  let s ← simulator
  unless s.isFinished do throw (.noVerdict s.status)
  let some q := s.current? | throw .noPosition
  return s.verdict q

def reset : Call Unit :=
  holding (write fun _ => .idle)

inductive Answer
  | done
  | status (status : Status)
  | text (s : String)

open Simulator in
def perform : Operation → Call Answer
  | .start A input => do start A input; return .done
  | .step => do step; return .done
  | .lockedStep => do holding step; return .done
  | .finish => return .status (← finish)
  | .summary => return .text (← summary)
  | .reset => do reset; return .done

end Call

structure Performed where
  operation : Simulator.Operation
  outcome : Except SimulationError Call.Answer
  after : Stepper

namespace Performed

def of (op : Simulator.Operation) : EStateM.Result SimulationError Stepper Call.Answer → Performed
  | .ok answer s => ⟨op, .ok answer, s⟩
  | .error e s => ⟨op, .error e, s⟩

def succeeded (p : Performed) : Bool :=
  p.outcome.isOk

end Performed

namespace Stepper

def performAll (s : Stepper) : List Simulator.Operation → List Performed
  | [] => []
  | op :: ops =>
    let p := Performed.of op ((Call.perform op).run s)
    p :: p.after.performAll ops

def afterAll (s : Stepper) : List Simulator.Operation → Stepper
  | [] => s
  | op :: ops => (Performed.of op ((Call.perform op).run s)).after.afterAll ops

end Stepper

end DfaWorkbench
