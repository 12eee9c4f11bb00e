import DfaWorkbench.Automaton.Basic
import DfaWorkbench.Entry.Parts
import DfaWorkbench.Sequence.Fresh

namespace DfaWorkbench

namespace Automaton

def addState (A : Automaton) (s : State) : Except Defect Automaton :=
  make (A.states ++ [s]) A.transitions A.alphabet

def updateState (A : Automaton) (id : Name) (revise : State → Except EntryError State) :
    Except EntryError Automaton := do
  let key ← id.atomKey.mapError .unfitName
  if A.hasState key then
    let states ← A.states.mapM fun s => if s.key = key then revise s else .ok s
    (make states A.transitions A.alphabet).mapError .defect
  else .error (.missing id.value)

def removeState (A : Automaton) (id : Key) : Automaton where
  states := A.states.filter (·.key ≠ id)
  transitions := A.transitions.filter fun t => t.source.key ≠ id ∧ t.target.key ≠ id
  alphabet := A.alphabet
  keys_nodup := A.keys_nodup.sublist (List.filter_sublist.map State.key)
  ids_atoms q h := A.ids_atoms q (List.mem_filter.1 h).1
  alphabet_nodup := A.alphabet_nodup
  alphabet_atoms := A.alphabet_atoms

def transitionName (n : Nat) : String :=
  "t" ++ n.repr

def transitionKey (n : Nat) : Key :=
  .text (transitionName n)

/-- One transition a symbol. The count of their ids goes on from one to the next. -/
def freshTransitions (source target : Name) (taken : List Key) (count : Nat) :
    List Json → Except Defect (List Transition)
  | [] => .ok []
  | symbol :: symbols => do
    let n := Sequence.firstFree transitionKey taken count
    let t ← Transition.make (transitionName n) source target symbol
    return t :: (← freshTransitions source target (transitionKey n :: taken) n symbols)

def addTransitions (A : Automaton) (source target : Name) (symbols : List Json) :
    Except Defect Automaton := do
  (Name.requireAtoms (A.transitions.map Transition.id)).mapError .unfitName
  let new ← freshTransitions source target (A.transitions.map (·.id.key)) 0 symbols
  make A.states (A.transitions ++ new) (A.alphabet ++ new.map fun t => .text t.symbolText)

def updateTransition (A : Automaton) (id : Name)
    (revise : Transition → Except EntryError Transition) : Except EntryError Automaton :=
  if (A.transition? id.key).isSome then do
    let transitions ← A.transitions.mapM fun t =>
      if t.id.key = id.key then revise t else .ok t
    return { A with transitions }
  else .error (.missing id.value)

def removeTransition (A : Automaton) (id : Key) : Automaton :=
  { A with transitions := A.transitions.filter (·.id.key ≠ id) }

def withAlphabet (A : Automaton) (symbols : List Name) : Except Defect Automaton :=
  make A.states A.transitions symbols

def restrict (A : Automaton) (ids : List Key) : Automaton where
  states := A.states.filter (·.key ∈ ids)
  transitions := A.transitions.filter fun t => t.source.key ∈ ids ∧ t.target.key ∈ ids
  alphabet := A.alphabet
  keys_nodup := A.keys_nodup.sublist (List.filter_sublist.map State.key)
  ids_atoms q h := A.ids_atoms q (List.mem_filter.1 h).1
  alphabet_nodup := A.alphabet_nodup
  alphabet_atoms := A.alphabet_atoms

end Automaton

inductive Edit
  | addState (fields : Json)
  | updateState (id : Name) (changes : Json)
  | removeState (id : Name)
  | addTransitions (source target : Name) (symbols : Json)
  | updateTransition (id : Name) (changes : Json)
  | removeTransition (id : Name)
  | withAlphabet (symbols : Json)

/-- The names by which an edit of a state is given its automaton and its id. No change has them. -/
def Edit.stateNames : List String :=
  ["self", "state_id"]

def Edit.transitionNames : List String :=
  ["self", "transition_id"]

namespace Automaton

def apply (A : Automaton) : Edit → Except EntryError Automaton
  | .addState fields => do
    (A.addState (← State.ofFields (← fields.entryFields))).mapError .defect
  | .updateState id changes => do
    let changes ← changes.freeFields Edit.stateNames
    A.updateState id (·.revise changes)
  | .removeState id => .ok (A.removeState id.key)
  | .addTransitions source target symbols => do
    (A.addTransitions source target (← symbols.entries)).mapError .defect
  | .updateTransition id changes => do
    let changes ← changes.freeFields Edit.transitionNames
    A.updateTransition id (·.revise changes)
  | .removeTransition id => .ok (A.removeTransition id.key)
  | .withAlphabet symbols => do (A.withAlphabet (← symbols.names)).mapError .defect

def applyOrKeep (A : Automaton) (e : Edit) : Automaton :=
  match A.apply e with
  | .ok B => B
  | .error _ => A

def applyAll (A : Automaton) (es : List Edit) : Automaton :=
  es.foldl applyOrKeep A

end Automaton

end DfaWorkbench
