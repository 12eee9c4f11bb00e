import DfaWorkbench.State
import DfaWorkbench.Transition
import DfaWorkbench.Sequence.Distinct
import DfaWorkbench.Sequence.Grouping

/-!
Automata as lists of states, transitions and symbols, and the lookups in them. An automaton may be
partial, non-deterministic, and have transitions from or to states that it does not have.
-/

namespace DfaWorkbench

structure Automaton where
  states : List State
  transitions : List Transition
  alphabet : List Name
  keys_nodup : (states.map State.key).Nodup
  ids_atoms : ∀ q ∈ states, q.id.isAtom = true
  alphabet_nodup : (alphabet.map Name.key).Nodup
  alphabet_atoms : ∀ a ∈ alphabet, a.isAtom = true

namespace Automaton

def idDefect? (seen : List Key) : List State → Option Defect
  | [] => none
  | q :: qs =>
    if q.id.isAtom then
      if q.key ∈ seen then some (.repeatedState q.id) else idDefect? (q.key :: seen) qs
    else some (.unfitName .notAtom)

theorem idDefect?_eq_none {seen : List Key} {qs : List State} :
    idDefect? seen qs = none ↔
      (qs.map State.key).Nodup ∧ (∀ q ∈ qs, q.key ∉ seen) ∧ ∀ q ∈ qs, q.id.isAtom = true := by
  induction qs generalizing seen with
  | nil => simp [idDefect?]
  | cons q qs ih =>
    by_cases ha : q.id.isAtom <;> by_cases hs : q.key ∈ seen
    · simp [idDefect?, ha, hs]
    · simp only [idDefect?, ha, hs, if_true, if_false, ih, List.map_cons, List.nodup_cons,
        List.mem_map, List.mem_cons]
      grind
    · simp [idDefect?, ha]
    · simp [idDefect?, ha]

def make (states : List State) (transitions : List Transition) (alphabet : List Name) :
    Except Defect Automaton :=
  if ha : alphabet.all Name.isAtom then
    match h : idDefect? [] states with
    | some d => .error d
    | none =>
      .ok {
        states, transitions
        alphabet := Sequence.distinct Name.key alphabet
        keys_nodup := (idDefect?_eq_none.1 h).1
        ids_atoms := (idDefect?_eq_none.1 h).2.2
        alphabet_nodup := Sequence.nodup_keys_distinct Name.key alphabet
        alphabet_atoms := fun a h => List.all_eq_true.1 ha a (Sequence.mem_of_mem_unseen h) }
  else .error (.unfitName .notAtom)

def state? (A : Automaton) (id : Key) : Option State :=
  A.states.find? (·.key = id)

def hasState (A : Automaton) (id : Key) : Bool :=
  (A.state? id).isSome

def transition? (A : Automaton) (id : Key) : Option Transition :=
  A.transitions.find? (·.id.key = id)

abbrev SourceIndex :=
  List (Key × List Transition)

abbrev MoveIndex :=
  List ((Key × Key) × List Transition)

def bySource (A : Automaton) : SourceIndex :=
  Sequence.groupedBy (·.source.key) A.transitions

def bySourceAndSymbol (A : Automaton) : MoveIndex :=
  Sequence.groupedBy (fun t => (t.source.key, t.symbolKey)) A.transitions

def transitionsFrom (A : Automaton) (id : Key) : List Transition :=
  Sequence.members A.bySource id

def transitionsOn (A : Automaton) (id symbol : Key) : List Transition :=
  Sequence.members A.bySourceAndSymbol (id, symbol)

def joins (A : Automaton) (t : Transition) : Bool :=
  A.hasState t.source.key && A.hasState t.target.key

def startStates (A : Automaton) : List State :=
  A.states.filter State.isStart

def acceptStates (A : Automaton) : List State :=
  A.states.filter State.isAccept

def startState? (A : Automaton) : Option State :=
  match A.startStates with
  | [s] => some s
  | _ => none

def labelOf (A : Automaton) (id : Name) : Name :=
  match A.state? id.key with
  | some s => s.label
  | none => id

theorem keys_relabel (qs : List State) (label : State → Name) :
    (qs.map fun q => q.relabel (label q)).map State.key = qs.map State.key := by
  simp [State.key]

theorem isAtom_of_mem_relabel {qs : List State} {label : State → Name}
    (h : ∀ q ∈ qs, q.id.isAtom = true) :
    ∀ q ∈ qs.map fun q => q.relabel (label q), q.id.isAtom = true := by
  intro q hq
  obtain ⟨p, hp, rfl⟩ := List.mem_map.1 hq
  simpa using h p hp

def relabel (A : Automaton) (label : State → Name) : Automaton :=
  { A with
    states := A.states.map fun q => q.relabel (label q)
    keys_nodup := (keys_relabel A.states label).symm ▸ A.keys_nodup
    ids_atoms := isAtom_of_mem_relabel A.ids_atoms }

def agrees (A B : Automaton) : Bool :=
  A.states.length = B.states.length &&
    (A.states.zip B.states).all (fun (s, t) => s.agrees t) &&
    A.transitions.length = B.transitions.length &&
    (A.transitions.zip B.transitions).all (fun (t, u) => t.agrees u) &&
    A.alphabet.map Name.key = B.alphabet.map Name.key

end Automaton

end DfaWorkbench
