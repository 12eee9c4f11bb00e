import DfaWorkbench.Automaton.Basic
import DfaWorkbench.Conversion.Error

/-!
From an automaton to a right-linear grammar, whose non-terminals are the labels of the states.
-/

namespace DfaWorkbench.Automaton

def labels (A : Automaton) : List Name :=
  Sequence.distinct Name.key (A.states.map State.label)

abbrev LabelledMove :=
  Name × Char × Name

def labelledMoves (A : Automaton) : List LabelledMove :=
  A.transitions.filterMap fun t =>
    match A.state? t.source.key, A.state? t.target.key with
    | some p, some q => some (p.label, t.symbol, q.label)
    | _, _ => none

/-- The productions of a label: one a transition from a state of that label, then an empty one for
each of its accepting states. -/
def labelProductions (A : Automaton) (moves : List LabelledMove) (label : Key) :
    List Production :=
  (moves.filter (·.1.key = label)).map (fun (_, a, next) => ⟨[Name.ofChar a, next]⟩) ++
    (A.acceptStates.filter (·.label.key = label)).map fun _ => .empty

def isGoal (moves : List LabelledMove) (label : Key) : Bool :=
  moves.any fun (_, _, next) => next.key = label

/-- Whether a label belongs to the grammar. One that neither has a production nor occurs in one
does not, unless it is the start label. -/
def keepsLabel (A : Automaton) (moves : List LabelledMove) (start label : Key) : Bool :=
  !(A.labelProductions moves label).isEmpty || isGoal moves label || label = start

def allSymbols (A : Automaton) : List Name :=
  Sequence.distinct Name.key (A.alphabet ++ A.transitions.map fun t => .text t.symbolText)

def toGrammar (A : Automaton) : Except ConversionError Grammar :=
  let moves := A.labelledMoves
  match A.startStates with
  | [start] =>
    .ok {
      start := start.label
      nonTerminals := A.labels.filter fun l => A.keepsLabel moves start.label.key l.key
      terminals := A.allSymbols
      productions := (A.labels.map fun l => (l, A.labelProductions moves l.key)).filter
        (!·.2.isEmpty) }
  | starts => .error (.startStates starts.length)

/-- The grammar, for an automaton whose labels and ends of transitions can be looked up. -/
def derived (A : Automaton) : Except ConversionError Grammar := do
  let g ← A.toGrammar
  (Name.requireAtoms (A.states.map State.label)).mapError .unfitName
  (Name.requireAtoms (A.transitions.map Transition.source)).mapError .unfitName
  (Name.requireAtoms (A.transitions.map Transition.target)).mapError .unfitName
  return g

end DfaWorkbench.Automaton
