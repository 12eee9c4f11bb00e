import DfaWorkbench.Automaton.Basic

/-!
The diagram of an automaton: its states as nodes, a pointer into each start state, and one edge for
all transitions between the same two states.
-/

namespace DfaWorkbench

inductive Shape
  | circle
  | doubleCircle
  | invisible
  deriving DecidableEq

inductive Fill
  | grey
  | gold
  deriving DecidableEq

/-- What a diagram marks: `highlight` holds ids of states and transitions, `current` the id of the
state that a run stands in. -/
structure Marks where
  highlight : List Key := []
  current : Option Key := none

structure Diagram where
  automaton : Automaton
  title : Name
  marks : Marks

namespace Diagram

structure Node where
  id : String
  label : String
  shape : Shape
  fill : Option Fill := none
  red : Bool := false
  deriving DecidableEq

structure Edge where
  tail : String
  head : String
  label : Option String := none
  red : Bool := false
  deriving DecidableEq

inductive Statement
  | node (n : Node)
  | edge (e : Edge)
  deriving DecidableEq

/-- The filling of a state; standing in it outweighs its being dead. -/
def fillOf (marks : Marks) (q : State) : Option Fill :=
  if marks.current = some q.key then some .gold
  else if q.type = .dead then some .grey
  else none

def stateNode (marks : Marks) (q : State) : Node where
  id := q.id.shown
  label := q.label.shown
  shape := if q.isAccept then .doubleCircle else .circle
  fill := fillOf marks q
  red := q.key ∈ marks.highlight

def pointerName (index : Nat) : String :=
  "__start" ++ index.repr

def pointer (q : State) (index : Nat) : List Statement :=
  [.node { id := pointerName index, label := "", shape := .invisible },
    .edge { tail := pointerName index, head := q.id.shown }]

def bundles (A : Automaton) : List ((Key × Key) × List Transition) :=
  Sequence.groupedBy (fun t => (t.source.key, t.target.key)) (A.transitions.filter A.joins)

def bundleEdge (marks : Marks) (ends : Key × Key) (ts : List Transition) : Edge where
  tail := ends.1.shown
  head := ends.2.shown
  label := some (", ".intercalate (ts.map Transition.symbolText))
  red := ts.any (·.id.key ∈ marks.highlight)

def bundleEdges (d : Diagram) : List Edge :=
  (bundles d.automaton).map fun (ends, ts) => bundleEdge d.marks ends ts

def statements (d : Diagram) : List Statement :=
  d.automaton.states.map (fun q => .node (stateNode d.marks q)) ++
    d.automaton.startStates.zipIdx.flatMap (fun (q, i) => pointer q i) ++
    d.bundleEdges.map .edge

end Diagram

end DfaWorkbench
