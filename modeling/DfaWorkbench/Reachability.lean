import DfaWorkbench.Automaton.Basic

/-!
Which states can be reached, by a breadth-first search and as the relation that it decides.
-/

namespace DfaWorkbench.Automaton

inductive Chain (A : Automaton) (s : Key) : Key → Prop
  | here : A.hasState s → Chain A s s
  | step {p : Key} {t : Transition} : Chain A s p → t ∈ A.transitions → t.source.key = p →
      A.hasState t.target.key → Chain A s t.target.key

def unseenTargets (A : Automaton) (leaving : SourceIndex) (seen : List Key) (q : Key) : List Key :=
  (((Sequence.members leaving q).map (·.target.key)).filter fun p =>
    p ∉ seen && A.hasState p).eraseDups

def explore (A : Automaton) (leaving : SourceIndex) : Nat → List Key → List Key → List Key
  | 0, seen, _ => seen
  | _, seen, [] => seen
  | rounds + 1, seen, q :: queue =>
    let found := A.unseenTargets leaving seen q
    explore A leaving rounds (seen ++ found) (queue ++ found)

/-- The ids of the states that can be reached from `s`, in the order in which they are found.
No id enters the queue twice, so there are as many rounds as states at most. -/
def reachableFrom (A : Automaton) (s : Key) : List Key :=
  if A.hasState s then A.explore A.bySource A.states.length [s] [s] else []

def reachable (A : Automaton) : List Key :=
  match A.startState? with
  | some s => A.reachableFrom s.key
  | none => []

def unreachableStates (A : Automaton) : List State :=
  match A.startState? with
  | some s =>
    let seen := A.reachableFrom s.key
    A.states.filter fun q => q.key ∉ seen
  | none => []

/-- The names by which the states that can be reached from `s` are come upon: `s` itself, and each
other one as the target of the transition that first leads to it. All targets of a state that is
reached are looked up. -/
def namesReachedFrom (A : Automaton) (s : Name) : Except NameError (List Name) := do
  let keys := A.reachableFrom (← s.atomKey)
  if keys.isEmpty then return []
  Name.requireAtoms (A.transitions.map Transition.source)
  let targets := (keys.flatMap (Sequence.members A.bySource)).map Transition.target
  Name.requireAtoms targets
  return (Sequence.distinct Name.key (s :: targets)).filter fun n => n.key ∈ keys

end DfaWorkbench.Automaton
