import DfaWorkbench.Automaton.Basic

/-!
Lookups by any names. What is looked up has to be an atom, and so do the sources of all transitions
if the transitions are looked up by their sources.
-/

namespace DfaWorkbench.Automaton

def findState (A : Automaton) (id : Name) : Except NameError (Option State) := do
  return A.state? (← id.atomKey)

def findLabel (A : Automaton) (id : Name) : Except NameError Name := do
  let _ ← id.atomKey
  return A.labelOf id

def findTransitionsFrom (A : Automaton) (id : Name) : Except NameError (List Transition) := do
  Name.requireAtoms (A.transitions.map Transition.source)
  return A.transitionsFrom (← id.atomKey)

def findTransitionsOn (A : Automaton) (id symbol : Name) :
    Except NameError (List Transition) := do
  Name.requireAtoms (A.transitions.map Transition.source)
  return A.transitionsOn (← id.atomKey) (← symbol.atomKey)

end DfaWorkbench.Automaton
