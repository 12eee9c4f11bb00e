import DfaWorkbench.Automaton.Basic

/-!
Acceptance by exploring all branches: every transition on a symbol is followed at once.
-/

namespace DfaWorkbench.Automaton

def branchStep (A : Automaton) (ids : List Key) (symbol : Char) : List Key :=
  (A.transitions.filter fun t => t.source.key ∈ ids && t.symbol = symbol).map (·.target.key)

def branchesFrom (A : Automaton) (ids : List Key) (word : List Char) : List Key :=
  word.foldl A.branchStep ids

def anyAccepts (A : Automaton) (ids : List Key) : Bool :=
  A.acceptStates.any fun q => q.key ∈ ids

def acceptsByBranches (A : Automaton) (word : List Char) : Bool :=
  A.anyAccepts (A.branchesFrom (A.startStates.map State.key) word)

end DfaWorkbench.Automaton
