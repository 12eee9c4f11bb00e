import DfaWorkbench.Automaton.Basic

/-!
Runs of an automaton over a word, as the moves that it makes from a state until none is possible.
-/

namespace DfaWorkbench

structure Move where
  source : State
  symbol : Char
  target : State

namespace Automaton

/-- The transition that is taken from a state on a symbol; in an automaton without errors there is
no other one. -/
def firstOn? (A : Automaton) (id : Key) (symbol : Char) : Option Transition :=
  A.transitions.find? fun t => t.source.key = id && t.symbol = symbol

def next? (A : Automaton) (q : State) (symbol : Char) : Option State := do
  let t ← A.firstOn? q.key symbol
  A.state? t.target.key

def movesFrom (A : Automaton) (q : State) : List Char → List Move
  | [] => []
  | a :: word =>
    match A.next? q a with
    | some p => ⟨q, a, p⟩ :: A.movesFrom p word
    | none => []

end Automaton

def Move.lastFrom (q : State) : List Move → State
  | [] => q
  | m :: ms => lastFrom m.target ms

end DfaWorkbench
