import Mathlib.Tactic.Common
import DfaWorkbench.Gallery
import DfaWorkbench.Proofs.Name

namespace DfaWorkbench.Automaton

structure Worded (A : Automaton) : Prop where
  ids : ∀ q ∈ A.states, q.id.isText = true
  labels : ∀ q ∈ A.states, q.label.isText = true
  transitions : ∀ t ∈ A.transitions,
    t.id.isText = true ∧ t.source.isText = true ∧ t.target.isText = true
  alphabet : ∀ a ∈ A.alphabet, a.isText = true

lemma worded_sample : sample.Worded := by
  constructor <;> decide

end DfaWorkbench.Automaton
