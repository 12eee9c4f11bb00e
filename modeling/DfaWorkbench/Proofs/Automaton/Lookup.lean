import Mathlib.Data.List.Nodup
import Mathlib.Tactic.Common
import DfaWorkbench.Proofs.Sequence.Distinct
import DfaWorkbench.Proofs.Sequence.Grouping
import DfaWorkbench.Simulation.Run

/-! What the lookups of an automaton find, by plain scans of its lists. -/

namespace DfaWorkbench.Automaton

variable (A : Automaton)

def leaving (id : Key) (symbol : Char) : List Transition :=
  A.transitions.filter fun t => t.source.key = id && t.symbol = symbol

lemma symbolKey_eq_iff (t : Transition) (a : Char) :
    t.symbolKey = .text (String.singleton a) ↔ t.symbol = a := by
  simp [Transition.symbolKey, Transition.symbolText, String.singleton_inj]

lemma members_bySource (id : Key) :
    Sequence.members A.bySource id = A.transitions.filter fun t => t.source.key = id := by
  rw [bySource, Sequence.members_groupedBy]
  refine List.filter_congr fun t _ => ?_
  rw [beq_eq_decide]
  exact decide_eq_decide.mpr eq_comm

lemma members_bySourceAndSymbol (id symbol : Key) :
    Sequence.members A.bySourceAndSymbol (id, symbol) =
      A.transitions.filter fun t => t.source.key = id && t.symbolKey = symbol := by
  rw [bySourceAndSymbol, Sequence.members_groupedBy]
  refine List.filter_congr fun t _ => ?_
  rw [beq_eq_decide, ← Bool.decide_and]
  apply decide_eq_decide.mpr
  rw [Prod.mk.injEq, eq_comm, @eq_comm _ symbol]

lemma members_on_char (id : Key) (a : Char) :
    Sequence.members A.bySourceAndSymbol (id, .text (String.singleton a)) = A.leaving id a := by
  rw [members_bySourceAndSymbol, leaving]
  refine List.filter_congr fun t _ => ?_
  rw [decide_eq_decide.mpr (symbolKey_eq_iff t a)]

lemma firstOn?_eq_head? (id : Key) (a : Char) : A.firstOn? id a = (A.leaving id a).head? := by
  rw [firstOn?, leaving, List.head?_filter]

lemma mem_leaving {id : Key} {a : Char} {t : Transition} :
    t ∈ A.leaving id a ↔ t ∈ A.transitions ∧ t.source.key = id ∧ t.symbol = a := by
  simp [leaving]

variable {A}

lemma eq_of_key_eq {p q : State} (hp : p ∈ A.states) (hq : q ∈ A.states) (h : p.key = q.key) :
    p = q :=
  List.inj_on_of_nodup_map A.keys_nodup hp hq h

lemma hasState_iff {id : Key} : A.hasState id = true ↔ ∃ q ∈ A.states, q.key = id := by
  simp [hasState, state?]

lemma state?_eq_some_iff {id : Key} {q : State} :
    A.state? id = some q ↔ q ∈ A.states ∧ q.key = id :=
  Sequence.find?_eq_some_iff A.keys_nodup

lemma joins_iff_hasState {t : Transition} : A.joins t = true ↔
    A.hasState t.source.key = true ∧ A.hasState t.target.key = true := by
  rw [joins, Bool.and_eq_true]

lemma joins_iff {t : Transition} : A.joins t = true ↔
    (∃ p ∈ A.states, p.key = t.source.key) ∧ ∃ q ∈ A.states, q.key = t.target.key := by
  rw [joins_iff_hasState, hasState_iff, hasState_iff]

end DfaWorkbench.Automaton
