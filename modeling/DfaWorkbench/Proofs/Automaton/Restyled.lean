import Mathlib.Data.List.Forall2
import DfaWorkbench.Proofs.Automaton.Reachability
import DfaWorkbench.Proofs.Sequence.Related

/-! Automata that differ only in how their states are shown. What is looked up in one of them is
found in the other, up to the looks of the states. -/

namespace DfaWorkbench

/-- Another state in label, position and, if neither of the two starts or accepts, in type. -/
structure State.Restyled (p q : State) : Prop where
  id : p.id = q.id
  isStart : p.isStart = q.isStart
  isAccept : p.isAccept = q.isAccept

namespace State.Restyled

variable {p q : State}

lemma key (h : p.Restyled q) : p.key = q.key :=
  congrArg Name.key h.id

end State.Restyled

namespace Automaton

structure Restyled (A B : Automaton) : Prop where
  states : List.Forall₂ State.Restyled A.states B.states
  transitions : A.transitions = B.transitions
  alphabet : A.alphabet = B.alphabet

namespace Restyled

variable {A B : Automaton} (h : A.Restyled B)

include h

lemma state? (k : Key) : Option.Rel State.Restyled (A.state? k) (B.state? k) :=
  Sequence.rel_find? (fun _ _ hpq => by rw [hpq.key]) h.states

lemma hasState (k : Key) : A.hasState k = B.hasState k :=
  Sequence.isSome_eq_of_rel (h.state? k)

lemma startStates : List.Forall₂ State.Restyled A.startStates B.startStates :=
  List.rel_filter (fun _ _ hpq => iff_of_eq (congrArg (· = true) hpq.isStart)) h.states

lemma acceptStates : List.Forall₂ State.Restyled A.acceptStates B.acceptStates :=
  List.rel_filter (fun _ _ hpq => iff_of_eq (congrArg (· = true) hpq.isAccept)) h.states

lemma startState? : Option.Rel State.Restyled A.startState? B.startState? := by
  have hstarts := h.startStates
  rw [Automaton.startState?, Automaton.startState?]
  generalize A.startStates = ps, B.startStates = qs at hstarts
  cases hstarts with
  | nil => exact .none
  | cons hpq hrest =>
    cases hrest with
    | nil => exact .some hpq
    | cons _ _ => exact .none

lemma bySource : A.bySource = B.bySource := by
  rw [Automaton.bySource, Automaton.bySource, h.transitions]

lemma bySourceAndSymbol : A.bySourceAndSymbol = B.bySourceAndSymbol := by
  rw [Automaton.bySourceAndSymbol, Automaton.bySourceAndSymbol, h.transitions]

lemma joins (t : Transition) : A.joins t = B.joins t := by
  rw [Automaton.joins, Automaton.joins, h.hasState, h.hasState]

lemma reachableFrom (s : Key) : A.reachableFrom s = B.reachableFrom s :=
  reachableFrom_congr h.hasState h.transitions h.states.length_eq s

lemma namesReachedFrom (s : Name) : A.namesReachedFrom s = B.namesReachedFrom s := by
  simp only [Automaton.namesReachedFrom, h.reachableFrom, h.bySource, h.transitions]

lemma unreachableStates :
    List.Forall₂ State.Restyled A.unreachableStates B.unreachableStates := by
  have hstart := h.startState?
  rw [Automaton.unreachableStates, Automaton.unreachableStates]
  generalize A.startState? = s, B.startState? = t at hstart
  cases hstart with
  | none => exact .nil
  | some hst =>
    refine List.rel_filter (fun p q hpq => ?_) h.states
    simp only [hpq.key, hst.key, h.reachableFrom]

lemma isText_labelOf (hA : ∀ q ∈ A.states, q.label.isText = true)
    (hB : ∀ q ∈ B.states, q.label.isText = true) (n : Name) :
    (A.labelOf n).isText = (B.labelOf n).isText := by
  have hstate := h.state? n.key
  rw [labelOf, labelOf]
  generalize hp : A.state? n.key = x, hq : B.state? n.key = y at hstate
  cases hstate with
  | none => rfl
  | some _ =>
    exact (hA _ (state?_eq_some_iff.1 hp).1).trans (hB _ (state?_eq_some_iff.1 hq).1).symm

end Restyled

end Automaton

end DfaWorkbench
