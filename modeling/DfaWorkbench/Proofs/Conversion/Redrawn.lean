import DfaWorkbench.Conversion.ToGrammar
import DfaWorkbench.Proofs.Name
import DfaWorkbench.Proofs.Sequence.Related

/-! Automata that differ in the places of their states and the ids of their transitions at most.
They have one grammar. -/

namespace DfaWorkbench

structure State.Moved (p q : State) : Prop where
  id : p.id = q.id
  label : p.label = q.label
  type : p.type = q.type

structure Transition.Renumbered (t u : Transition) : Prop where
  source : t.source.key = u.source.key
  symbol : t.symbol = u.symbol
  target : t.target.key = u.target.key

namespace Automaton

structure Redrawn (A B : Automaton) : Prop where
  states : List.Forall₂ State.Moved A.states B.states
  transitions : List.Forall₂ Transition.Renumbered A.transitions B.transitions
  alphabet : A.alphabet = B.alphabet

variable {A B : Automaton}

lemma redrawn_of_map_eq
    (hstates : A.states.map (fun q => (q.id, q.label, q.type)) =
      B.states.map fun q => (q.id, q.label, q.type))
    (htransitions : A.transitions.map (fun t => (t.source.key, t.symbol, t.target.key)) =
      B.transitions.map fun t => (t.source.key, t.symbol, t.target.key))
    (halphabet : A.alphabet = B.alphabet) : A.Redrawn B where
  states := by
    refine (Sequence.forall₂_of_map_eq hstates).imp fun p q hpq => ?_
    simp only [Prod.mk.injEq] at hpq
    exact ⟨hpq.1, hpq.2.1, hpq.2.2⟩
  transitions := by
    refine (Sequence.forall₂_of_map_eq htransitions).imp fun t u htu => ?_
    simp only [Prod.mk.injEq] at htu
    exact ⟨htu.1, htu.2.1, htu.2.2⟩
  alphabet := halphabet

namespace Redrawn

variable (h : A.Redrawn B)

include h

lemma map_label : A.states.map State.label = B.states.map State.label :=
  Sequence.map_eq_of_forall₂ (fun _ _ hpq => hpq.label) h.states

lemma labels : A.labels = B.labels := by
  rw [Automaton.labels, Automaton.labels, h.map_label]

lemma state? (k : Key) : Option.Rel State.Moved (A.state? k) (B.state? k) :=
  Sequence.rel_find? (fun p q hpq => by rw [State.key, State.key, hpq.id]) h.states

lemma labelledMoves : A.labelledMoves = B.labelledMoves := by
  rw [← List.forall₂_eq_eq_eq]
  refine List.rel_filterMap (fun t u htu => ?_) h.transitions
  have hp := h.state? t.source.key
  have hq := h.state? t.target.key
  rw [← htu.source, ← htu.symbol, ← htu.target]
  generalize A.state? t.source.key = p, B.state? t.source.key = p' at hp
  generalize A.state? t.target.key = q, B.state? t.target.key = q' at hq
  cases hp with
  | none => exact .none
  | some hp =>
    cases hq with
    | none => exact .none
    | some hq => simp only [hp.label, hq.label, Option.rel_some_some]

lemma startStates : List.Forall₂ State.Moved A.startStates B.startStates :=
  List.rel_filter (fun _ _ hpq => by simp only [State.isStart, hpq.type]) h.states

lemma acceptStates : List.Forall₂ State.Moved A.acceptStates B.acceptStates :=
  List.rel_filter (fun _ _ hpq => by simp only [State.isAccept, hpq.type]) h.states

lemma labelProductions (moves : List LabelledMove) (k : Key) :
    A.labelProductions moves k = B.labelProductions moves k := by
  have haccept : List.Forall₂ State.Moved
      (A.acceptStates.filter (·.label.key = k)) (B.acceptStates.filter (·.label.key = k)) :=
    List.rel_filter (fun _ _ hpq => by simp only [hpq.label]) h.acceptStates
  rw [Automaton.labelProductions, Automaton.labelProductions,
    Sequence.map_eq_of_forall₂ (fun _ _ _ => rfl) haccept]

lemma allSymbols : A.allSymbols = B.allSymbols := by
  have htexts : (A.transitions.map fun t => Name.text t.symbolText) =
      B.transitions.map fun t => Name.text t.symbolText :=
    Sequence.map_eq_of_forall₂
      (fun _ _ htu => by rw [Transition.symbolText, Transition.symbolText, htu.symbol])
      h.transitions
  rw [Automaton.allSymbols, Automaton.allSymbols, h.alphabet, htexts]

lemma toGrammar : A.toGrammar = B.toGrammar := by
  have hstarts := h.startStates
  have hkeeps (start k : Key) :
      A.keepsLabel B.labelledMoves start k = B.keepsLabel B.labelledMoves start k := by
    rw [keepsLabel, keepsLabel, h.labelProductions]
  simp only [Automaton.toGrammar, h.labelledMoves, h.labels, h.allSymbols, h.labelProductions,
    hkeeps]
  generalize A.startStates = ps, B.startStates = qs at hstarts
  cases hstarts with
  | nil => rfl
  | cons hpq hrest =>
    cases hrest with
    | nil => simp only [hpq.label]
    | cons _ hrest => simp only [List.length_cons, hrest.length_eq]

lemma derived : A.derived = B.derived := by
  have hends (f : Transition → Name) (hf : ∀ t u, t.Renumbered u → (f t).key = (f u).key) :
      Name.requireAtoms (A.transitions.map f) = Name.requireAtoms (B.transitions.map f) := by
    have hall : (A.transitions.map f).all Name.isAtom = (B.transitions.map f).all Name.isAtom := by
      rw [List.all_map, List.all_map]
      refine Sequence.all_eq_of_forall₂ (fun t u htu => ?_) h.transitions
      rw [Function.comp_apply, Function.comp_apply, ← Name.isAtom_key, hf t u htu, Name.isAtom_key]
    rw [Name.requireAtoms, Name.requireAtoms, hall]
  rw [Automaton.derived, Automaton.derived, h.toGrammar, h.map_label,
    hends Transition.source fun _ _ htu => htu.source,
    hends Transition.target fun _ _ htu => htu.target]

end Redrawn

end Automaton

end DfaWorkbench
