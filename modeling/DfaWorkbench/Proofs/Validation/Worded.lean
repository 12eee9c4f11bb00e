import Mathlib.Tactic.Common
import DfaWorkbench.Proofs.Automaton.Worded
import DfaWorkbench.Proofs.Conversion.Convertible
import DfaWorkbench.Proofs.Validation.Checks

/-! Validating an automaton over texts: it always ends, and its diagnostics are about texts. -/

namespace DfaWorkbench

structure Diagnostic.Worded (d : Diagnostic) : Prop where
  affected : ∀ n ∈ d.affected, n.isText = true
  listed : ∀ n ∈ d.listed, n.isText = true

namespace Automaton

variable {A : Automaton} {d : Diagnostic}

lemma mem_transitions_of_mem_transitionsOn {t : Transition} {id symbol : Key}
    (ht : t ∈ A.transitionsOn id symbol) : t ∈ A.transitions := by
  rw [transitionsOn, members_bySourceAndSymbol] at ht
  exact (List.mem_filter.1 ht).1

namespace Worded

variable (h : A.Worded)

include h

lemma labelOf {id : Name} (hid : id.isText = true) : (A.labelOf id).isText = true := by
  rw [Automaton.labelOf]
  split
  · next q hq => exact h.labels q (state?_eq_some_iff.1 hq).1
  · exact hid

lemma ids_of_subset {ts : List Transition} (hts : ∀ t ∈ ts, t ∈ A.transitions) :
    ∀ n ∈ ts.map Transition.id, n.isText = true := by
  rw [List.forall_mem_map]
  exact fun t ht => (h.transitions t (hts t ht)).1

lemma targets_of_subset {ts : List Transition} (hts : ∀ t ∈ ts, t ∈ A.transitions) :
    ∀ n ∈ ts.map fun t => A.labelOf t.target, n.isText = true := by
  rw [List.forall_mem_map]
  exact fun t ht => h.labelOf (h.transitions t (hts t ht)).2.2

lemma startDiagnostics (hd : d ∈ A.startDiagnostics) : d.Worded := by
  have hstates : ∀ q ∈ A.startStates, q ∈ A.states := fun q hq => (List.mem_filter.1 hq).1
  rw [Automaton.startDiagnostics] at hd
  split at hd
  · rw [List.mem_singleton.1 hd]
    exact ⟨List.forall_mem_nil _, List.forall_mem_nil _⟩
  · cases hd
  · rw [List.mem_singleton.1 hd]
    constructor
    · exact List.forall_mem_map.2 fun q hq => h.ids q (hstates q hq)
    · exact List.forall_mem_map.2 fun q hq => h.labels q (hstates q hq)

lemma transitionDiagnostics (hd : d ∈ A.transitionDiagnostics) : d.Worded := by
  obtain ⟨q, hq, ⟨a, _, _, rfl⟩ | ⟨a, rfl⟩⟩ := of_mem_transitionDiagnostics hd
  · exact ⟨List.forall_mem_singleton.2 (h.ids q hq), List.forall_mem_nil _⟩
  · have hts : ∀ t ∈ A.transitionsOn q.key a.key, t ∈ A.transitions :=
      fun t ht => mem_transitions_of_mem_transitionsOn ht
    exact ⟨h.ids_of_subset hts, h.targets_of_subset hts⟩

lemma danglingDiagnostics (hd : d ∈ A.danglingDiagnostics) : d.Worded := by
  have hts : ∀ t ∈ A.transitions.filter (!A.joins ·), t ∈ A.transitions :=
    fun t ht => (List.mem_filter.1 ht).1
  rw [Automaton.danglingDiagnostics] at hd
  split at hd
  · cases hd
  · rw [List.mem_singleton.1 hd]
    exact ⟨h.ids_of_subset hts, h.ids_of_subset hts⟩

lemma symbolDiagnostics (hd : d ∈ A.symbolDiagnostics) : d.Worded := by
  obtain ⟨⟨a, ts⟩, hmem, rfl⟩ := List.mem_map.1 hd
  obtain ⟨_, rfl⟩ := Sequence.mem_groupedBy.1 hmem
  refine ⟨h.ids_of_subset fun t ht => ?_, List.forall_mem_nil _⟩
  exact (List.mem_filter.1 (List.mem_filter.1 ht).1).1

lemma reachabilityDiagnostics (hd : d ∈ A.reachabilityDiagnostics) : d.Worded := by
  have hstates : ∀ q ∈ A.unreachableStates, q ∈ A.states := by
    intro q hq
    rw [unreachableStates] at hq
    split at hq
    · exact (List.mem_filter.1 hq).1
    · cases hq
  rw [Automaton.reachabilityDiagnostics] at hd
  split at hd
  · obtain ⟨q, hq, rfl⟩ := List.mem_map.1 hd
    exact ⟨List.forall_mem_singleton.2 (h.ids q (hstates q hq)), List.forall_mem_nil _⟩
  · cases hd

lemma validate (hd : d ∈ A.validate) : d.Worded := by
  have hplain : d.affected = [] → d.listed = [] → d.Worded := fun ha hl =>
    ⟨ha ▸ List.forall_mem_nil _, hl ▸ List.forall_mem_nil _⟩
  by_cases hs : A.states = []
  · rw [Automaton.validate, if_pos (by simp [hs]), List.mem_singleton] at hd
    exact hplain (hd ▸ rfl) (hd ▸ rfl)
  rcases (mem_validate_iff hs).1 hd with hd | hd | hd | hd | hd | hd
  · exact h.startDiagnostics hd
  · rw [acceptDiagnostics] at hd
    split at hd
    · rw [List.mem_singleton] at hd
      exact hplain (hd ▸ rfl) (hd ▸ rfl)
    · cases hd
  · exact h.transitionDiagnostics hd
  · exact h.danglingDiagnostics hd
  · exact h.symbolDiagnostics hd
  · exact h.reachabilityDiagnostics hd

lemma requireAtoms_sources : Name.requireAtoms (A.transitions.map Transition.source) = .ok () :=
  Name.requireAtoms_of_isText (List.forall_mem_map.2 fun t ht => (h.transitions t ht).2.1)

lemma requireAtoms_targets {p : Transition → Bool} :
    Name.requireAtoms ((A.transitions.filter p).map Transition.target) = .ok () := by
  refine Name.requireAtoms_of_isText (List.forall_mem_map.2 fun t ht => ?_)
  exact (h.transitions t (List.mem_filter.1 ht).1).2.2

lemma validated : A.validated = .ok A.validate := by
  have hlisted : Name.requireTexts (A.validate.flatMap Diagnostic.listed) = .ok () := by
    refine Name.requireTexts_of_isText fun n hn => ?_
    obtain ⟨d, hd, hn⟩ := List.mem_flatMap.1 hn
    exact (h.validate hd).listed n hn
  rw [Automaton.validated]
  split
  · rfl
  · rw [h.requireAtoms_sources, h.requireAtoms_targets, hlisted]
    rfl

end Worded

end Automaton

end DfaWorkbench
