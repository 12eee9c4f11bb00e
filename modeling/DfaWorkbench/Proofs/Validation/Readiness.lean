import Mathlib.Tactic.Common
import DfaWorkbench.Proofs.Automaton.Lookup
import DfaWorkbench.Proofs.Result
import DfaWorkbench.Validation

/-! An automaton is ready exactly if it has one start state, all its transitions join states, and
no two of them leave one state on one symbol. -/

namespace DfaWorkbench.Automaton

open Diagnostic

structure Deterministic (A : Automaton) : Prop where
  start : ∃ q, A.startStates = [q]
  joined : ∀ t ∈ A.transitions, A.joins t = true
  unambiguous : A.transitions.Pairwise fun t u =>
    ¬ (t.source.key = u.source.key ∧ t.symbol = u.symbol)

variable (A : Automaton)

lemma errors_append (ds es : List Diagnostic) :
    Diagnostic.errors (ds ++ es) = Diagnostic.errors ds ++ Diagnostic.errors es :=
  List.filter_append ..

lemma errors_flatMap_eq_nil {α : Type} (xs : List α) (f : α → List Diagnostic) :
    Diagnostic.errors (xs.flatMap f) = [] ↔ ∀ x ∈ xs, Diagnostic.errors (f x) = [] := by
  simp only [Diagnostic.errors, List.filter_eq_nil_iff, List.mem_flatMap]
  constructor
  · intro h x hx d hd
    exact h d ⟨x, hx, hd⟩
  · rintro h d ⟨x, hx, hd⟩
    exact h x hx d hd

lemma errors_map {α : Type} {f : α → Diagnostic} (hf : ∀ x, (f x).isError = false) (xs : List α) :
    Diagnostic.errors (xs.map f) = [] := by
  rw [Diagnostic.errors, List.filter_eq_nil_iff, List.forall_mem_map]
  intro x _
  rw [hf x]
  exact Bool.false_ne_true

lemma errors_startDiagnostics :
    Diagnostic.errors A.startDiagnostics = [] ↔ ∃ q, A.startStates = [q] := by
  rw [startDiagnostics]
  rcases A.startStates with _ | ⟨p, _ | ⟨q, qs⟩⟩
  · simp [Diagnostic.errors, isError, Diagnostic.severity, kind, DiagnosticKind.severity]
  · simp [Diagnostic.errors]
  · simp [Diagnostic.errors, isError, Diagnostic.severity, kind, DiagnosticKind.severity]

lemma errors_acceptDiagnostics : Diagnostic.errors A.acceptDiagnostics = [] := by
  rw [acceptDiagnostics]
  split
  · rfl
  · rfl

lemma errors_declaredDiagnostics (q : State) (a : Name) :
    Diagnostic.errors (A.declaredDiagnostics A.bySourceAndSymbol q a) = [] ↔
      (Sequence.members A.bySourceAndSymbol (q.key, a.key)).length ≤ 1 := by
  rw [declaredDiagnostics]
  rcases Sequence.members A.bySourceAndSymbol (q.key, a.key) with _ | ⟨t, _ | ⟨u, ts⟩⟩
  · simp [Diagnostic.errors, isError, Diagnostic.severity, kind, DiagnosticKind.severity]
  · simp [Diagnostic.errors]
  · simp [Diagnostic.errors, choice, isError, Diagnostic.severity, kind, DiagnosticKind.severity]

lemma errors_undeclaredDiagnostics (q : State) (a : Char) :
    Diagnostic.errors
        (A.undeclaredDiagnostics A.bySourceAndSymbol q (String.singleton a)) = [] ↔
      (A.leaving q.key a).length ≤ 1 := by
  rw [undeclaredDiagnostics]
  simp only [members_on_char]
  split
  · next h =>
    simp [Diagnostic.errors, choice, isError, Diagnostic.severity, kind, DiagnosticKind.severity]
    omega
  · next h => simpa [Diagnostic.errors] using h

lemma mem_undeclaredSymbols (q : State) (s : String) :
    s ∈ A.undeclaredSymbols A.bySource q ↔
      ∃ t ∈ A.transitions, t.source.key = q.key ∧ A.declares t = false ∧ t.symbolText = s := by
  rw [undeclaredSymbols, List.mem_eraseDups, members_bySource]
  simp only [List.mem_map, List.mem_filter, Bool.not_eq_true', decide_eq_true_eq, and_assoc]

lemma length_members_le_one (q : State) (symbol : Key)
    (h : ∀ a, (A.leaving q.key a).length ≤ 1) :
    (Sequence.members A.bySourceAndSymbol (q.key, symbol)).length ≤ 1 := by
  rcases hts : Sequence.members A.bySourceAndSymbol (q.key, symbol) with _ | ⟨t, ts⟩
  · simp
  · have ht : t ∈ Sequence.members A.bySourceAndSymbol (q.key, symbol) := by simp [hts]
    rw [members_bySourceAndSymbol, List.mem_filter, Bool.and_eq_true, decide_eq_true_eq,
      decide_eq_true_eq] at ht
    obtain ⟨_, _, rfl⟩ := ht
    have hl := h t.symbol
    rw [← members_on_char] at hl
    rw [← hts]
    exact hl

lemma errors_transitionDiagnostics :
    Diagnostic.errors A.transitionDiagnostics = [] ↔
      ∀ q ∈ A.states, ∀ a, (A.leaving q.key a).length ≤ 1 := by
  simp only [transitionDiagnostics, errors_flatMap_eq_nil, errors_append, List.append_eq_nil_iff,
    errors_declaredDiagnostics]
  constructor
  · intro h q hq a
    obtain ⟨hd, hu⟩ := h q hq
    by_cases ha : Key.text (String.singleton a) ∈ A.alphabet.map Name.key
    · obtain ⟨n, hn, hk⟩ := List.mem_map.1 ha
      have hl := hd n hn
      rwa [hk, members_on_char] at hl
    · rcases hts : A.leaving q.key a with _ | ⟨t, ts⟩
      · simp
      · have ht : t ∈ A.leaving q.key a := by simp [hts]
        rw [leaving, List.mem_filter, Bool.and_eq_true, decide_eq_true_eq,
          decide_eq_true_eq] at ht
        obtain ⟨ht, hs, rfl⟩ := ht
        have hm : t.symbolText ∈ A.undeclaredSymbols A.bySource q :=
          (A.mem_undeclaredSymbols q _).2 ⟨t, ht, hs, decide_eq_false ha, rfl⟩
        have hl := (A.errors_undeclaredDiagnostics q t.symbol).1 (hu _ hm)
        rwa [hts] at hl
  · intro h q hq
    refine ⟨fun n _ => A.length_members_le_one q n.key (h q hq), fun s hs => ?_⟩
    obtain ⟨t, _, _, _, rfl⟩ := (A.mem_undeclaredSymbols q s).1 hs
    exact (A.errors_undeclaredDiagnostics q t.symbol).2 (h q hq t.symbol)

lemma errors_danglingDiagnostics :
    Diagnostic.errors A.danglingDiagnostics = [] ↔ ∀ t ∈ A.transitions, A.joins t = true := by
  have hall : (∀ t ∈ A.transitions, A.joins t = true) ↔
      A.transitions.filter (!A.joins ·) = [] := by
    simp [List.filter_eq_nil_iff]
  rw [hall, danglingDiagnostics]
  rcases A.transitions.filter (!A.joins ·) with _ | ⟨t, ts⟩
  · simp [Diagnostic.errors]
  · simp [Diagnostic.errors, isError, Diagnostic.severity, kind, DiagnosticKind.severity]

lemma errors_symbolDiagnostics : Diagnostic.errors A.symbolDiagnostics = [] :=
  errors_map (fun _ => rfl) _

lemma errors_reachabilityDiagnostics : Diagnostic.errors A.reachabilityDiagnostics = [] := by
  rw [reachabilityDiagnostics]
  split
  · exact errors_map (fun _ => rfl) _
  · rfl

lemma errors_eq_nil_iff : A.errors = [] ↔
    (∃ q, A.startStates = [q]) ∧ (∀ q ∈ A.states, ∀ a, (A.leaving q.key a).length ≤ 1) ∧
      ∀ t ∈ A.transitions, A.joins t = true := by
  rw [errors, validate]
  split
  · next h =>
    have hs : A.startStates = [] := by simp [startStates, List.isEmpty_iff.1 h]
    simp [hs, Diagnostic.errors, isError, Diagnostic.severity, kind, DiagnosticKind.severity]
  · simp only [errors_append, errors_acceptDiagnostics, errors_symbolDiagnostics,
      errors_reachabilityDiagnostics, List.append_nil, List.append_eq_nil_iff, and_assoc,
      errors_startDiagnostics, errors_transitionDiagnostics, errors_danglingDiagnostics]

variable {A}

lemma Deterministic.length_leaving_le_one (h : A.Deterministic) (id : Key) (a : Char) :
    (A.leaving id a).length ≤ 1 := by
  by_contra hl
  obtain ⟨t, u, ts, hts⟩ : ∃ t u ts, A.leaving id a = t :: u :: ts := by
    rcases hts : A.leaving id a with _ | ⟨t, _ | ⟨u, ts⟩⟩
    · simp [hts] at hl
    · simp [hts] at hl
    · exact ⟨t, u, ts, rfl⟩
  have hmem (v : Transition) (hv : v ∈ A.leaving id a) : v.source.key = id ∧ v.symbol = a := by
    simpa using (List.mem_filter.1 hv).2
  have ht := hmem t (by simp [hts])
  have hu := hmem u (by simp [hts])
  have hp : (A.leaving id a).Pairwise fun t u =>
      ¬ (t.source.key = u.source.key ∧ t.symbol = u.symbol) :=
    h.unambiguous.sublist List.filter_sublist
  rw [hts] at hp
  exact List.rel_of_pairwise_cons hp List.mem_cons_self
    ⟨ht.1.trans hu.1.symm, ht.2.trans hu.2.symm⟩

lemma isReady_iff_deterministic : A.isReady = true ↔ A.Deterministic := by
  rw [isReady, List.isEmpty_iff, errors_eq_nil_iff]
  constructor
  · rintro ⟨hs, hl, hj⟩
    refine ⟨hs, hj, List.pairwise_of_forall_sublist fun {t u} htu heq => ?_⟩
    obtain ⟨⟨q, hq, hk⟩, _⟩ := joins_iff.1 (hj t (htu.subset List.mem_cons_self))
    have hf := htu.filter fun v => v.source.key = t.source.key && v.symbol = t.symbol
    have hle := hf.length_le
    rw [List.filter_cons_of_pos (by simp), List.filter_cons_of_pos (by simp [heq.1, heq.2])] at hle
    have hone := hl q hq t.symbol
    rw [hk, leaving] at hone
    simp only [List.filter_nil, List.length_cons, List.length_nil] at hle
    omega
  · intro h
    exact ⟨h.start, fun q _ a => h.length_leaving_le_one q.key a, h.joined⟩

lemma errors_eq_nil_of_isReady (h : A.isReady = true) : Diagnostic.errors A.validate = [] :=
  List.isEmpty_iff.1 h

lemma isAtom_of_mem_states {q : State} (hq : q ∈ A.states) : q.key.isAtom = true := by
  rw [State.key, Name.isAtom_key]
  exact A.ids_atoms q hq

lemma isAtom_of_joins {t : Transition} (h : A.joins t = true) :
    t.source.isAtom = true ∧ t.target.isAtom = true := by
  obtain ⟨⟨p, hp, hs⟩, r, hr, ht⟩ := joins_iff.1 h
  rw [← Name.isAtom_key, ← Name.isAtom_key, ← hs, ← ht]
  exact ⟨isAtom_of_mem_states hp, isAtom_of_mem_states hr⟩

section Joined

variable (hjoined : ∀ t ∈ A.transitions, A.joins t = true)

include hjoined

lemma sources_atoms : (A.transitions.map Transition.source).all Name.isAtom = true := by
  simp only [List.all_map, List.all_eq_true]
  exact fun t ht => (isAtom_of_joins (hjoined t ht)).1

lemma targets_atoms : (A.transitions.map Transition.target).all Name.isAtom = true := by
  simp only [List.all_map, List.all_eq_true]
  exact fun t ht => (isAtom_of_joins (hjoined t ht)).2

lemma validated_of_joined
    (hlisted : (A.validate.flatMap Diagnostic.listed).all Name.isText = true) :
    A.validated = .ok A.validate := by
  have htarget : ((A.transitions.filter (A.hasState ·.source.key)).map Transition.target).all
      Name.isAtom = true := by
    simp only [List.all_map, List.all_eq_true]
    exact fun t ht => (isAtom_of_joins (hjoined t (List.mem_filter.1 ht).1)).2
  rw [validated]
  split
  · rfl
  · simp only [Name.requireAtoms, Name.requireTexts, sources_atoms hjoined, htarget, hlisted,
      if_true]
    rfl

end Joined

lemma listed_eq_nil {d : Diagnostic} (h : d.isError = false) : d.listed = [] := by
  cases d with
  | multipleStart | nonDeterministic | dangling =>
    simp [Diagnostic.isError, Diagnostic.severity, Diagnostic.kind, DiagnosticKind.severity] at h
  | _ => rfl

lemma validated_of_isReady (h : A.isReady = true) : A.validated = .ok A.validate := by
  have hlisted : A.validate.flatMap Diagnostic.listed = [] := by
    rw [List.flatMap_eq_nil_iff]
    intro d hmem
    apply listed_eq_nil
    exact Bool.eq_false_iff.2 (List.filter_eq_nil_iff.1 (errors_eq_nil_of_isReady h) d hmem)
  exact validated_of_joined (isReady_iff_deterministic.1 h).joined (by rw [hlisted]; rfl)

lemma eq_validate_of_validated {ds : List Diagnostic} (h : A.validated = .ok ds) :
    ds = A.validate := by
  rw [validated] at h
  split at h
  · exact (Except.ok.inj h).symm
  · simp only [Result.bind_eq_ok] at h
    obtain ⟨_, _, _, _, _, _, h⟩ := h
    exact (Except.ok.inj h).symm

lemma startStates_eq_singleton_iff :
    (∃ q, A.startStates = [q]) ↔ ∃! q, q ∈ A.states ∧ q.isStart = true := by
  have hmem (q : State) : q ∈ A.startStates ↔ q ∈ A.states ∧ q.isStart = true := List.mem_filter
  have hnodup : A.startStates.Nodup := (List.Nodup.of_map _ A.keys_nodup).filter _
  simp only [← hmem]
  constructor
  · rintro ⟨q, hq⟩
    exact ⟨q, by simp [hq], fun p hp => by simpa [hq] using hp⟩
  · rintro ⟨q, hq, hunique⟩
    rcases hs : A.startStates with _ | ⟨p, _ | ⟨r, ps⟩⟩
    · simp [hs] at hq
    · exact ⟨p, rfl⟩
    · have hpr : p = r := by rw [hunique p (by simp [hs]), hunique r (by simp [hs])]
      simp [hs, hpr] at hnodup

theorem isReady_iff (A : Automaton) :
    (A.isReady = true ↔ ∃ ds, A.validated = .ok ds ∧ Diagnostic.errors ds = []) ∧
      (A.isReady = true ↔
        (∃! q, q ∈ A.states ∧ q.isStart = true) ∧
        (∀ t ∈ A.transitions, (∃ p ∈ A.states, p.key = t.source.key) ∧
          ∃ q ∈ A.states, q.key = t.target.key) ∧
        (A.transitions.map fun t => (t.source.key, t.symbol)).Nodup) := by
  have hpairs : (A.transitions.map fun t => (t.source.key, t.symbol)).Nodup ↔
      A.transitions.Pairwise fun t u => ¬ (t.source.key = u.source.key ∧ t.symbol = u.symbol) := by
    simp [List.Nodup, List.pairwise_map]
  simp only [← startStates_eq_singleton_iff, hpairs, ← joins_iff]
  refine ⟨⟨fun h => ?_, ?_⟩, ?_⟩
  · exact ⟨_, validated_of_isReady h, errors_eq_nil_of_isReady h⟩
  · rintro ⟨ds, hds, he⟩
    rw [eq_validate_of_validated hds] at he
    exact List.isEmpty_iff.2 he
  · rw [isReady_iff_deterministic]
    constructor
    · exact fun h => ⟨h.start, h.joined, h.unambiguous⟩
    · rintro ⟨hstart, hjoined, hunambiguous⟩
      exact ⟨hstart, hjoined, hunambiguous⟩

end DfaWorkbench.Automaton
