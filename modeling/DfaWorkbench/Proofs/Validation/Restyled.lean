import DfaWorkbench.Gallery
import DfaWorkbench.Proofs.Automaton.Restyled
import DfaWorkbench.Proofs.Simulation.Runs

/-! How states are shown does not interfere with what an automaton does. Automata that differ only
in that have the same faults and run every word alike. -/

namespace DfaWorkbench

namespace Automaton

def Labelled (A : Automaton) : Prop :=
  ∀ q ∈ A.states, q.label.isText = true

end Automaton

/-- A diagnostic of one automaton as that of another one: the names that they list can be joined
alike, unless that is up to labels. -/
structure Diagnostic.Restyled (A B : Automaton) (d e : Diagnostic) : Prop where
  kind : d.kind = e.kind
  affected : d.affected = e.affected
  listed : A.Labelled → B.Labelled → d.listed.all Name.isText = e.listed.all Name.isText

namespace Automaton

open Diagnostic

variable {A B : Automaton} {p q : State} {word : List Char}

lemma Labelled.all_isText (h : A.Labelled) {qs : List State} (hqs : ∀ q ∈ qs, q ∈ A.states) :
    (qs.map State.label).all Name.isText = true := by
  simp only [List.all_map, List.all_eq_true]
  exact fun q hq => h q (hqs q hq)

namespace Restyled

variable (h : A.Restyled B)

lemma diagnostics_refl (ds : List Diagnostic) : List.Forall₂ (Diagnostic.Restyled A B) ds ds :=
  List.forall₂_same.2 fun _ _ => ⟨rfl, rfl, fun _ _ => rfl⟩

include h

lemma startDiagnostics :
    List.Forall₂ (Diagnostic.Restyled A B) A.startDiagnostics B.startDiagnostics := by
  have hstarts := h.startStates
  have hA : ∀ q ∈ A.startStates, q ∈ A.states := fun q hq => List.mem_of_mem_filter hq
  have hB : ∀ q ∈ B.startStates, q ∈ B.states := fun q hq => List.mem_of_mem_filter hq
  rw [Automaton.startDiagnostics, Automaton.startDiagnostics]
  generalize A.startStates = ps, B.startStates = qs at hstarts hA hB
  have hids : ps.map State.id = qs.map State.id :=
    Sequence.map_eq_of_forall₂ (fun _ _ hpq => hpq.id) hstarts
  cases hstarts with
  | nil => exact .cons ⟨rfl, rfl, fun _ _ => rfl⟩ .nil
  | cons hpq hrest =>
    cases hrest with
    | nil => exact .nil
    | cons _ _ =>
      exact .cons ⟨rfl, hids, fun hl hl' => (hl.all_isText hA).trans (hl'.all_isText hB).symm⟩ .nil

lemma acceptDiagnostics :
    List.Forall₂ (Diagnostic.Restyled A B) A.acceptDiagnostics B.acceptDiagnostics := by
  have haccept := h.acceptStates
  rw [Automaton.acceptDiagnostics, Automaton.acceptDiagnostics]
  generalize A.acceptStates = ps, B.acceptStates = qs at haccept
  cases haccept with
  | nil => exact diagnostics_refl _
  | cons _ _ => exact .nil

lemma choice (p q : State) (a : Name) (ts : List Transition) :
    Diagnostic.Restyled A B (A.choice p a ts) (B.choice q a ts) where
  kind := rfl
  affected := rfl
  listed hA hB := by
    have hlabels (t : Transition) :
        (A.labelOf t.target).isText = (B.labelOf t.target).isText :=
      h.isText_labelOf hA hB t.target
    simp only [Automaton.choice, listed, List.all_map, Function.comp_def, hlabels]

lemma declaredDiagnostics (moves : MoveIndex) (hpq : p.Restyled q) (a : Name) :
    List.Forall₂ (Diagnostic.Restyled A B) (A.declaredDiagnostics moves p a)
      (B.declaredDiagnostics moves q a) := by
  rw [Automaton.declaredDiagnostics, Automaton.declaredDiagnostics, hpq.key]
  rcases Sequence.members moves (q.key, a.key) with _ | ⟨t, _ | ⟨u, ts⟩⟩
  · exact .cons ⟨rfl, congrArg ([·]) hpq.id, fun _ _ => rfl⟩ .nil
  · exact .nil
  · exact .cons (h.choice p q a _) .nil

lemma undeclaredDiagnostics (moves : MoveIndex) (hpq : p.Restyled q) (a : String) :
    List.Forall₂ (Diagnostic.Restyled A B) (A.undeclaredDiagnostics moves p a)
      (B.undeclaredDiagnostics moves q a) := by
  rw [Automaton.undeclaredDiagnostics, Automaton.undeclaredDiagnostics, hpq.key]
  split
  · exact .cons (h.choice p q a _) .nil
  · exact .nil

lemma declares (t : Transition) : A.declares t = B.declares t := by
  rw [Automaton.declares, Automaton.declares, h.alphabet]

lemma undeclaredSymbols (leaving : SourceIndex) (hpq : p.Restyled q) :
    A.undeclaredSymbols leaving p = B.undeclaredSymbols leaving q := by
  simp only [Automaton.undeclaredSymbols, hpq.key, h.declares]

lemma transitionDiagnostics :
    List.Forall₂ (Diagnostic.Restyled A B) A.transitionDiagnostics B.transitionDiagnostics := by
  simp only [Automaton.transitionDiagnostics, h.bySource, h.bySourceAndSymbol, h.alphabet]
  refine List.rel_flatMap h.states fun p q hpq => ?_
  rw [h.undeclaredSymbols _ hpq]
  exact List.rel_append (Sequence.forall₂_flatMap fun a => h.declaredDiagnostics _ hpq a)
    (Sequence.forall₂_flatMap fun a => h.undeclaredDiagnostics _ hpq a)

lemma danglingDiagnostics : A.danglingDiagnostics = B.danglingDiagnostics := by
  simp only [Automaton.danglingDiagnostics, h.transitions, h.joins]

lemma symbolDiagnostics : A.symbolDiagnostics = B.symbolDiagnostics := by
  simp only [Automaton.symbolDiagnostics, h.transitions, h.declares]

lemma reachabilityDiagnostics :
    List.Forall₂ (Diagnostic.Restyled A B) A.reachabilityDiagnostics B.reachabilityDiagnostics := by
  have hstart := h.startState?
  rw [Automaton.reachabilityDiagnostics, Automaton.reachabilityDiagnostics]
  generalize A.startState? = s, B.startState? = t at hstart
  cases hstart with
  | none => exact .nil
  | some _ =>
    refine List.rel_map (fun p q hpq => ?_) h.unreachableStates
    exact ⟨rfl, congrArg ([·]) hpq.id, fun _ _ => rfl⟩

lemma validate : List.Forall₂ (Diagnostic.Restyled A B) A.validate B.validate := by
  rw [Automaton.validate, Automaton.validate, Sequence.isEmpty_eq_of_forall₂ h.states,
    h.danglingDiagnostics, h.symbolDiagnostics]
  split
  · exact diagnostics_refl _
  · refine List.rel_append (List.rel_append (List.rel_append (List.rel_append (List.rel_append
      ?_ ?_) ?_) ?_) ?_) ?_
    · exact h.startDiagnostics
    · exact h.acceptDiagnostics
    · exact h.transitionDiagnostics
    · exact diagnostics_refl _
    · exact diagnostics_refl _
    · exact h.reachabilityDiagnostics

lemma validated (hA : A.Labelled) (hB : B.Labelled) :
    B.validated = A.validated.map fun _ => B.validate := by
  have hlisted : (B.validate.flatMap listed).all Name.isText =
      (A.validate.flatMap listed).all Name.isText := by
    rw [List.all_flatMap, List.all_flatMap]
    exact (Sequence.all_eq_of_forall₂ (fun _ _ hde => hde.listed hA hB) h.validate).symm
  simp only [Automaton.validated, Name.requireTexts, hlisted, ← h.transitions, ← h.hasState,
    Sequence.isEmpty_eq_of_forall₂ h.states]
  split
  · rfl
  · simp only [Result.map_bind]
    rfl

lemma isReady : A.isReady = B.isReady := by
  refine Sequence.isEmpty_eq_of_forall₂ (List.rel_filter (fun d e hde => ?_) h.validate)
  show d.isError = true ↔ e.isError = true
  rw [isError, isError, severity, severity, hde.kind]

end Restyled

end Automaton

structure Move.Restyled (m n : Move) : Prop where
  source : m.source.Restyled n.source
  symbol : m.symbol = n.symbol
  target : m.target.Restyled n.target

structure Simulator.Restyled (s t : Simulator) : Prop where
  status : s.status = t.status
  state : s.current?.map State.id = t.current?.map State.id
  stepIndex : s.stepIndex = t.stepIndex
  stuckSymbol : s.stuckSymbol = t.stuckSymbol
  symbols : s.history.map (·.2.1) = t.history.map (·.2.1)

lemma Move.restyled_lastFrom {p q : State} {ms ns : List Move} (hpq : p.Restyled q)
    (h : List.Forall₂ Move.Restyled ms ns) : (lastFrom p ms).Restyled (lastFrom q ns) := by
  induction h generalizing p q with
  | nil => exact hpq
  | cons hmn _ ih => exact ih hmn.target

lemma Simulator.restyled_along {A B : Automaton} {p q : State} {ms ns : List Move}
    (word : List Char) (hpq : p.Restyled q) (h : List.Forall₂ Move.Restyled ms ns) :
    (along A p word ms).Restyled (along B q word ns) := by
  have hlast := Move.restyled_lastFrom hpq h
  have hsymbols : ms.map Move.symbol = ns.map Move.symbol :=
    Sequence.map_eq_of_forall₂ (fun _ _ hmn => hmn.symbol) h
  refine ⟨?_, congrArg some hlast.id, h.length_eq, rfl, ?_⟩
  · simp only [along, h.length_eq, hlast.isAccept]
  · simpa only [along, List.map_map] using! hsymbols

namespace Automaton.Restyled

variable {A B : Automaton} {p q : State} (h : A.Restyled B)

include h

lemma next? (hpq : p.Restyled q) (a : Char) :
    Option.Rel State.Restyled (A.next? p a) (B.next? q a) := by
  rw [Automaton.next?, Automaton.next?, firstOn?, firstOn?, hpq.key, h.transitions]
  cases B.transitions.find? fun t => t.source.key = q.key && t.symbol = a with
  | none => exact .none
  | some t => exact h.state? t.target.key

lemma movesFrom (hpq : p.Restyled q) (word : List Char) :
    List.Forall₂ Move.Restyled (A.movesFrom p word) (B.movesFrom q word) := by
  induction word generalizing p q with
  | nil => exact .nil
  | cons a word ih =>
    have hnext := h.next? hpq a
    rw [Automaton.movesFrom, Automaton.movesFrom]
    generalize A.next? p a = x, B.next? q a = y at hnext
    cases hnext with
    | none => exact .nil
    | some hxy => exact .cons ⟨hpq, rfl, hxy⟩ (ih hxy)

lemma atEnd (hpq : p.Restyled q) (word : List Char) :
    (Simulator.atEnd A p word).Restyled (Simulator.atEnd B q word) := by
  have hmoves := h.movesFrom hpq word
  have halong := Simulator.restyled_along (A := A) (B := B) word hpq hmoves
  rw [Simulator.atEnd, Simulator.atEnd, hmoves.length_eq]
  split
  · refine ⟨rfl, halong.state, halong.stepIndex, ?_, halong.symbols⟩
    simp only [Simulator.stuckAt, hmoves.length_eq]
  · exact halong

lemma simulate (hA : A.isReady = true) (word : List Char) :
    ∃ s t, A.simulate word = .ok s ∧ B.simulate word = .ok t ∧ s.Restyled t := by
  have hB : B.isReady = true := h.isReady ▸ hA
  obtain ⟨p, hp⟩ := Simulator.startState?_of_isReady hA
  obtain ⟨q, hq⟩ := Simulator.startState?_of_isReady hB
  have hpq := h.startState?
  rw [hp, hq] at hpq
  cases hpq with
  | some hpq => exact ⟨_, _, simulate_of_isReady hA hp word, simulate_of_isReady hB hq word,
      h.atEnd hpq word⟩

end Automaton.Restyled

namespace Automaton

open Diagnostic

/-- Labels, positions, and whether a state is marked as dead have no influence. Two automata that
differ only in these have the same faults in the same order, reach the same states, and run every
word to the same end, if they are ready. -/
theorem validate_simulate_of_restyled (A B : Automaton) (h : A.Restyled B) :
    A.validate.length = B.validate.length ∧
    List.Forall₂ (fun d e => d.kind = e.kind ∧ d.severity = e.severity ∧ d.affected = e.affected)
      A.validate B.validate ∧
    (A.Labelled → B.Labelled →
      (∀ e, A.validated = .error e → B.validated = .error e) ∧
      ∀ ds, A.validated = .ok ds → ds = A.validate ∧ B.validated = .ok B.validate) ∧
    (∀ k, A.reachableFrom k = B.reachableFrom k) ∧
    (∀ id, A.namesReachedFrom id = B.namesReachedFrom id) ∧
    A.isReady = B.isReady ∧
    (A.isReady = true → ∀ word, ∃ s t, A.simulate word = .ok s ∧ B.simulate word = .ok t ∧
      s.status = t.status ∧ s.current?.map State.id = t.current?.map State.id ∧
      s.stepIndex = t.stepIndex ∧ s.stuckSymbol = t.stuckSymbol ∧
      s.history.map (·.2.1) = t.history.map (·.2.1)) := by
  refine ⟨h.validate.length_eq, h.validate.imp fun d e hde => ?_, fun hA hB => ?_,
    h.reachableFrom, h.namesReachedFrom, h.isReady, fun hA word => ?_⟩
  · exact ⟨hde.kind, congrArg DiagnosticKind.severity hde.kind, hde.affected⟩
  · rw [h.validated hA hB]
    refine ⟨fun e he => by rw [he]; rfl, fun ds hds => ⟨eq_validate_of_validated hds, ?_⟩⟩
    rw [hds]
    rfl
  · obtain ⟨s, t, hs, ht, hst⟩ := h.simulate hA word
    exact ⟨s, t, hs, ht, hst.status, hst.state, hst.stepIndex, hst.stuckSymbol, hst.symbols⟩

def trap : Automaton where
  states :=
    [⟨"in", "in", .startAccept, State.origin, by decide, by decide⟩,
      ⟨"out", "out", .dead, State.origin, by decide, by decide⟩]
  transitions := [⟨"fall", "in", "out", 't', by decide, by decide⟩]
  alphabet := ["t"]
  keys_nodup := by decide
  ids_atoms := by decide
  alphabet_nodup := by decide
  alphabet_atoms := by decide

def disguisedTrap : Automaton where
  states :=
    [⟨"in", "out", .startAccept, [], by decide, by decide⟩,
      ⟨"out", "in", .normal, samplePlace 300, by decide, by decide⟩]
  transitions := trap.transitions
  alphabet := trap.alphabet
  keys_nodup := by decide
  ids_atoms := by decide
  alphabet_nodup := by decide
  alphabet_atoms := by decide

theorem validate_simulate_of_restyled_trap : trap.Restyled disguisedTrap ∧
    disguisedTrap.validate.length = 1 ∧ disguisedTrap.reachableFrom (.text "in") =
      [.text "in", .text "out"] ∧
    ∃ t, disguisedTrap.simulate ['t', 't'] = .ok t ∧ t.status = .rejected ∧
      t.current?.map State.id = some "out" ∧ t.stepIndex = 1 := by
  have h : trap.Restyled disguisedTrap :=
    ⟨.cons ⟨rfl, rfl, rfl⟩ (.cons ⟨rfl, rfl, rfl⟩ .nil), rfl, rfl⟩
  obtain ⟨hlength, _, _, hreachable, _, _, hrun⟩ := validate_simulate_of_restyled _ _ h
  obtain ⟨s, t, hs, ht, hstatus, hstate, hstep, _⟩ := hrun (by decide) ['t', 't']
  have hs' : trap.simulate ['t', 't'] = .ok ⟨.rejected, some trap, ['t', 't'], trap.states[1]?, 1,
      some 't', ["in", "out"], [("in", 't', "out")]⟩ := rfl
  obtain rfl := Except.ok.inj (hs.symm.trans hs')
  exact ⟨h, hlength.symm, (hreachable _).symm, t, ht, hstatus.symm, hstate.symm, hstep.symm⟩

end Automaton

end DfaWorkbench
