import DfaWorkbench.Proofs.Automaton.Reachability
import DfaWorkbench.Proofs.Simulation.Verdict
import DfaWorkbench.Proofs.Validation.Checks

/-! The states that the search reaches are those that some run comes to. -/

namespace DfaWorkbench.Automaton

variable {A : Automaton} {q s : State} {word : List Char} {ms : List Move} {k : Key}

def EndsIn (A : Automaton) (word : List Char) (id : Key) : Prop :=
  ∃ s, A.simulate word = .ok s ∧ s.stuckSymbol = none ∧ s.stepIndex = word.length ∧
    s.current?.map State.key = some id

def Visits (A : Automaton) (word : List Char) (id : Key) : Prop :=
  ∃ n s, Simulator.begin A word >>= Simulator.stepFor n = .ok s ∧
    s.current?.map State.key = some id

lemma chain_lastFrom (hq : q ∈ A.states) (hp : ms <+: A.movesFrom q word) :
    A.Chain q.key (Move.lastFrom q ms).key := by
  induction ms using List.reverseRecOn with
  | nil => exact .here (hasState_iff.2 ⟨q, hq, rfl⟩)
  | append_singleton ms m ih =>
    obtain ⟨_, _, hnext⟩ := movesFrom_concat hp
    obtain ⟨t, hfirst, htarget⟩ := next?_eq_some_iff.1 hnext
    obtain ⟨ht, hsource, _⟩ := mem_of_firstOn? hfirst
    obtain ⟨hm, hk⟩ := state?_eq_some_iff.1 htarget
    rw [Move.lastFrom_append, hk]
    exact .step (ih ((List.prefix_append ms [m]).trans hp)) ht hsource
      (hasState_iff.2 ⟨m.target, hm, hk⟩)

lemma Deterministic.exists_moves_of_chain (h : A.Deterministic) (hc : A.Chain s.key k) :
    ∃ word, (A.movesFrom s word).length = word.length ∧
      (Move.lastFrom s (A.movesFrom s word)).key = k := by
  induction hc with
  | here _ => exact ⟨[], rfl, rfl⟩
  | @step _ t _ ht hsource _ ih =>
    obtain ⟨word, hlength, hlast⟩ := ih
    obtain ⟨p, hp⟩ := h.target_known ht
    have hfirst := h.firstOn?_eq_some_iff.2 ⟨ht, hsource.trans hlast.symm, rfl⟩
    have hnext := next?_eq_some_iff.2 ⟨t, hfirst, hp⟩
    have hmoves : A.movesFrom s (word ++ [t.symbol]) =
        A.movesFrom s word ++ [⟨Move.lastFrom s (A.movesFrom s word), t.symbol, p⟩] := by
      rw [movesFrom_append hlength, movesFrom_singleton hnext]
    refine ⟨word ++ [t.symbol], ?_, ?_⟩
    · rw [hmoves, List.length_append, List.length_append, hlength]
      rfl
    · rw [hmoves, Move.lastFrom_append]
      exact (state?_eq_some_iff.1 hp).2

lemma mem_reachable_iff (hs : A.startState? = some s) : k ∈ A.reachable ↔ A.Chain s.key k := by
  rw [reachable, hs, mem_reachableFrom_iff]

lemma endsIn_iff (hA : A.isReady = true) (hs : A.startState? = some s) : A.EndsIn word k ↔
    (A.movesFrom s word).length = word.length ∧
      (Move.lastFrom s (A.movesFrom s word)).key = k := by
  have hle := A.length_movesFrom_le s word
  simp only [EndsIn, simulate_of_isReady hA hs, Except.ok.injEq, exists_eq_left', Simulator.atEnd]
  split
  · next hl =>
    have hne : (A.movesFrom s word).length ≠ word.length := by omega
    simp [Simulator.stuckAt, Simulator.along, hl, hne]
  · next hl => simp [Simulator.along]

lemma Visits.chain (hA : A.isReady = true) (hs : A.startState? = some s)
    (h : A.Visits word k) : A.Chain s.key k := by
  obtain ⟨n, sim, hrun, hcurrent⟩ := h
  rw [Simulator.begin_of_isReady hA hs] at hrun
  have hon : Simulator.OnRun A s word sim :=
    (Simulator.OnRun.along List.nil_prefix).stepFor (isReady_iff_deterministic.1 hA) hrun
  obtain ⟨ms, hp, hlast⟩ := hon.exists_moves
  rw [hlast, Option.map_some, Option.some.injEq] at hcurrent
  rw [← hcurrent]
  exact chain_lastFrom (startState_mem hs) hp

lemma EndsIn.visits (h : A.EndsIn word k) : A.Visits word k := by
  obtain ⟨sim, hsim, _, _, hcurrent⟩ := h
  obtain ⟨b, hb, hrun⟩ := Result.bind_eq_ok.1 hsim
  refine ⟨b.input.length - b.stepIndex, sim, ?_, hcurrent⟩
  rw [hb]
  exact hrun

lemma mem_reachable_iff_endsIn (hA : A.isReady = true) :
    k ∈ A.reachable ↔ ∃ word, A.EndsIn word k := by
  obtain ⟨s, hs⟩ := Simulator.startState?_of_isReady hA
  rw [mem_reachable_iff hs]
  constructor
  · intro hc
    obtain ⟨word, hends⟩ := (isReady_iff_deterministic.1 hA).exists_moves_of_chain hc
    exact ⟨word, (endsIn_iff hA hs).2 hends⟩
  · rintro ⟨word, hends⟩
    exact hends.visits.chain hA hs

lemma mem_reachable_iff_visits (hA : A.isReady = true) :
    k ∈ A.reachable ↔ ∃ word, A.Visits word k := by
  constructor
  · intro hk
    obtain ⟨word, hends⟩ := (mem_reachable_iff_endsIn hA).1 hk
    exact ⟨word, hends.visits⟩
  · rintro ⟨word, hvisits⟩
    obtain ⟨s, hs⟩ := Simulator.startState?_of_isReady hA
    exact (mem_reachable_iff hs).2 (hvisits.chain hA hs)

lemma unreachableStates_of_isReady (hA : A.isReady = true) :
    A.unreachableStates = A.states.filter fun q => q.key ∉ A.reachable := by
  obtain ⟨s, hs⟩ := Simulator.startState?_of_isReady hA
  simp only [unreachableStates, reachable, hs]

lemma exists_accepts_iff (hA : A.isReady = true) :
    (∃ word, A.Accepts word) ↔ ∃ q ∈ A.acceptStates, q.key ∈ A.reachable := by
  obtain ⟨s, hs⟩ := Simulator.startState?_of_isReady hA
  have h := isReady_iff_deterministic.1 hA
  have hmem := startState_mem hs
  simp only [accepts_iff_acceptsFrom hA hs, h.acceptsFrom_iff hmem]
  constructor
  · rintro ⟨word, _, hacc⟩
    have hq : Move.lastFrom s (A.movesFrom s word) ∈ A.states :=
      lastFrom_mem hmem List.prefix_rfl
    exact ⟨_, mem_acceptStates.2 ⟨hq, hacc⟩,
      (mem_reachable_iff hs).2 (chain_lastFrom hmem List.prefix_rfl)⟩
  · rintro ⟨q, hq, hreach⟩
    obtain ⟨hq, hacc⟩ := mem_acceptStates.1 hq
    obtain ⟨word, hlength, hlast⟩ := h.exists_moves_of_chain ((mem_reachable_iff hs).1 hreach)
    refine ⟨word, hlength, ?_⟩
    rwa [eq_of_key_eq (lastFrom_mem hmem List.prefix_rfl) hq hlast]

section

open scoped Classical

/-- In a ready automaton the search reaches a state exactly if the run of some word ends in it.
The list of the other states and the warnings about them name the states that no run visits, in
their order, and some word is accepted exactly if an accepting state is reached. -/
theorem reachable_iff_visited (A : Automaton) (hA : A.isReady = true) :
    (∀ q ∈ A.states, q.key ∈ A.reachable ↔ ∃ word, A.EndsIn word q.key) ∧
      A.unreachableStates = A.states.filter (fun q => ∀ word, ¬ A.Visits word q.key) ∧
      (∃ ds, A.validated = .ok ds ∧
        (ds.filter (·.kind = .unreachable)).map Diagnostic.affected =
          (A.states.filter fun q => ∀ word, ¬ A.Visits word q.key).map fun q => [q.id]) ∧
      ((∃ word, A.Accepts word) ↔ ∃ q ∈ A.acceptStates, q.key ∈ A.reachable) := by
  have hunreachable :
      A.unreachableStates = A.states.filter (fun q => ∀ word, ¬ A.Visits word q.key) := by
    rw [unreachableStates_of_isReady hA]
    refine List.filter_congr fun q _ => decide_eq_decide.2 ?_
    rw [mem_reachable_iff_visits hA, not_exists]
  refine ⟨fun q _ => mem_reachable_iff_endsIn hA, hunreachable, ?_, exists_accepts_iff hA⟩
  refine ⟨A.validate, validated_of_isReady hA, ?_⟩
  rw [filter_unreachable_validate, affected_reachabilityDiagnostics, hunreachable]

end

def stranded : Automaton where
  states :=
    [⟨"home", "home", .start, State.origin, by decide, by decide⟩,
      ⟨"isle", "isle", .accept, State.origin, by decide, by decide⟩]
  transitions := [⟨"stay", "home", "home", '0', by decide, by decide⟩]
  alphabet := ["0", "1"]
  keys_nodup := by decide
  ids_atoms := by decide
  alphabet_nodup := by decide
  alphabet_atoms := by decide

theorem reachable_iff_visited_stranded : stranded.isReady = true ∧
    (∃ word, stranded.EndsIn word (.text "home")) ∧
    (∀ word, ¬ stranded.Visits word (.text "isle")) ∧ ¬ ∃ word, stranded.Accepts word := by
  have hready : stranded.isReady = true := by decide
  obtain ⟨hends, hlist, _, haccepts⟩ := reachable_iff_visited stranded hready
  refine ⟨hready, (hends _ List.mem_cons_self).1 (by decide), ?_, ?_⟩
  · have hnone : ∀ q ∈ stranded.unreachableStates, ∀ word, ¬ stranded.Visits word q.key := by
      intro q hq
      simp only [hlist, List.mem_filter, decide_eq_true_eq] at hq
      exact hq.2
    exact hnone _ (List.mem_singleton_self _)
  · rw [haccepts]
    decide

end DfaWorkbench.Automaton
