import DfaWorkbench.Proofs.Automaton.Restriction
import DfaWorkbench.Proofs.Conversion.FullAutomaton
import DfaWorkbench.Proofs.Simulation.Verdict

/-! The automaton of a grammar accepts the words that the grammar generates: of the automaton of all
non-terminals, no part is lost that a word could lead to. -/

namespace DfaWorkbench

variable {g : Grammar} {settings : Settings} {A M : Automaton} {ids : List Key} {id : Key}

namespace Automaton

lemma acceptsFrom_restrict
    (hids : ∀ t ∈ A.transitions, t.source.key ∈ ids → t.target.key ∈ ids) (hid : id ∈ ids)
    (word : List Char) : (A.restrict ids).AcceptsFrom id word ↔ A.AcceptsFrom id word := by
  induction word generalizing id with
  | nil =>
    constructor
    · rintro ⟨q, hq, hk⟩
      obtain ⟨hq, ha⟩ := mem_acceptStates.1 hq
      exact ⟨q, mem_acceptStates.2 ⟨(mem_states_restrict.1 hq).1, ha⟩, hk⟩
    · rintro ⟨q, hq, rfl⟩
      obtain ⟨hq, ha⟩ := mem_acceptStates.1 hq
      exact ⟨q, mem_acceptStates.2 ⟨mem_states_restrict.2 ⟨hq, hid⟩, ha⟩, rfl⟩
  | cons a word ih =>
    constructor
    · rintro ⟨t, ht, hs, ha, hacc⟩
      obtain ⟨ht, _, htarget⟩ := mem_transitions_restrict.1 ht
      exact ⟨t, ht, hs, ha, (ih htarget).1 hacc⟩
    · rintro ⟨t, ht, rfl, ha, hacc⟩
      have htarget := hids t ht hid
      exact ⟨t, mem_transitions_restrict.2 ⟨ht, hid, htarget⟩, rfl, ha, (ih htarget).2 hacc⟩

lemma startState?_eq_some {q : State} (hq : q ∈ A.startStates)
    (h : ∀ p ∈ A.startStates, p.key = q.key) : A.startState? = some q := by
  have hnodup : (A.startStates.map State.key).Nodup :=
    A.keys_nodup.sublist (List.filter_sublist.map State.key)
  rw [startState?]
  rcases hs : A.startStates with _ | ⟨p, _ | ⟨r, ps⟩⟩
  · simp [hs] at hq
  · simp_all
  · have hpr : p.key = r.key := by rw [h p (by simp [hs]), h r (by simp [hs])]
    simp [hs, hpr] at hnodup

end Automaton

namespace Grammar

lemma Describes.target_known (h : g.Describes settings A) {t : Transition}
    (ht : t ∈ A.transitions) : A.hasState t.target.key = true := by
  obtain ⟨⟨head, p⟩, hstep, arc, harc, _, _, htarget⟩ := h.isTransitionOf t ht
  rw [Automaton.hasState_iff, htarget]
  cases arc with
  | stop a => exact h.sink_state (needsSink_of_stop hstep harc)
  | go a next =>
    obtain ⟨head', hhead, hk⟩ := isNonTerminal_iff.1 (isNonTerminal_of_arc? harc)
    obtain ⟨q, hq, hqk⟩ := h.head_state head' hhead
    exact ⟨q, hq, hqk.trans hk⟩

lemma Describes.isStart_iff (h : g.Describes settings A) (hg : g.isNonTerminal g.start.key = true)
    {q : State} (hq : q ∈ A.states) : q.isStart = true ↔ q.key = g.start.key := by
  rcases h.isStateOf q hq with ⟨head, _, hk, hstart, _⟩ | ⟨_, hk, hstart, _⟩
  · rw [hstart, hk, decide_eq_true_iff]
  · have hne : q.key ≠ g.start.key := hk ▸ (key_ne_sinkId hg).symm
    simp [hstart, hne]

lemma Describes.start_reachable (h : g.Describes settings A)
    (hg : g.isNonTerminal g.start.key = true) : g.start.key ∈ A.reachableFrom g.start.key := by
  obtain ⟨head, hhead, hk⟩ := isNonTerminal_iff.1 hg
  obtain ⟨q, hq, hqk⟩ := h.head_state head hhead
  rw [Automaton.mem_reachableFrom_iff]
  exact .here (Automaton.hasState_iff.2 ⟨q, hq, hqk.trans hk⟩)

lemma Describes.target_reachable (h : g.Describes settings A) {t : Transition}
    (ht : t ∈ A.transitions) (hs : t.source.key ∈ A.reachableFrom id) :
    t.target.key ∈ A.reachableFrom id := by
  rw [Automaton.mem_reachableFrom_iff] at hs ⊢
  exact hs.step ht rfl (h.target_known ht)

lemma Describes.startState?_restrict (h : g.Describes settings A)
    (hg : g.isNonTerminal g.start.key = true) (hids : g.start.key ∈ ids) :
    ∃ q, (A.restrict ids).startState? = some q ∧ q.key = g.start.key := by
  obtain ⟨head, hhead, hk⟩ := isNonTerminal_iff.1 hg
  obtain ⟨q, hq, hqk⟩ := h.head_state head hhead
  have hqs : q.key = g.start.key := hqk.trans hk
  have hmem : q ∈ (A.restrict ids).states := Automaton.mem_states_restrict.2 ⟨hq, hqs ▸ hids⟩
  refine ⟨q, Automaton.startState?_eq_some ?_ ?_, hqs⟩
  · exact Automaton.mem_startStates.2 ⟨hmem, (h.isStart_iff hg hq).2 hqs⟩
  · intro p hp
    obtain ⟨hp, hps⟩ := Automaton.mem_startStates.1 hp
    rw [hqs, ← h.isStart_iff hg (Automaton.mem_states_restrict.1 hp).1, hps]

lemma exists_full_of_toAutomaton (h : g.toAutomaton settings = .ok M) :
    ∃ A, g.fullAutomaton settings = .ok A ∧ M = A.restrict (A.reachableFrom g.start.key) := by
  obtain ⟨A, hA, h⟩ := Result.bind_eq_ok.1 h
  obtain ⟨k, hk, h⟩ := Result.bind_eq_ok.1 h
  obtain rfl : g.start.key = k := Name.key_of_atomKey (Result.mapError_eq_ok.1 hk)
  refine ⟨A, hA, ?_⟩
  split at h
  · cases h
  · exact (Except.ok.inj h).symm

lemma of_toAutomaton_eq_ok (h : g.toAutomaton settings = .ok M) :
    ∃ A, g.Describes settings A ∧ M = A.restrict (A.reachableFrom g.start.key) := by
  obtain ⟨A, hA, hM⟩ := exists_full_of_toAutomaton h
  exact ⟨A, describes_fullAutomaton hA, hM⟩

lemma isNonTerminal_start_of_make {start : Name} {nonTerminals terminals : List Name}
    {productions : List (Name × List Production)}
    (h : make start nonTerminals terminals productions = .ok g) :
    g.isNonTerminal g.start.key = true := by
  rw [make] at h
  split at h
  · next hs =>
    obtain rfl := Except.ok.inj h
    exact hs
  · cases h

/-- For a grammar whose start symbol is a non-terminal, as `make` asks for: its automaton starts in
the state of that symbol and accepts, by branches, the words that the grammar generates. So does a
simulation whenever the automaton is ready for one. -/
theorem toAutomaton_accepts_iff_generates (hg : g.isNonTerminal g.start.key = true)
    (hM : g.toAutomaton settings = .ok M) (word : List Char) :
    (∃ q, M.startState? = some q ∧ q.key = g.start.key) ∧
      (M.acceptsByBranches word = true ↔ g.Generates word) ∧
      (M.isReady = true →
        ∃ s, M.simulate word = .ok s ∧ (s.status = .accepted ↔ g.Generates word)) := by
  obtain ⟨A, hA, rfl⟩ := of_toAutomaton_eq_ok hM
  have hstart := hA.start_reachable hg
  obtain ⟨q, hq, hqs⟩ := hA.startState?_restrict hg hstart
  have hbranches : (A.restrict (A.reachableFrom g.start.key)).acceptsByBranches word = true ↔
      g.Generates word := by
    rw [Automaton.acceptsByBranches_iff_acceptsFrom hq, hqs,
      Automaton.acceptsFrom_restrict (fun t ht => hA.target_reachable ht) hstart,
      hA.acceptsFrom_iff hg]
    rfl
  refine ⟨⟨q, hq, hqs⟩, hbranches, fun hready => ?_⟩
  obtain ⟨s, hs, hstatus⟩ := Automaton.simulate_accepted_iff hready word
  exact ⟨s, hs, hstatus.trans hbranches⟩

def sample : Grammar where
  start := "S"
  nonTerminals := ["S"]
  terminals := ["a", "b"]
  productions := [("S", [⟨["a", "S"]⟩, ⟨["b"]⟩])]

lemma toAutomaton_sample : ∃ M, sample.toAutomaton {} = .ok M ∧ M.isReady = true := by
  have hsorted : Name.sorted sample.terminals = .ok sample.terminals := by
    rw [Name.sorted, List.mergeSort_of_pairwise (by decide)]
    rfl
  have hready : (sample.toAutomaton {}).map Automaton.isReady = .ok true := by
    rw [toAutomaton, fullAutomaton, hsorted]
    rfl
  cases hM : sample.toAutomaton {} with
  | error e =>
    rw [hM] at hready
    cases hready
  | ok M =>
    rw [hM] at hready
    exact ⟨M, rfl, Except.ok.inj hready⟩

theorem toAutomaton_sample_accepts : sample.isNonTerminal sample.start.key = true ∧
    ∃ M, sample.toAutomaton {} = .ok M ∧ M.isReady = true ∧
      ∃ s, M.simulate ['a', 'b'] = .ok s ∧ s.status = .accepted := by
  obtain ⟨M, hM, hready⟩ := toAutomaton_sample
  have hmake : make "S" ["S"] ["a", "b"] sample.productions = .ok sample := rfl
  have hstart := isNonTerminal_start_of_make hmake
  obtain ⟨_, _, hsim⟩ := toAutomaton_accepts_iff_generates hstart hM ['a', 'b']
  obtain ⟨s, hs, hstatus⟩ := hsim hready
  have hfirst : ⟨[Name.ofChar 'a', "S"]⟩ ∈ sample.productionsFor sample.start.key :=
    List.mem_cons_self
  have hlast : ⟨[Name.ofChar 'b']⟩ ∈ sample.productionsFor sample.start.key :=
    List.mem_cons_of_mem _ List.mem_cons_self
  exact ⟨hstart, M, hM, hready, s, hs, hstatus.2 (.more hfirst (.last hlast))⟩

end Grammar

end DfaWorkbench
