import DfaWorkbench.Proofs.Automaton.Restriction
import DfaWorkbench.Proofs.Simulation.Visits
import DfaWorkbench.Proofs.Validation.Edits

/-! States that cannot be reached may be taken out, in any order: no run ever comes to them. -/

namespace DfaWorkbench

variable {A B : Automaton} {q s : State} {ids : List Key} {word : List Char} {k : Key}

lemma Simulator.atEnd_congr (h : B.movesFrom q word = A.movesFrom q word) :
    atEnd B q word = { atEnd A q word with automaton? := some B } := by
  rw [atEnd, atEnd, stuckAt, stuckAt, along, along, h]
  split <;> rfl

namespace Automaton

lemma leaving_restrict
    (hids : ∀ t ∈ A.transitions, t.source.key ∈ ids → t.target.key ∈ ids) (hk : k ∈ ids)
    (a : Char) : (A.restrict ids).leaving k a = A.leaving k a := by
  rw [leaving, leaving, restrict, List.filter_filter]
  refine List.filter_congr fun t ht => ?_
  by_cases hs : t.source.key = k
  · have hsource : t.source.key ∈ ids := hs ▸ hk
    simp [hs, hk, hids t ht hsource]
  · simp [hs]

lemma next?_restrict
    (hids : ∀ t ∈ A.transitions, t.source.key ∈ ids → t.target.key ∈ ids) (hq : q.key ∈ ids)
    (a : Char) : (A.restrict ids).next? q a = A.next? q a := by
  have hfirst : (A.restrict ids).firstOn? q.key a = A.firstOn? q.key a := by
    rw [firstOn?_eq_head?, firstOn?_eq_head?, leaving_restrict hids hq]
  rw [next?, next?, hfirst]
  cases ht : A.firstOn? q.key a with
  | none => rfl
  | some t =>
    obtain ⟨hmem, hs, _⟩ := mem_of_firstOn? ht
    exact state?_restrict (hids t hmem (hs ▸ hq))

lemma movesFrom_restrict
    (hids : ∀ t ∈ A.transitions, t.source.key ∈ ids → t.target.key ∈ ids) (hq : q.key ∈ ids)
    (word : List Char) : (A.restrict ids).movesFrom q word = A.movesFrom q word := by
  induction word generalizing q with
  | nil => rfl
  | cons a word ih =>
    rw [movesFrom, movesFrom, next?_restrict hids hq]
    cases hp : A.next? q a with
    | none => rfl
    | some p =>
      obtain ⟨t, ht, htarget⟩ := next?_eq_some_iff.1 hp
      obtain ⟨hmem, hs, _⟩ := mem_of_firstOn? ht
      have hpk : p.key ∈ ids := (state?_eq_some_iff.1 htarget).2 ▸ hids t hmem (hs ▸ hq)
      simp only [ih hpk]

lemma applyAll_removeState (ids : List Name) :
    (A.applyAll (ids.map .removeState)).states = A.states.filter (·.key ∉ ids.map Name.key) ∧
      (A.applyAll (ids.map .removeState)).transitions = A.transitions.filter (fun t =>
        t.source.key ∉ ids.map Name.key ∧ t.target.key ∉ ids.map Name.key) ∧
      (A.applyAll (ids.map .removeState)).alphabet = A.alphabet := by
  induction ids generalizing A with
  | nil => simp [applyAll]
  | cons id ids ih =>
    obtain ⟨hstates, htransitions, halphabet⟩ := ih (A := A.removeState id.key)
    have hstep : A.applyAll ((id :: ids).map .removeState) =
        (A.removeState id.key).applyAll (ids.map .removeState) := rfl
    rw [hstep, hstates, htransitions, halphabet, removeState, List.filter_filter,
      List.filter_filter]
    refine ⟨List.filter_congr fun q _ => ?_, List.filter_congr fun t _ => ?_, rfl⟩
    · simp only [List.map_cons, List.mem_cons, not_or, ← Bool.decide_and]
      exact decide_eq_decide.2 and_comm
    · simp only [List.map_cons, List.mem_cons, not_or, ← Bool.decide_and]
      exact decide_eq_decide.2 (by tauto)

lemma start_reachable (hs : A.startState? = some s) : s.key ∈ A.reachable := by
  rw [mem_reachable_iff hs]
  exact .here (hasState_iff.2 ⟨s, startState_mem hs, rfl⟩)

variable (hA : A.isReady = true)

include hA

lemma applyAll_removeState_unreachable {ids : List Name}
    (hids : ids.Perm (A.unreachableStates.map State.id)) :
    A.applyAll (ids.map .removeState) = A.restrict A.reachable := by
  have hmem {k : Key} (hk : A.hasState k = true) : k ∉ ids.map Name.key ↔ k ∈ A.reachable := by
    obtain ⟨q, hq, rfl⟩ := hasState_iff.1 hk
    have hkeys : q.key ∈ ids.map Name.key ↔ q.key ∈ A.unreachableStates.map State.key := by
      rw [(hids.map Name.key).mem_iff, List.map_map]
      rfl
    rw [hkeys, unreachableStates_of_isReady hA, not_iff_comm, List.mem_map]
    constructor
    · intro hreach
      exact ⟨q, List.mem_filter.2 ⟨hq, decide_eq_true hreach⟩, rfl⟩
    · rintro ⟨p, hp, hpk⟩
      rw [← hpk]
      exact of_decide_eq_true (List.mem_filter.1 hp).2
  obtain ⟨hstates, htransitions, halphabet⟩ := applyAll_removeState (A := A) ids
  refine eq_of_parts ?_ ?_ halphabet
  · rw [hstates]
    exact List.filter_congr fun q hq => decide_eq_decide.2 (hmem (hasState_iff.2 ⟨q, hq, rfl⟩))
  · rw [htransitions]
    refine List.filter_congr fun t ht => decide_eq_decide.2 ?_
    have hends := joins_iff_hasState.1 ((isReady_iff_deterministic.1 hA).joined t ht)
    rw [hmem hends.1, hmem hends.2]

lemma target_reachable {t : Transition} (ht : t ∈ A.transitions)
    (hs : t.source.key ∈ A.reachable) : t.target.key ∈ A.reachable := by
  obtain ⟨s, hstart⟩ := Simulator.startState?_of_isReady hA
  have hends := joins_iff_hasState.1 ((isReady_iff_deterministic.1 hA).joined t ht)
  rw [mem_reachable_iff hstart] at hs ⊢
  exact hs.step ht rfl hends.2

lemma isReady_restrict_reachable : (A.restrict A.reachable).isReady = true := by
  obtain ⟨s, hs⟩ := Simulator.startState?_of_isReady hA
  rw [isReady_iff_deterministic] at hA ⊢
  refine hA.part rfl List.filter_sublist ?_ ?_
  · intro q hq
    rw [startStates_of_startState? hs, List.mem_singleton] at hq
    rw [hq]
    exact decide_eq_true (start_reachable hs)
  · intro t ht q _ hend
    obtain ⟨_, hsource, htarget⟩ := mem_transitions_restrict.1 ht
    rcases hend with hend | hend
    · exact decide_eq_true (hend ▸ hsource)
    · exact decide_eq_true (hend ▸ htarget)

lemma startState?_restrict_reachable (hs : A.startState? = some s) :
    (A.restrict A.reachable).startState? = some s := by
  obtain ⟨q, hq⟩ := Simulator.startState?_of_isReady (isReady_restrict_reachable hA)
  have hmem : q ∈ (A.restrict A.reachable).startStates := by simp [startStates_of_startState? hq]
  obtain ⟨hmem, hstart⟩ := mem_startStates.1 hmem
  have hqs : q ∈ A.startStates := mem_startStates.2 ⟨(mem_states_restrict.1 hmem).1, hstart⟩
  rw [startStates_of_startState? hs, List.mem_singleton] at hqs
  rw [hq, hqs]

lemma mem_reachable_restrict : k ∈ (A.restrict A.reachable).reachable ↔ k ∈ A.reachable := by
  obtain ⟨s, hs⟩ := Simulator.startState?_of_isReady hA
  have hreachable : A.reachable = A.reachableFrom s.key := by rw [reachable, hs]
  rw [mem_reachable_iff (startState?_restrict_reachable hA hs), mem_reachable_iff hs, hreachable,
    chain_restrict_reachableFrom]

lemma simulate_restrict_reachable (word : List Char) : ∃ t, A.simulate word = .ok t ∧
    (A.restrict A.reachable).simulate word =
      .ok { t with automaton? := some (A.restrict A.reachable) } := by
  obtain ⟨s, hs⟩ := Simulator.startState?_of_isReady hA
  refine ⟨_, simulate_of_isReady hA hs word, ?_⟩
  rw [simulate_of_isReady (isReady_restrict_reachable hA) (startState?_restrict_reachable hA hs),
    Simulator.atEnd_congr]
  exact movesFrom_restrict (fun t ht => target_reachable hA ht) (start_reachable hs) word

omit hA

/-- To take out all states that a ready automaton does not reach, in whatever order, always gives
the same automaton. It is ready, reaches all its states, and runs every word in the same way. -/
theorem simulate_without_unreachable (A : Automaton) (hA : A.isReady = true) :
    ∃ B, (∀ ids : List Name, ids.Perm (A.unreachableStates.map State.id) →
        A.applyAll (ids.map .removeState) = B) ∧
      B.isReady = true ∧ B.unreachableStates = [] ∧ (∀ k, k ∈ B.reachable ↔ k ∈ A.reachable) ∧
      ∀ word, ∃ s, A.simulate word = .ok s ∧
        B.simulate word = .ok { s with automaton? := some B } := by
  have hB := isReady_restrict_reachable hA
  refine ⟨A.restrict A.reachable, fun ids hids => applyAll_removeState_unreachable hA hids, hB,
    ?_, fun k => mem_reachable_restrict hA, simulate_restrict_reachable hA⟩
  rw [unreachableStates_of_isReady hB, List.filter_eq_nil_iff]
  intro q hq
  rw [decide_eq_true_eq, not_not, mem_reachable_restrict hA]
  exact (mem_states_restrict.1 hq).2

def adrift : Automaton where
  states :=
    [⟨"port", "port", .start, State.origin, by decide, by decide⟩,
      ⟨"raft", "raft", .accept, State.origin, by decide, by decide⟩,
      ⟨"wreck", "wreck", .normal, State.origin, by decide, by decide⟩]
  transitions :=
    [⟨"moor", "port", "port", 'm', by decide, by decide⟩,
      ⟨"drift", "raft", "wreck", 'm', by decide, by decide⟩,
      ⟨"tow", "wreck", "port", 'n', by decide, by decide⟩]
  alphabet := ["m", "n"]
  keys_nodup := by decide
  ids_atoms := by decide
  alphabet_nodup := by decide
  alphabet_atoms := by decide

theorem simulate_without_unreachable_adrift : adrift.isReady = true ∧
    adrift.unreachableStates.map State.id = ["raft", "wreck"] ∧
    ∃ B, adrift.applyAll [.removeState "raft", .removeState "wreck"] = B ∧
      adrift.applyAll [.removeState "wreck", .removeState "raft"] = B ∧
      B.isReady = true ∧ B.unreachableStates = [] ∧
      ∃ s, B.simulate ['m', 'n'] = .ok s ∧ s.stuckSymbol = some 'n' := by
  have hready : adrift.isReady = true := by decide
  obtain ⟨B, hremoved, hB, hreached, _, hruns⟩ := simulate_without_unreachable adrift hready
  refine ⟨hready, rfl, B, hremoved ["raft", "wreck"] (List.Perm.refl _),
    hremoved ["wreck", "raft"] (List.Perm.swap _ _ _), hB, hreached, ?_⟩
  obtain ⟨s, hs, hsB⟩ := hruns ['m', 'n']
  refine ⟨_, hsB, ?_⟩
  obtain rfl := Except.ok.inj hs
  rfl

end Automaton

end DfaWorkbench
