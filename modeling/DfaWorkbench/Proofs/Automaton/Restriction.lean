import DfaWorkbench.Automaton.Edit
import DfaWorkbench.Proofs.Automaton.Reachability

/-! The part of an automaton with the states of some ids. What is reached in the whole is reached in
the part of it that is reached. -/

namespace DfaWorkbench.Automaton

variable {A : Automaton} {ids : List Key} {s k : Key}

lemma mem_states_restrict {q : State} :
    q ∈ (A.restrict ids).states ↔ q ∈ A.states ∧ q.key ∈ ids := by
  simp [restrict]

lemma mem_transitions_restrict {t : Transition} : t ∈ (A.restrict ids).transitions ↔
    t ∈ A.transitions ∧ t.source.key ∈ ids ∧ t.target.key ∈ ids := by
  simp [restrict]

lemma hasState_restrict :
    (A.restrict ids).hasState k = true ↔ A.hasState k = true ∧ k ∈ ids := by
  simp only [hasState_iff, mem_states_restrict]
  constructor
  · rintro ⟨q, ⟨hq, hk⟩, rfl⟩
    exact ⟨⟨q, hq, rfl⟩, hk⟩
  · rintro ⟨⟨q, hq, rfl⟩, hk⟩
    exact ⟨q, ⟨hq, hk⟩, rfl⟩

lemma state?_restrict (hk : k ∈ ids) : (A.restrict ids).state? k = A.state? k := by
  refine Option.ext fun q => ?_
  rw [state?_eq_some_iff, state?_eq_some_iff, mem_states_restrict, and_assoc]
  refine and_congr_right fun _ => and_iff_right_of_imp fun h => ?_
  rwa [h]

lemma Chain.of_restrict (h : (A.restrict ids).Chain s k) : A.Chain s k := by
  induction h with
  | here h => exact .here (hasState_restrict.1 h).1
  | step _ ht hs hk ih =>
    exact ih.step (mem_transitions_restrict.1 ht).1 hs (hasState_restrict.1 hk).1

lemma chain_restrict_reachableFrom :
    (A.restrict (A.reachableFrom s)).Chain s k ↔ A.Chain s k := by
  refine ⟨Chain.of_restrict, fun h => ?_⟩
  induction h with
  | here h => exact .here (hasState_restrict.2 ⟨h, mem_reachableFrom_iff.2 (.here h)⟩)
  | step hp ht hs hk ih =>
    have htarget := mem_reachableFrom_iff.2 (hp.step ht hs hk)
    refine ih.step (mem_transitions_restrict.2 ⟨ht, ?_, htarget⟩) hs
      (hasState_restrict.2 ⟨hk, htarget⟩)
    rw [hs]
    exact mem_reachableFrom_iff.2 hp

lemma hasState_restrict_reachableFrom :
    (A.restrict (A.reachableFrom s)).hasState k = true ↔ k ∈ A.reachableFrom s := by
  rw [hasState_restrict, and_iff_right_iff_imp]
  exact fun hk => (mem_reachableFrom_iff.1 hk).hasState

lemma joins_restrict_reachableFrom {t : Transition}
    (ht : t ∈ (A.restrict (A.reachableFrom s)).transitions) :
    (A.restrict (A.reachableFrom s)).joins t = true := by
  obtain ⟨_, hsource, htarget⟩ := mem_transitions_restrict.1 ht
  rw [joins_iff_hasState, hasState_restrict_reachableFrom, hasState_restrict_reachableFrom]
  exact ⟨hsource, htarget⟩

end DfaWorkbench.Automaton
