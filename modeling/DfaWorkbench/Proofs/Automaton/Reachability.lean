import DfaWorkbench.Proofs.Automaton.Lookup
import DfaWorkbench.Proofs.Sequence.Distinct
import DfaWorkbench.Reachability

/-! The breadth-first search finds the ids that chains of transitions lead to, and no other ones. -/

namespace DfaWorkbench

namespace Automaton

variable {A B : Automaton} {s p q : Key} {seen queue : List Key}

lemma reachableFrom_congr (hknown : ∀ k, A.hasState k = B.hasState k)
    (htransitions : A.transitions = B.transitions)
    (hstates : A.states.length = B.states.length) (s : Key) :
    A.reachableFrom s = B.reachableFrom s := by
  have hexplore (leaving : SourceIndex) (rounds : ℕ) (seen queue : List Key) :
      A.explore leaving rounds seen queue = B.explore leaving rounds seen queue := by
    induction rounds generalizing seen queue with
    | zero => rfl
    | succ rounds ih =>
      cases queue with
      | nil => rfl
      | cons q queue => simp only [explore, unseenTargets, hknown, ih]
  rw [reachableFrom, reachableFrom, hknown, hexplore, bySource, bySource, htransitions, hstates]

lemma mem_unseenTargets : p ∈ A.unseenTargets A.bySource seen q ↔
    (∃ t ∈ A.transitions, t.source.key = q ∧ t.target.key = p) ∧ p ∉ seen ∧
      A.hasState p = true := by
  simp [unseenTargets, members_bySource, and_assoc]

/-- A search from `s` that has come as far as `seen`: all that is still to be found can be reached
by way of the queue. -/
structure Searched (A : Automaton) (s : Key) (seen queue : List Key) : Prop where
  nodup : seen.Nodup
  queue_subset : queue ⊆ seen
  start_mem : s ∈ seen
  chain : ∀ p ∈ seen, A.Chain s p
  closed : ∀ p ∈ seen, p ∉ queue → ∀ t ∈ A.transitions, t.source.key = p →
    A.hasState t.target.key = true → t.target.key ∈ seen

lemma Chain.hasState (h : A.Chain s p) : A.hasState p = true := by
  cases h with
  | here h => exact h
  | step _ _ _ h => exact h

lemma Chain.eq_or_exists_step (h : A.Chain s p) :
    p = s ∨ ∃ t ∈ A.transitions, A.Chain s t.source.key ∧ t.target.key = p := by
  cases h with
  | here => exact .inl rfl
  | step hq ht hs _ => exact .inr ⟨_, ht, hs ▸ hq, rfl⟩

lemma searched_start (h : A.hasState s = true) : A.Searched s [s] [s] where
  nodup := List.nodup_singleton s
  queue_subset := List.Subset.refl _
  start_mem := List.mem_singleton_self s
  chain p hp := by
    obtain rfl := List.mem_singleton.1 hp
    exact .here h
  closed p hp hq := absurd hp hq

lemma Searched.next (h : A.Searched s seen (q :: queue)) :
    A.Searched s (seen ++ A.unseenTargets A.bySource seen q)
      (queue ++ A.unseenTargets A.bySource seen q) where
  nodup := by
    refine List.nodup_append.2 ⟨h.nodup, Sequence.nodup_eraseDups _, ?_⟩
    rintro p hp _ hq rfl
    exact (mem_unseenTargets.1 hq).2.1 hp
  queue_subset := by
    have hq : queue ⊆ seen := List.Subset.trans (List.subset_cons_self q queue) h.queue_subset
    exact List.append_subset.2
      ⟨List.subset_append_of_subset_left _ hq, List.subset_append_right _ _⟩
  start_mem := List.mem_append_left _ h.start_mem
  chain p hp := by
    rcases List.mem_append.1 hp with hp | hp
    · exact h.chain p hp
    · obtain ⟨⟨t, ht, hs, rfl⟩, _, hk⟩ := mem_unseenTargets.1 hp
      exact .step (h.chain q (h.queue_subset List.mem_cons_self)) ht hs hk
  closed p hp hq t ht hs hk := by
    rw [List.mem_append, not_or] at hq
    have hp : p ∈ seen := (List.mem_append.1 hp).resolve_right hq.2
    by_cases hseen : t.target.key ∈ seen
    · exact List.mem_append_left _ hseen
    · by_cases hpq : p = q
      · exact List.mem_append_right _ (mem_unseenTargets.2 ⟨⟨t, ht, hs.trans hpq, rfl⟩, hseen, hk⟩)
      · have hne : p ∉ q :: queue := by simp [hpq, hq.1]
        exact absurd (h.closed p hp hne t ht hs hk) hseen

lemma Searched.length_le (h : A.Searched s seen queue) : seen.length ≤ A.states.length := by
  have hsub : seen ⊆ A.states.map State.key := by
    intro p hp
    obtain ⟨q, hq, rfl⟩ := hasState_iff.1 (h.chain p hp).hasState
    exact List.mem_map_of_mem hq
  simpa using h.nodup.length_le_of_subset hsub

lemma Searched.explore (h : A.Searched s seen queue) {rounds : ℕ}
    (hr : A.states.length + queue.length ≤ rounds + seen.length) :
    A.Searched s (A.explore A.bySource rounds seen queue) [] := by
  induction rounds generalizing seen queue with
  | zero =>
    have hle := h.length_le
    obtain rfl : queue = [] := List.eq_nil_of_length_eq_zero (by omega)
    exact h
  | succ rounds ih =>
    cases queue with
    | nil => exact h
    | cons q queue =>
      refine ih h.next ?_
      simp only [List.length_cons, List.length_append] at hr ⊢
      omega

lemma searched_reachableFrom (h : A.hasState s = true) :
    A.Searched s (A.reachableFrom s) [] := by
  rw [reachableFrom, if_pos h]
  exact (searched_start h).explore (by simp)

lemma mem_reachableFrom_iff : p ∈ A.reachableFrom s ↔ A.Chain s p := by
  constructor
  · intro hp
    by_cases h : A.hasState s = true
    · exact (searched_reachableFrom h).chain p hp
    · simp [reachableFrom, h] at hp
  · intro hp
    induction hp with
    | here h => exact (searched_reachableFrom h).start_mem
    | step hp ht hs hk ih =>
      have h : A.hasState s = true := by
        by_contra hn
        simp [reachableFrom, hn] at ih
      exact (searched_reachableFrom h).closed _ ih List.not_mem_nil _ ht hs hk

end Automaton

end DfaWorkbench
