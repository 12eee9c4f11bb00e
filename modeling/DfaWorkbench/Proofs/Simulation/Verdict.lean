import DfaWorkbench.Gallery
import DfaWorkbench.Proofs.Simulation.Runs

/-! The verdict of a simulation is that of the branches, which are explored all at once. -/

namespace DfaWorkbench.Automaton

variable {A : Automaton} {q : State}

lemma acceptsByBranches_iff_acceptsFrom (hq : A.startState? = some q) (word : List Char) :
    A.acceptsByBranches word = true ↔ A.AcceptsFrom q.key word := by
  rw [acceptsByBranches_iff, startStates_of_startState? hq]
  simp

lemma status_atEnd (h : A.Deterministic) (hq : A.startState? = some q) (word : List Char) :
    (Simulator.atEnd A q word).status =
      if A.acceptsByBranches word then .accepted else .rejected := by
  have hacc := (acceptsByBranches_iff_acceptsFrom hq word).trans
    (h.acceptsFrom_iff (startState_mem hq) word)
  have hle := A.length_movesFrom_le q word
  rw [Simulator.atEnd]
  by_cases hl : (A.movesFrom q word).length < word.length
  · have hn : A.acceptsByBranches word = false := by
      rw [Bool.eq_false_iff]
      intro ha
      have := (hacc.1 ha).1
      omega
    rw [if_pos hl, hn]
    rfl
  · have he : (A.movesFrom q word).length = word.length := by omega
    rw [if_neg hl, Simulator.along, if_neg hl]
    simp only [hacc, he, true_and]

lemma simulate_accepted_iff (h : A.isReady = true) (word : List Char) :
    ∃ s, A.simulate word = .ok s ∧ (s.status = .accepted ↔ A.acceptsByBranches word = true) := by
  obtain ⟨q, hq⟩ := Simulator.startState?_of_isReady h
  refine ⟨_, simulate_of_isReady h hq word, ?_⟩
  rw [status_atEnd (isReady_iff_deterministic.1 h) hq]
  cases A.acceptsByBranches word <;> simp

def Accepts (A : Automaton) (word : List Char) : Prop :=
  ∃ s, A.simulate word = .ok s ∧ s.status = .accepted

lemma accepts_iff (h : A.isReady = true) (word : List Char) :
    A.Accepts word ↔ A.acceptsByBranches word = true := by
  obtain ⟨s, hs, hstatus⟩ := simulate_accepted_iff h word
  rw [← hstatus, Accepts, hs]
  simp

lemma accepts_iff_acceptsFrom (h : A.isReady = true) (hq : A.startState? = some q)
    (word : List Char) : A.Accepts word ↔ A.AcceptsFrom q.key word :=
  (accepts_iff h word).trans (acceptsByBranches_iff_acceptsFrom hq word)

/-- A ready automaton gives every word a verdict, however the word is entered: it accepts those that
some branch accepts and rejects all others. -/
theorem simulate_eq_branches (A : Automaton) (hA : A.isReady = true) (word : List Char) :
    ∃ s, A.simulate word = .ok s ∧
      (∀ input, wordOf input = .ok word → Simulator.start A input >>= Simulator.run = .ok s) ∧
      s.status = if A.acceptsByBranches word then .accepted else .rejected := by
  obtain ⟨q, hq⟩ := Simulator.startState?_of_isReady hA
  have hs := simulate_of_isReady hA hq word
  refine ⟨_, hs, fun input hinput => ?_, status_atEnd (isReady_iff_deterministic.1 hA) hq word⟩
  rw [Simulator.start, hinput]
  exact hs

theorem simulate_sample : sample.isReady = true ∧
    ∃ s, sample.simulate ['a', 'b'] = .ok s ∧ s.status = .accepted := by
  obtain ⟨s, hs, _, hstatus⟩ := simulate_eq_branches sample (by decide) ['a', 'b']
  refine ⟨by decide, s, hs, ?_⟩
  rw [hstatus]
  decide

end DfaWorkbench.Automaton
