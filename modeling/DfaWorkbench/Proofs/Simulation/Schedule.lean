import DfaWorkbench.Proofs.Simulation.Calls

/-! Calls that fail can be left out, and how the steps of a run are called for does not matter. -/

namespace DfaWorkbench

namespace Simulator

variable {A : Automaton} {q : State} {word : List Char} {s t : Simulator}

/-- What cannot be done: a run of what is no word or of an automaton with errors, a step or a
verdict out of turn, and a step while another one holds the simulator. -/
def Refuses (s : Simulator) : Operation → Prop
  | .start A input => (∀ word, wordOf input ≠ .ok word) ∨ A.isReady = false
  | .step => s.isRunning = false
  | .lockedStep => True
  | .finish => False
  | .summary => s.isFinished = false
  | .reset => False

def Operation.continues : Operation → Bool
  | .start _ _ | .reset => false
  | .step | .lockedStep | .finish | .summary => true

inductive Looped : Stepper → ℕ → EStateM.Result SimulationError Stepper Unit → Prop
  | over {c : Stepper} : c.simulator.isRunning = false → Looped c 0 (.ok () c)
  | failed {c d : Stepper} {e : SimulationError} : c.simulator.isRunning = true →
      Call.step.run c = .error e d → Looped c 1 (.error e d)
  | next {c d : Stepper} {k : ℕ} {r : EStateM.Result SimulationError Stepper Unit} :
      c.simulator.isRunning = true → Call.step.run c = .ok () d → Looped d k r → Looped c (k + 1) r

lemma exists_start_iff {input : Json} : (∃ t, start A input = .ok t) ↔
    (∃ word, wordOf input = .ok word) ∧ A.isReady = true := by
  rw [start]
  cases wordOf input with
  | error e => simp [bind, Except.bind]
  | ok word =>
    change (∃ t, begin A word = .ok t) ↔ _
    cases hA : A.isReady with
    | true =>
      obtain ⟨q, hq⟩ := startState?_of_isReady hA
      simp [begin_of_isReady hA hq]
    | false =>
      obtain ⟨e, he, _⟩ := begin_error_of_not_isReady hA word
      simp [he]

lemma Arisen.exists_step_iff (h : Arisen s) :
    (∃ t, s.step = .ok t) ↔ s.isRunning = true := by
  constructor
  · rintro ⟨t, ht⟩
    rw [step] at ht
    split at ht
    · next hr => exact hr
    · cases ht
  · intro hr
    cases h with
    | idle => cases hr
    | along hA _ hp =>
      have hd := Automaton.isReady_iff_deterministic.1 hA
      rcases step_cases hd hp (isRunning_along.1 hr) with ⟨m, _, hstep⟩ | ⟨_, hstep⟩
      · exact ⟨_, hstep⟩
      · exact ⟨_, hstep⟩
    | stuck => cases hr

lemma Arisen.exists_summary_iff (h : Arisen s) :
    (∃ text, s.summary = .ok text) ↔ s.isFinished = true := by
  rw [summary]
  split
  · next hf =>
    obtain rfl | ⟨q, hq⟩ := current?_of_arisen h
    · cases hf
    · simp [hf, hq]
  · next hf => simp [hf]

lemma Arisen.exists_apply_iff (h : Arisen s) (op : Operation) :
    (∃ t, s.apply op = .ok t) ↔ ¬ s.Refuses op := by
  cases op with
  | start A input =>
    simp only [apply, exists_start_iff, Refuses, not_or, not_forall, not_not, Bool.not_eq_false]
  | step => simpa [apply, Refuses] using h.exists_step_iff
  | lockedStep => simp [apply, Refuses]
  | finish => simpa [apply, Refuses] using h.exists_run.imp fun _ => And.left
  | summary =>
    rw [Refuses, Bool.not_eq_false, ← h.exists_summary_iff]
    simp [Call.apply_summary_eq_ok]
  | reset => simp [apply, Refuses]

lemma Arisen.perform_error_iff (h : Arisen s) (op : Operation) :
    (∃ e c, (Call.perform op).run ⟨s, false⟩ = .error e c) ↔ s.Refuses op := by
  rw [← not_iff_not, ← h.exists_apply_iff]
  rcases Call.perform_cases h op with ⟨answer, t, hcall, hop, _⟩ | ⟨e, hcall, hop⟩
  · simp [hcall, hop]
  · simp [hcall, hop]

lemma performAll_succeeded (h : Arisen s) (ops : List Operation) :
    (⟨s, false⟩ : Stepper).performAll
        ((((⟨s, false⟩ : Stepper).performAll ops).filter Performed.succeeded).map
          Performed.operation) =
      ((⟨s, false⟩ : Stepper).performAll ops).filter Performed.succeeded := by
  induction ops generalizing s with
  | nil => rfl
  | cons op ops ih =>
    rcases Call.perform_cases h op with ⟨answer, t, hcall, _, ht⟩ | ⟨e, hcall, _⟩
    · have hall : (⟨s, false⟩ : Stepper).performAll (op :: ops) =
          ⟨op, .ok answer, ⟨t, false⟩⟩ :: (⟨t, false⟩ : Stepper).performAll ops := by
        rw [Stepper.performAll, hcall, Performed.of]
      rw [hall, List.filter_cons_of_pos rfl, List.map_cons, Stepper.performAll, hcall,
        Performed.of, ih ht]
    · have hall : (⟨s, false⟩ : Stepper).performAll (op :: ops) =
          ⟨op, .error e, ⟨s, false⟩⟩ :: (⟨s, false⟩ : Stepper).performAll ops := by
        rw [Stepper.performAll, hcall, Performed.of]
      rw [hall, List.filter_cons_of_neg Bool.false_ne_true]
      exact ih h

lemma applyOrKeep_of_ok {op : Operation} (h : s.apply op = .ok t) : s.applyOrKeep op = t := by
  rw [applyOrKeep, h]

lemma OnRun.applyOrKeep (h : A.Deterministic) (hs : OnRun A q word s) {op : Operation}
    (hop : op.continues = true) : OnRun A q word (s.applyOrKeep op) := by
  rw [Simulator.applyOrKeep]
  cases hr : s.apply op with
  | error e => exact hs
  | ok t =>
    cases op with
    | start A input => cases hop
    | step => exact hs.step h hr
    | lockedStep => cases hr
    | finish => exact hs.stepFor h hr
    | summary =>
      obtain ⟨_, rfl⟩ := Call.apply_summary_eq_ok.1 hr
      exact hs
    | reset => cases hop

lemma OnRun.applyAll (h : A.Deterministic) (hs : OnRun A q word s) {ops : List Operation}
    (hops : ∀ op ∈ ops, op.continues = true) : OnRun A q word (s.applyAll ops) := by
  induction ops generalizing s with
  | nil => exact hs
  | cons op ops ih =>
    rw [List.forall_mem_cons] at hops
    exact ih (hs.applyOrKeep h hops.1) hops.2

lemma isRunning_of_isFinished (h : s.isFinished = true) : s.isRunning = false := by
  cases hs : s.status <;> simp_all [isFinished, isRunning]

lemma looped_of_stepFor {n : ℕ} (h : s.stepFor n = .ok t) (hend : t.isRunning = false) :
    ∃ k ≤ n, Looped ⟨s, false⟩ k (.ok () ⟨t, false⟩) := by
  induction n generalizing s with
  | zero =>
    obtain rfl := Except.ok.inj h
    exact ⟨0, Nat.le_refl 0, .over hend⟩
  | succ n ih =>
    rw [stepFor] at h
    split at h
    · next hr =>
      obtain ⟨u, hstep, hrest⟩ := Result.bind_eq_ok.1 h
      obtain ⟨k, hk, hloop⟩ := ih hrest
      have hcall : Call.step.run ⟨s, false⟩ = .ok () ⟨u, false⟩ := by
        rw [Call.run_step, hstep]
        rfl
      exact ⟨k + 1, Nat.succ_le_succ hk, .next hr hcall hloop⟩
    · obtain rfl := Except.ok.inj h
      exact ⟨0, Nat.zero_le _, .over hend⟩

lemma Arisen.exists_looped (h : Arisen s) :
    ∃ k ≤ s.input.length - s.stepIndex, ∃ t, Looped ⟨s, false⟩ k (.ok () ⟨t, false⟩) ∧
      (Call.perform .finish).run ⟨s, false⟩ = .ok (.status t.status) ⟨t, false⟩ := by
  obtain ⟨t, hrun, hend⟩ := h.exists_run
  obtain ⟨k, hk, hloop⟩ := looped_of_stepFor hrun hend
  refine ⟨k, hk, t, hloop, ?_⟩
  simp only [Call.perform, EStateM.run_bind, Call.run_finish hrun, EStateM.run_pure]

lemma start_eq_ok {input : Json} (h : start A input = .ok s) : ∃ word q,
    wordOf input = .ok word ∧ A.isReady = true ∧ A.startState? = some q ∧
      s = along A q word [] := by
  obtain ⟨⟨word, hword⟩, hA⟩ := exists_start_iff.1 ⟨s, h⟩
  obtain ⟨q, hq⟩ := startState?_of_isReady hA
  obtain ⟨w, hw, hbegin⟩ := Result.bind_eq_ok.1 h
  obtain rfl := Except.ok.inj (hword.symm.trans hw)
  rw [begin_of_isReady hA hq] at hbegin
  exact ⟨word, q, hword, hA, hq, (Except.ok.inj hbegin).symm⟩

lemma exists_end_of_start {input : Json} (h : start A input = .ok s) : ∃ word t,
    wordOf input = .ok word ∧ A.simulate word = .ok t ∧
      Stepper.fresh.afterAll [.start A input, .finish] = ⟨t, false⟩ ∧
      ∀ ops, (∀ op ∈ ops, op.continues = true) →
        ((⟨s, false⟩ : Stepper).afterAll ops).simulator.isFinished = true →
          (⟨s, false⟩ : Stepper).afterAll ops = ⟨t, false⟩ := by
  obtain ⟨word, q, hword, hA, hq, rfl⟩ := start_eq_ok h
  have hd := Automaton.isReady_iff_deterministic.1 hA
  have hon : OnRun A q word (along A q word []) := .along List.nil_prefix
  refine ⟨word, atEnd A q word, hword, Automaton.simulate_of_isReady hA hq word, ?_, ?_⟩
  · have hbegin : idle.applyOrKeep (.start A input) = along A q word [] := applyOrKeep_of_ok h
    have hfinish : (along A q word []).applyOrKeep .finish = atEnd A q word :=
      applyOrKeep_of_ok (hon.run hd)
    rw [Call.afterAll_fresh, applyAll, List.foldl_cons, List.foldl_cons, hbegin, hfinish,
      List.foldl_nil]
  · intro ops hops hend
    rw [Call.afterAll_eq (.along hA hq List.nil_prefix)] at hend ⊢
    rw [(hon.applyAll hd hops).eq_atEnd (isRunning_of_isFinished hend)]

end Simulator

namespace Stepper

open Simulator

/-- Whatever calls have been made, the calls that fail are those that a simulator refuses, they
change nothing, and without them the other ones end in the same way. Once a run has begun, calls
that go on with it and finish it make of it what the simulation of the word makes, and the run is
finished by as many steps as symbols are left at most. -/
theorem calls_fail_without_effect_and_agree (ops : List Operation) :
    (∀ op, (∃ e c, (Call.perform op).run (fresh.afterAll ops) = .error e c) ↔
      (fresh.afterAll ops).simulator.Refuses op) ∧
    (∀ op e c, (Call.perform op).run (fresh.afterAll ops) = .error e c → c = fresh.afterAll ops) ∧
    fresh.performAll (((fresh.performAll ops).filter Performed.succeeded).map
      Performed.operation) = (fresh.performAll ops).filter Performed.succeeded ∧
    (∀ A input answer c, (Call.perform (.start A input)).run (fresh.afterAll ops) = .ok answer c →
      ∃ word t, wordOf input = .ok word ∧ A.simulate word = .ok t ∧
        fresh.afterAll [.start A input, .finish] = ⟨t, false⟩ ∧
        ∀ later, (∀ op ∈ later, op.continues = true) →
          (c.afterAll later).simulator.isFinished = true → c.afterAll later = ⟨t, false⟩) ∧
    ∃ k ≤ (fresh.afterAll ops).simulator.input.length - (fresh.afterAll ops).simulator.stepIndex,
      ∃ c, Looped (fresh.afterAll ops) k (.ok () c) ∧
        (Call.perform .finish).run (fresh.afterAll ops) = .ok (.status c.simulator.status) c := by
  have h : Arisen (idle.applyAll ops) := arisen_applyAll .idle ops
  rw [Call.afterAll_fresh]
  refine ⟨h.perform_error_iff, fun op e c hcall => ?_, performAll_succeeded .idle ops,
    fun A input answer c hcall => ?_, ?_⟩
  · rcases Call.perform_cases h op with ⟨_, _, hok, _, _⟩ | ⟨_, herror, _⟩
    · cases hok.symm.trans hcall
    · cases herror.symm.trans hcall
      rfl
  · rcases Call.perform_cases h (.start A input) with
      ⟨_, s, hok, hstart, _⟩ | ⟨_, herror, _⟩
    · obtain rfl : ⟨s, false⟩ = c := by
        cases hok.symm.trans hcall
        rfl
      exact exists_end_of_start hstart
    · cases herror.symm.trans hcall
  · obtain ⟨k, hk, t, hloop, hfinish⟩ := h.exists_looped
    exact ⟨k, hk, _, hloop, hfinish⟩

end Stepper

end DfaWorkbench
