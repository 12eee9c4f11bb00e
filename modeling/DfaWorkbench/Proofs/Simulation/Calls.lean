import DfaWorkbench.Proofs.Simulation.Invariant
import DfaWorkbench.Simulation.Calls

/-! A call does to the simulator what the operation does, and nothing if it fails. -/

namespace DfaWorkbench.Call

open Simulator

variable {s t : Simulator} {held : Bool} {e : SimulationError} {op : Operation}

def settled (s : Simulator) (held : Bool) :
    Except SimulationError Simulator → EStateM.Result SimulationError Stepper Unit
  | .ok t => .ok () ⟨t, held⟩
  | .error e => .error e ⟨s, held⟩

variable {α : Type} {c : Stepper}

@[simp] lemma run_simulator : simulator.run ⟨s, held⟩ = .ok s ⟨s, held⟩ := rfl

@[simp] lemma run_write (f : Simulator → Simulator) :
    (write f).run ⟨s, held⟩ = .ok () ⟨f s, held⟩ := rfl

@[simp] lemma run_throw : (throw e : Call α).run c = .error e c := rfl

@[simp] lemma run_ofExcept (r : Except SimulationError α) :
    (MonadExcept.ofExcept r : Call α).run c =
      match r with
      | .ok a => .ok a c
      | .error e => .error e c := by
  cases r <;> rfl

lemma run_holding {call : Call Unit} {r : Except SimulationError Simulator}
    (h : call.run ⟨s, true⟩ = settled s true r) :
    (holding call).run ⟨s, held⟩ = settled s false r := by
  rw [EStateM.run] at h
  simp only [holding, EStateM.run_bind, EStateM.run_modify]
  simp only [tryFinally, tryFinally', Functor.map, EStateM.run, EStateM.map, h]
  cases r <;> rfl

lemma run_conclude {q : State} (h : s.current? = some q) :
    conclude.run ⟨s, held⟩ = .ok () ⟨s.conclude q, held⟩ := by
  simp only [conclude, EStateM.run_bind, run_simulator, h]
  cases hq : q.isAccept <;> simp [Simulator.conclude, hq]

lemma run_enter {A : Automaton} {q : State} (hq : A.startState? = some q) (word : List Char) :
    (enter A word).run ⟨s, held⟩ = .ok () ⟨opened A q word, held⟩ := by
  cases word with
  | nil => simp [enter, hq, opened, run_conclude (q := q)]
  | cons a word => simp [enter, hq, opened]

lemma run_start (A : Automaton) (input : Json) :
    (start A input).run ⟨s, false⟩ = settled s false (Simulator.start A input) := by
  rw [Simulator.start, start]
  simp only [EStateM.run_bind, run_ofExcept]
  cases wordOf input with
  | error e => rfl
  | ok word =>
    change _ = settled s false (begin A word)
    rw [begin]
    cases hfound : A.validated with
    | error e => rfl
    | ok found =>
      obtain rfl := Automaton.eq_validate_of_validated hfound
      simp only [Except.mapError, bind, Except.bind]
      cases he : Diagnostic.errors A.validate with
      | nil =>
        obtain ⟨q, hq⟩ := startState?_of_isReady (List.isEmpty_iff.2 he)
        simp only [hq, List.isEmpty_nil, if_true]
        exact run_holding (run_enter hq word)
      | cons d ds => rfl

lemma run_advance : advance.run ⟨s, held⟩ = settled s held s.advance := by
  rw [Simulator.advance, advance]
  simp only [EStateM.run_bind, run_simulator]
  rcases s.input[s.stepIndex]? with _ | a
  · simp [settled]
  · rcases s.automaton? with _ | A
    · simp [settled]
    · rcases s.current? with _ | q
      · simp [settled]
      · rcases ht : A.firstOn? q.key a with _ | t
        · simp [ht, settled, getStuck]
        · rcases hp : A.state? t.target.key with _ | p
          · simp [ht, hp, settled]
          · by_cases he : s.stepIndex + 1 = s.input.length
            · simp [ht, hp, settled, moveTo, he, run_conclude (q := p)]
            · simp [ht, hp, settled, moveTo, he]

lemma run_step : step.run ⟨s, false⟩ = settled s false s.step := by
  rw [step, Simulator.step]
  refine run_holding ?_
  by_cases h : s.isRunning = true
  · simp [h, run_advance]
  · simp [h, settled]

lemma run_stepFor {n : ℕ} (h : s.stepFor n = .ok t) :
    (stepFor n).run ⟨s, false⟩ = .ok () ⟨t, false⟩ := by
  induction n generalizing s with
  | zero =>
    obtain rfl := Except.ok.inj h
    rfl
  | succ n ih =>
    rw [Simulator.stepFor] at h
    simp only [stepFor, EStateM.run_bind, run_simulator]
    split at h
    · next hr =>
      obtain ⟨u, hstep, hrest⟩ := Result.bind_eq_ok.1 h
      simp only [hr, if_true, EStateM.run_bind, run_step, hstep, settled, ih hrest]
    · next hr =>
      obtain rfl := Except.ok.inj h
      simp [hr]

lemma run_finish (h : s.run = .ok t) : finish.run ⟨s, false⟩ = .ok t.status ⟨t, false⟩ := by
  simp only [finish, EStateM.run_bind, run_simulator, run_stepFor h, EStateM.run_pure]

lemma run_summary : summary.run ⟨s, held⟩ =
    match s.summary with
    | .ok text => .ok text ⟨s, held⟩
    | .error e => .error e ⟨s, held⟩ := by
  rw [summary, Simulator.summary]
  by_cases hf : s.isFinished = true
  · rcases hq : s.current? with _ | q <;> simp [hf, hq]
  · simp [hf]

lemma apply_summary_eq_ok :
    s.apply .summary = .ok t ↔ (∃ text, s.summary = .ok text) ∧ s = t := by
  rw [apply]
  cases s.summary <;> simp [Except.map]

lemma apply_summary_eq_error : s.apply .summary = .error e ↔ s.summary = .error e := by
  rw [apply]
  cases s.summary <;> simp [Except.map]

lemma perform_of_ok (h : s.apply op = .ok t) :
    ∃ answer, (perform op).run ⟨s, false⟩ = .ok answer ⟨t, false⟩ := by
  cases op with
  | start A input =>
    rw [apply] at h
    exact ⟨.done, by simp only [perform, EStateM.run_bind, run_start, h, settled, EStateM.run_pure]⟩
  | step =>
    rw [apply] at h
    exact ⟨.done, by simp only [perform, EStateM.run_bind, run_step, h, settled, EStateM.run_pure]⟩
  | lockedStep => cases h
  | finish =>
    refine ⟨.status t.status, ?_⟩
    simp only [perform, EStateM.run_bind, run_finish h, EStateM.run_pure]
  | summary =>
    obtain ⟨⟨text, hs⟩, rfl⟩ := apply_summary_eq_ok.1 h
    exact ⟨.text text, by simp only [perform, EStateM.run_bind, run_summary, hs, EStateM.run_pure]⟩
  | reset =>
    obtain rfl := Except.ok.inj h
    exact ⟨.done, rfl⟩

lemma perform_of_error (hs : Arisen s) (h : s.apply op = .error e) :
    (perform op).run ⟨s, false⟩ = .error e ⟨s, false⟩ := by
  cases op with
  | start A input =>
    rw [apply] at h
    simp only [perform, EStateM.run_bind, run_start, h, settled]
  | step =>
    rw [apply] at h
    simp only [perform, EStateM.run_bind, run_step, h, settled]
  | lockedStep =>
    obtain rfl := Except.error.inj h
    rfl
  | finish =>
    obtain ⟨t, ht, _⟩ := hs.exists_run
    cases h.symm.trans ht
  | summary =>
    simp only [perform, EStateM.run_bind, run_summary, apply_summary_eq_error.1 h]
  | reset => cases h

lemma perform_cases (h : Arisen s) (op : Operation) :
    (∃ answer t, (perform op).run ⟨s, false⟩ = .ok answer ⟨t, false⟩ ∧ s.apply op = .ok t ∧
      Arisen t) ∨
    (∃ e, (perform op).run ⟨s, false⟩ = .error e ⟨s, false⟩ ∧ s.apply op = .error e) := by
  have hsound := apply_sound h op
  cases hop : s.apply op with
  | ok t =>
    obtain ⟨answer, hcall⟩ := perform_of_ok hop
    rw [hop] at hsound
    exact .inl ⟨answer, t, hcall, rfl, hsound⟩
  | error e => exact .inr ⟨e, perform_of_error h hop, rfl⟩

lemma afterAll_eq (h : Arisen s) (ops : List Operation) :
    (⟨s, false⟩ : Stepper).afterAll ops = ⟨s.applyAll ops, false⟩ := by
  induction ops generalizing s with
  | nil => rfl
  | cons op ops ih =>
    have hfold : s.applyAll (op :: ops) = (s.applyOrKeep op).applyAll ops := rfl
    rw [Stepper.afterAll, hfold, applyOrKeep]
    rcases perform_cases h op with ⟨answer, t, hcall, hop, ht⟩ | ⟨e, hcall, hop⟩
    · rw [hcall, hop]
      exact ih ht
    · rw [hcall, hop]
      exact ih h

lemma afterAll_fresh (ops : List Operation) :
    Stepper.fresh.afterAll ops = ⟨idle.applyAll ops, false⟩ :=
  afterAll_eq .idle ops

end DfaWorkbench.Call
