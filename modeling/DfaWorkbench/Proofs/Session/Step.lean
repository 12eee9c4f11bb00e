import Mathlib.Tactic.Common
import DfaWorkbench.Session.Page

/-! What one action does to the record and to the simulator of a session. The record changes before
the page is drawn, and the simulator with the record or by its own buttons. Nothing changes where no
snapshot can be written. -/

namespace DfaWorkbench.Session

variable {s : Session} {a : Action} {r : Record}

@[simp] lemma record_enter (w : Widget) (default : String) (v : Option Json) :
    (s.enter w default v).record = s.record := by
  cases v <;> rfl

@[simp] lemma simulator_enter (w : Widget) (default : String) (v : Option Json) :
    (s.enter w default v).simulator = s.simulator := by
  cases v <;> rfl

lemma select_eq_or (title : Option Json) :
    s.select title = s ∨ ∃ e, s.select title = { s with selected := e } := by
  unfold select
  split
  · split
    · next e _ => exact .inr ⟨e, rfl⟩
    · exact .inl rfl
  · exact .inl rfl

@[simp] lemma record_select (title : Option Json) : (s.select title).record = s.record := by
  rcases s.select_eq_or title with h | ⟨e, h⟩ <;> rw [h]

@[simp] lemma simulator_select (title : Option Json) :
    (s.select title).simulator = s.simulator := by
  rcases s.select_eq_or title with h | ⟨e, h⟩ <;> rw [h]

@[simp] lemma record_takeUp : (s.takeUp a).record = s.record := by
  simp [takeUp]

@[simp] lemma simulator_takeUp : (s.takeUp a).simulator = s.simulator := by
  simp [takeUp]

@[simp] lemma record_takeUpWord : (s.takeUpWord a).record = s.record := by
  simp [takeUpWord]

@[simp] lemma simulator_takeUpWord : (s.takeUpWord a).simulator = s.simulator := by
  simp [takeUpWord]

lemma generation_eq_some_iff {x : Except GenerateError Record} :
    s.generation a = some x ↔
      a.pressed = some .generate ∧ generated a.fresh s.startSymbol s.rules = x := by
  rw [generation]
  split
  · next h => simp [h]
  · next h => simp [h]

lemma settle_of_unwritable {e : Json.WriteError} (h : s.snapshot = .error e) : s.settle a = s := by
  rw [settle, h]

section Written

variable {text : String} (hsnapshot : s.snapshot = .ok text)

include hsnapshot

lemma settle_of_generated (h : (s.takeUp a).generation a = some (.ok r)) :
    s.settle a = (s.takeUp a).replaceRecord r := by
  simp only [settle, hsnapshot, h]

lemma settle_of_not_generated (h : ∀ r, (s.takeUp a).generation a ≠ some (.ok r)) :
    s.settle a = s.takeUp a := by
  simp only [settle, hsnapshot]

end Written

lemma settle_kept (h : ∀ r, (s.takeUp a).generation a ≠ some (.ok r)) :
    (s.settle a).record = s.record ∧ (s.settle a).simulator = s.simulator := by
  cases hsnapshot : s.snapshot with
  | error e =>
    rw [settle_of_unwritable hsnapshot]
    exact ⟨rfl, rfl⟩
  | ok text =>
    rw [settle_of_not_generated hsnapshot h]
    exact ⟨record_takeUp, simulator_takeUp⟩

lemma settle_cases {text : String} (hsnapshot : s.snapshot = .ok text) :
    (∃ r, (s.takeUp a).generation a = some (.ok r) ∧ (s.settle a).record = r ∧
      (s.settle a).simulator = .idle) ∨
    ((∀ r, (s.takeUp a).generation a ≠ some (.ok r)) ∧ (s.settle a).record = s.record ∧
      (s.settle a).simulator = s.simulator) := by
  by_cases h : ∃ r, (s.takeUp a).generation a = some (.ok r)
  · obtain ⟨r, hr⟩ := h
    rw [settle_of_generated hsnapshot hr]
    exact .inl ⟨r, hr, rfl, rfl⟩
  · rw [not_exists] at h
    exact .inr ⟨h, settle_kept h⟩

lemma simulate_of_not_ready (h : s.record.automaton.isReady = false) :
    (s.simulate a).1 = s.takeUpWord a := by
  rw [simulate]
  simp [h]

lemma simulate_of_ok {sim : Simulator} (h : s.record.automaton.isReady = true)
    (hsim : operate s.simulator s.record.automaton (s.takeUpWord a).word a.pressed = .ok sim) :
    (s.simulate a).1 = { s.takeUpWord a with simulator := sim } := by
  rw [simulate]
  simp [h, hsim]

lemma simulate_of_error {e : SimulationError} (h : s.record.automaton.isReady = true)
    (he : operate s.simulator s.record.automaton (s.takeUpWord a).word a.pressed = .error e) :
    (s.simulate a).1 = s.takeUpWord a := by
  rw [simulate]
  simp [h, he]

lemma simulate_cases :
    ((s.simulate a).1 = s.takeUpWord a) ∨
    ∃ sim, operate s.simulator s.record.automaton (s.takeUpWord a).word a.pressed = .ok sim ∧
      (s.simulate a).1 = { s.takeUpWord a with simulator := sim } := by
  cases hA : s.record.automaton.isReady with
  | false => exact .inl (simulate_of_not_ready hA)
  | true =>
    cases h : operate s.simulator s.record.automaton (s.takeUpWord a).word a.pressed with
    | ok sim => exact .inr ⟨sim, rfl, simulate_of_ok hA h⟩
    | error e => exact .inl (simulate_of_error hA h)

@[simp] lemma record_simulate : (s.simulate a).1.record = s.record := by
  rcases simulate_cases (s := s) (a := a) with h | ⟨sim, _, h⟩ <;> rw [h] <;> simp

lemma next_cases :
    (s.next a).record = (s.settle a).record ∧
      ((s.next a).simulator = (s.settle a).simulator ∨
        ∃ n, s.next a = ({ s.settle a with tables := n }.simulate a).1) := by
  simp only [next]
  split
  · split
    · exact ⟨record_simulate, .inr ⟨_, rfl⟩⟩
    · exact ⟨rfl, .inl rfl⟩
  · exact ⟨rfl, .inl rfl⟩

lemma record_next : (s.next a).record = (s.settle a).record :=
  next_cases.1

lemma next_of_unwritable {e : Json.WriteError} (h : s.snapshot = .error e) : s.next a = s := by
  simp only [next, openingSections, snapshotSection, h, settle_of_unwritable h]
  rfl

lemma page_of_unwritable {e : Json.WriteError} (h : s.snapshot = .error e) (tables : ℕ) :
    s.page a tables = [.failure (.unwritable e)] := by
  simp only [page, openingSections, snapshotSection, h]
  rfl

lemma simulator_next_of_generate (h : a.pressed = some .generate) :
    (s.next a).simulator = (s.settle a).simulator := by
  rcases next_cases.2 with hsim | ⟨n, hn⟩
  · exact hsim
  · rw [hn]
    rcases simulate_cases with hsim | ⟨sim, hok, hsim⟩
    · rw [hsim, simulator_takeUpWord]
    · rw [h] at hok
      rw [hsim]
      exact (Except.ok.inj hok).symm

end DfaWorkbench.Session
