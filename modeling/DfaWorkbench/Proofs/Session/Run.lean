import Mathlib.Tactic.Common
import DfaWorkbench.Proofs.Session.Drawing

/-! The run of a session. Whatever is generated in between, a run is one of the automaton that is
shown, and its state is a state of it. -/

namespace DfaWorkbench.Session

variable {s : Session} {a : Action}

namespace Sound

variable (h : s.Sound)

include h

lemma simulator_next (ha : a.IsTyped) :
    (s.next a).simulator = ((s.settle a).simulate a).1.simulator := by
  rw [h.next_eq ha, simulate_withTables]

lemma operate_next (ha : a.IsTyped) (hA : (s.next a).record.automaton.isReady = true) :
    operate (s.settle a).simulator (s.next a).record.automaton ((s.settle a).takeUpWord a).word
      a.pressed = .ok (s.next a).simulator := by
  rw [record_next] at hA ⊢
  obtain ⟨t, hok, -⟩ := (h.settle ha).exists_simulator ha hA
  rw [h.simulator_next ha, simulate_of_ok hA hok, hok]

end Sound

/-- After any action the simulator is idle or runs the automaton of the record, and idle if that has
errors. No button is refused, and the one diagram of the page is that of the automaton, with the
state in which the simulator is now. -/
theorem run_of_reached (h : s.Reached) (ha : a.IsTyped) (tables : ℕ) :
    ((s.next a).simulator = .idle ∨
      (s.next a).simulator.automaton? = some (s.next a).record.automaton) ∧
    ((s.next a).record.automaton.isReady = false → (s.next a).simulator = .idle) ∧
    ((s.next a).record.automaton.isReady = true →
      operate (s.settle a).simulator (s.next a).record.automaton ((s.settle a).takeUpWord a).word
        a.pressed = .ok (s.next a).simulator) ∧
    ∃ d, (s.page a tables).filterMap Event.diagram? = [d] ∧
      d.automaton = (s.next a).record.automaton ∧
      d.marks.current = (s.next a).simulator.current?.map State.key ∧
      ∀ q, (s.next a).simulator.current? = some q → q ∈ d.automaton.states := by
  have hnext := h.sound.next ha
  refine ⟨hnext.fits.automaton_eq, hnext.fits.eq_idle, h.sound.operate_next ha,
    (s.next a).diagram, h.sound.diagrams_page ha tables, rfl, rfl, fun q hq => ?_⟩
  exact hnext.fits.current_mem hq

def pressStart : Action where
  fresh := secondId
  pressed := some .start

theorem run_of_reached_initial :
    (initial firstId).Reached ∧ pressStart.IsTyped ∧
      (((initial firstId).next pressStart).simulator.automaton? = some .sample) ∧
      ∃ d, ((initial firstId).page pressStart 1).filterMap Event.diagram? = [d] ∧
        d.marks.current = some (.text "q0") := by
  have hreached : (initial firstId).Reached := reached_initial firstId
  have htyped : pressStart.IsTyped := List.forall_mem_nil _
  obtain ⟨text, htext⟩ := hreached.sound.exists_snapshot
  have hrecord : ((initial firstId).next pressStart).record = sampleRecord firstId := by
    rw [record_next, settle_of_not_generated htext fun r hr => by cases hr]
    rfl
  have hA : Automaton.sample.isReady = true := by decide
  obtain ⟨q, hq, hkey⟩ : ∃ q, Automaton.sample.startState? = some q ∧ q.key = .text "q0" :=
    ⟨_, rfl, rfl⟩
  obtain ⟨-, -, hoperate, d, hd, -, hcurrent, -⟩ := run_of_reached hreached htyped 1
  rw [hrecord] at hoperate
  have hstart : Simulator.start .sample (.str "ab") =
      .ok ((initial firstId).next pressStart).simulator :=
    hoperate hA
  rw [Simulator.start, wordOf_str] at hstart
  have hsimulator := Except.ok.inj ((Simulator.begin_of_isReady hA hq _).symm.trans hstart)
  rw [← hsimulator] at hcurrent
  exact ⟨hreached, htyped, by rw [← hsimulator]; rfl, d, hd, hcurrent.trans (congrArg some hkey)⟩

end DfaWorkbench.Session
