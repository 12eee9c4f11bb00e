import Mathlib.Tactic.Common
import DfaWorkbench.Proofs.Session.Sound

namespace DfaWorkbench.Session

variable {s : Session} {a : Action} {start rules : String}

/-- Generating from texts gives a record whose automaton has one start state, named by the start
symbol without the blanks around it, or a fault of the rules. The record takes the place of the old
one and makes the simulator idle, whereas the fault is shown and leaves record and simulator as they
were. It does not come to that in a session whose snapshot cannot be written, which stays as it is;
entering texts and pressing buttons does not lead to one. -/
theorem generate_all_or_nothing (hpressed : a.pressed = some .generate)
    (hstart : (s.takeUp a).startSymbol = .str start) (hrules : (s.takeUp a).rules = .str rules)
    (tables : ℕ) :
    ((∃ r, generated a.fresh (.str start) (.str rules) = .ok r ∧
        (∃ q, r.automaton.startStates = [q] ∧
          q.id = .text (String.ofList (Text.trim start.toList))) ∧
        ((∃ text, s.snapshot = .ok text) →
          (s.next a).record = r ∧ (s.next a).simulator = .idle ∧
          .success ("Successfully converted grammar to a DFA with " ++
            r.automaton.states.length.repr ++ " states") ∈ s.page a tables)) ∨
      ∃ e, generated a.fresh (.str start) (.str rules) = .error e ∧ e.IsFaultOf start rules ∧
        (s.next a).record = s.record ∧ (s.next a).simulator = s.simulator ∧
        ((∃ text, s.snapshot = .ok text) →
          .error ("Error processing grammar: " ++ e.message) ∈ s.page a tables)) ∧
    (∀ e, s.snapshot = .error e →
      s.next a = s ∧ s.page a tables = [.failure (.unwritable e)]) ∧
    (s.Reached → ∃ text, s.snapshot = .ok text) := by
  refine ⟨?_, fun e he => ⟨next_of_unwritable he, page_of_unwritable he tables⟩,
    fun h => h.sound.exists_snapshot⟩
  have hgeneration : (s.takeUp a).generation a =
      some (generated a.fresh (.str start) (.str rules)) := by
    rw [generation_eq_some_iff, hstart, hrules]
    exact ⟨hpressed, rfl⟩
  have hrecord := record_next (s := s) (a := a)
  have hsimulator := simulator_next_of_generate (s := s) hpressed
  rcases generated_cases a.fresh start rules with ⟨r, hr, -, -, -, hq⟩ | ⟨e, he, hfault⟩
  · rw [hr] at hgeneration
    refine .inl ⟨r, hr, hq, fun ⟨text, htext⟩ => ?_⟩
    rw [settle_of_generated htext hgeneration] at hrecord hsimulator
    refine ⟨hrecord, hsimulator, ?_⟩
    exact mem_page_of_generation htext hgeneration rfl (List.mem_singleton_self _)
  · rw [he] at hgeneration
    have hnone : ∀ r, (s.takeUp a).generation a ≠ some (.ok r) := by
      rw [hgeneration]
      exact fun r h => by cases h
    rw [(settle_kept hnone).1] at hrecord
    rw [(settle_kept hnone).2] at hsimulator
    refine .inr ⟨e, he, hfault, hrecord, hsimulator, fun ⟨text, htext⟩ => ?_⟩
    exact mem_page_of_generation htext hgeneration (generationSection_of_fault hfault)
      (List.mem_singleton_self _)

def generateNothing : Action where
  fresh := secondId
  entered := [(.rules, .str "S")]
  pressed := some .generate

theorem generate_all_or_nothing_initial :
    (((initial firstId).next generateEmptyWord).record = emptyWordRecord secondId ∧
      ((initial firstId).next generateEmptyWord).simulator = .idle) ∧
    ((initial firstId).next generateNothing).record = sampleRecord firstId ∧
      .error ("Error processing grammar: Line 1: Invalid production rule format: \"S\". " ++
        "Use '→' or '->'") ∈ (initial firstId).page generateNothing 1 := by
  have hfault : generated secondId (.str "S") (.str "S") =
      .error (.rules (.parse (.badLine 1 "S" (.noArrow ["→", "->"])))) := by cbv
  constructor
  · obtain ⟨⟨r, hr, -, hshown⟩ | ⟨e, he, -⟩, -, hreached⟩ :=
      generate_all_or_nothing (s := initial firstId) (a := generateEmptyWord) rfl rfl rfl 1
    · obtain rfl := Except.ok.inj (hr.symm.trans (generated_emptyWord secondId))
      obtain ⟨hrecord, hsimulator, -⟩ := hshown (hreached (reached_initial firstId))
      exact ⟨hrecord, hsimulator⟩
    · cases he.symm.trans (generated_emptyWord secondId)
  · obtain ⟨⟨r, hr, -⟩ | ⟨e, he, -, hrecord, -, hshown⟩, -, hreached⟩ :=
      generate_all_or_nothing (s := initial firstId) (a := generateNothing) rfl rfl rfl 1
    · cases hr.symm.trans hfault
    · obtain rfl := Except.error.inj (he.symm.trans hfault)
      exact ⟨hrecord, hshown (hreached (reached_initial firstId))⟩

end DfaWorkbench.Session
