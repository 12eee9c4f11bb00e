import Mathlib.Tactic.Common
import DfaWorkbench.Proofs.Session.Drawing

/-! The snapshot that a page offers. It is that of the record from before the page, also where the
page shows a record that has just been generated. -/

namespace DfaWorkbench.Session

variable {s : Session} {a : Action}

lemma exists_page {text : String} (h : s.snapshot = .ok text) (tables : ℕ) :
    ∃ events, s.page a tables = .download text :: events := by
  simp only [page, openingSections, snapshotSection, h]
  exact ⟨_, rfl⟩

lemma exists_text {r : Record} (hr : r.IsPlain) (hints : ∀ n : Int, ¬ r.Holds (.int n))
    (hfloats : ∀ x, r.Holds (.float x) → Json.FloatReadsBack x) :
    ∃ text, r.toText (.ofWidth (some 2)) = .ok text ∧
      ∀ fresh, Record.ofText fresh text = .ok r := by
  have hcheck := Record.check_of_floats hr hints
  refine ⟨_, Record.toText_of_check hr hcheck, fun fresh => ?_⟩
  rw [Record.ofText_render hr (Json.Layout.isPlain_ofWidth _) hfloats, hcheck]
  rfl

theorem snapshot_of_reached (h : s.Reached)
    (hfloats : ∀ x, s.record.Holds (.float x) → Json.FloatReadsBack x) (a : Action) (tables : ℕ) :
    ∃ text, s.record.toText (.ofWidth (some 2)) = .ok text ∧
      (∃ events, s.page a tables = .download text :: events) ∧
      (∀ fresh, Record.ofText fresh text = .ok s.record) ∧
      ((s.next a).record = s.record ∨
        ∃ r, (s.takeUp a).generation a = some (.ok r) ∧ (s.next a).record = r) := by
  have hs := h.sound
  obtain ⟨text, htext, hread⟩ := exists_text hs.plain hs.floats hfloats
  have hsnapshot : s.snapshot = .ok text := hs.snapshot_eq.trans htext
  refine ⟨text, htext, exists_page hsnapshot tables, hread, ?_⟩
  rw [record_next]
  rcases settle_cases (a := a) hsnapshot with ⟨r, hr, hrecord, -⟩ | ⟨-, hrecord, -⟩
  · exact .inr ⟨r, hr, hrecord⟩
  · exact .inl hrecord

lemma floatReadsBack_sample {fresh : FreshId} {x : Float}
    (h : (sampleRecord fresh).Holds (.float x)) : Json.FloatReadsBack x := by
  have hx : x = 100 ∨ x = 200 ∨ x = 300 ∨ x = 500 := by
    simp [Record.Holds, sampleRecord, Automaton.sample, Automaton.samplePlace] at h
    grind
  rcases hx with rfl | rfl | rfl | rfl
  · exact ⟨⟨false, ['1', '0', '0'], ['0'], none⟩, by rfl, by rfl⟩
  · exact ⟨⟨false, ['2', '0', '0'], ['0'], none⟩, by rfl, by rfl⟩
  · exact ⟨⟨false, ['3', '0', '0'], ['0'], none⟩, by rfl, by rfl⟩
  · exact ⟨⟨false, ['5', '0', '0'], ['0'], none⟩, by rfl, by rfl⟩

theorem snapshot_of_reached_initial :
    ∃ text, (∃ events, (initial firstId).page { fresh := secondId } 1 = .download text :: events) ∧
      Record.ofText secondId text = .ok ((initial firstId).next { fresh := secondId }).record := by
  obtain ⟨text, -, hpage, hread, hrecord | ⟨r, hr, -⟩⟩ :=
    snapshot_of_reached (reached_initial firstId) (fun _ => floatReadsBack_sample)
      { fresh := secondId } 1
  · exact ⟨text, hpage, hrecord ▸ hread secondId⟩
  · cases hr

lemma floatReadsBack_emptyWord {fresh : FreshId} {x : Float}
    (h : (emptyWordRecord fresh).Holds (.float x)) : Json.FloatReadsBack x := by
  obtain rfl : x = 200 := by
    simpa [Record.Holds, emptyWordRecord, Record.ofGrammar, emptyWordAutomaton] using h
  exact ⟨⟨false, ['2', '0', '0'], ['0'], none⟩, by rfl, by rfl⟩

theorem snapshot_of_generated :
    ∃ text, (sampleRecord firstId).toText (.ofWidth (some 2)) = .ok text ∧
      (∃ events, (initial firstId).page generateEmptyWord 1 = .download text :: events) ∧
      ((initial firstId).next generateEmptyWord).record = emptyWordRecord secondId ∧
      (∃ d, ((initial firstId).page generateEmptyWord 1).filterMap Event.diagram? = [d] ∧
        d.automaton = emptyWordAutomaton) ∧
      (emptyWordRecord secondId).toText (.ofWidth (some 2)) ≠ .ok text := by
  have hsound := Sound.initial firstId
  obtain ⟨text, htext, hsample⟩ :=
    exists_text hsound.plain hsound.floats fun _ => floatReadsBack_sample
  have hsnapshot : (initial firstId).snapshot = .ok text := hsound.snapshot_eq.trans htext
  have hrecord : ((initial firstId).next generateEmptyWord).record = emptyWordRecord secondId := by
    have hgeneration : ((initial firstId).takeUp generateEmptyWord).generation generateEmptyWord =
        some (.ok (emptyWordRecord secondId)) :=
      congrArg some (generated_emptyWord secondId)
    rw [record_next, settle_of_generated hsnapshot hgeneration]
    rfl
  have htyped : generateEmptyWord.IsTyped := by simp [Action.IsTyped, generateEmptyWord]
  have hnext := hsound.next htyped
  -- texts of different records differ, since each is read as its own record
  obtain ⟨text', htext', hempty⟩ := exists_text (hrecord ▸ hnext.plain) (hrecord ▸ hnext.floats)
    fun _ => floatReadsBack_emptyWord
  have hdiagram : ((initial firstId).next generateEmptyWord).diagram.automaton =
      emptyWordAutomaton :=
    congrArg Record.automaton hrecord
  refine ⟨text, htext, exists_page hsnapshot 1, hrecord,
    ⟨_, hsound.diagrams_page htyped 1, hdiagram⟩, fun hsame => ?_⟩
  obtain rfl : text' = text := Except.ok.inj (htext'.symm.trans hsame)
  have hequal : sampleRecord firstId = emptyWordRecord secondId :=
    Except.ok.inj ((hsample secondId).symm.trans (hempty secondId))
  have hname := congrArg (Name.text? ∘ Record.name) hequal
  revert hname
  decide

end DfaWorkbench.Session
