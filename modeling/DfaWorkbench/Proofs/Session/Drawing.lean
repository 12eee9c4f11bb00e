import Mathlib.Tactic.Common
import DfaWorkbench.Proofs.Diagram.Edges
import DfaWorkbench.Proofs.Session.Sound
import DfaWorkbench.Proofs.Table

/-! Drawing a page. All parts of it down to the diagram are drawn while only texts have been
entered, and there is no other diagram on it. -/

namespace DfaWorkbench

def Event.diagram? : Event → Option Diagram
  | .diagram d => some d
  | _ => none

namespace Section

variable {parts rest : List Section}

def diagrams : Section → List Diagram
  | .ok es => es.filterMap Event.diagram?
  | .error _ => []

lemma diagrams_ofTable (t : Except TableError Table) : (ofTable t).diagrams = [] := by
  rcases t with (_ | _) | _ <;> rfl

lemma diagrams_ofName {α : Type} {x : Except NameError α} {f : α → List Event}
    (h : ∀ a, (f a).filterMap Event.diagram? = []) : (ofName x f).diagrams = [] := by
  cases x with
  | ok a => exact h a
  | error e => rfl

lemma isOk_ofTable {t : Except TableError Table} (h : ∃ u, t = .ok u) :
    (ofTable t).isOk = true := by
  obtain ⟨u, rfl⟩ := h
  rfl

lemma diagrams_events (h : ∀ p ∈ parts, p.diagrams = []) :
    (events parts).filterMap Event.diagram? = [] := by
  induction parts with
  | nil => rfl
  | cons p parts ih =>
    obtain ⟨hp, hparts⟩ := List.forall_mem_cons.1 h
    cases p with
    | ok es =>
      rw [events, List.filterMap_append, ih hparts, List.append_nil]
      exact hp
    | error e => rfl

lemma events_append (h : allDrawn parts = true) :
    events (parts ++ rest) = events parts ++ events rest := by
  induction parts with
  | nil => rfl
  | cons p parts ih =>
    rw [allDrawn, List.all_cons, Bool.and_eq_true] at h
    cases p with
    | ok es => rw [List.cons_append, events, ih h.2, events, List.append_assoc]
    | error e => cases h.1

end Section

namespace Session

variable {s : Session} {a : Action}

lemma diagrams_generationSection (x : Option (Except GenerateError Record)) :
    (generationSection x).diagrams = [] := by
  unfold generationSection
  split <;> rfl

lemma diagrams_openingSections : ∀ p ∈ s.openingSections a, p.diagrams = [] := by
  simp only [openingSections, List.forall_mem_cons]
  refine ⟨?_, rfl, diagrams_generationSection _, Section.diagrams_ofName fun _ => rfl,
    List.forall_mem_nil _⟩
  cases s.snapshot <;> rfl

lemma diagrams_automatonSections (r : Record) (n : ℕ) :
    ∀ p ∈ automatonSections r n, p.diagrams = [] := by
  simp only [automatonSections, List.forall_mem_cons]
  refine ⟨?_, Section.diagrams_ofTable _, rfl, List.forall_mem_nil _⟩
  split <;> rfl

lemma diagrams_consoleSections (ds : List Diagnostic) :
    ∀ p ∈ consoleSections ds, p.diagrams = [] := by
  rw [consoleSections, List.forall_mem_cons]
  refine ⟨rfl, ?_⟩
  split
  · exact List.forall_mem_singleton.2 rfl
  · simp only [List.forall_mem_cons]
    exact ⟨Section.diagrams_ofTable _, rfl, List.forall_mem_nil _⟩

lemma diagrams_reportSections (n : ℕ) : ∀ p ∈ s.reportSections n, p.diagrams = [] :=
  List.forall_mem_append.2 ⟨diagrams_automatonSections _ n, diagrams_consoleSections _⟩

lemma diagrams_stepEvents (before : Simulator) (after : Except SimulationError Simulator)
    (pressed : Option Button) :
    (stepEvents before after pressed).filterMap Event.diagram? = [] := by
  unfold stepEvents
  split
  · rfl
  · split <;> rfl
  · split <;> rfl

lemma diagrams_runSections (sim : Simulator) : ∀ p ∈ runSections sim, p.diagrams = [] := by
  have hpath : (pathEvents sim).filterMap Event.diagram? = [] := by
    unfold pathEvents
    split <;> rfl
  have hverdict : (verdictEvents sim).filterMap Event.diagram? = [] := by
    unfold verdictEvents
    split
    · split <;> rfl
    · rfl
  rw [runSections, List.forall_mem_append]
  refine ⟨?_, List.forall_mem_singleton.2 hverdict⟩
  split
  · exact List.forall_mem_nil _
  · simp only [List.forall_mem_cons]
    exact ⟨Section.diagrams_ofName fun _ => hpath, Section.diagrams_ofTable _,
      List.forall_mem_nil _⟩

lemma diagrams_simulate : ∀ p ∈ (s.simulate a).2, p.diagrams = [] := by
  simp only [simulate]
  split
  · exact List.forall_mem_singleton.2 rfl
  · split
    · refine List.forall_mem_singleton.2 ?_
      rw [Section.diagrams, List.cons_append, List.filterMap_cons, List.filterMap_append,
        diagrams_stepEvents]
      rfl
    · refine List.forall_mem_cons.2 ⟨?_, diagrams_runSections _⟩
      rw [Section.diagrams, List.filterMap_cons, diagrams_stepEvents]
      rfl

lemma diagrams_derivedSections (A : Automaton) : ∀ p ∈ derivedSections A, p.diagrams = [] := by
  rw [derivedSections, List.forall_mem_cons]
  refine ⟨rfl, ?_⟩
  split
  · exact List.forall_mem_singleton.2 rfl
  · exact List.forall_mem_singleton.2 rfl
  · simp only [List.forall_mem_cons]
    exact ⟨Section.diagrams_ofTable _, Section.diagrams_ofName fun _ => rfl,
      Section.diagrams_ofName fun _ => rfl, List.forall_mem_nil _⟩

namespace Sound

variable (h : s.Sound)

include h

lemma isOk_generationSection (ha : a.IsTyped) :
    (generationSection ((s.takeUp a).generation a)).isOk = true := by
  cases hx : (s.takeUp a).generation a with
  | none => rfl
  | some x =>
    rcases h.generation_cases ha hx with ⟨r, rfl, -⟩ | ⟨e, _, _, rfl, hfault⟩
    · rfl
    · rw [generationSection_of_fault hfault]
      rfl

lemma allDrawn_openingSections (ha : a.IsTyped) :
    Section.allDrawn (s.openingSections a) = true := by
  have hvalidated := (h.settle ha).plain.automaton.validated
  obtain ⟨text, htext⟩ := h.exists_snapshot
  simp only [Section.allDrawn, openingSections, List.all_cons, htext, h.isOk_generationSection ha,
    hvalidated]
  rfl

lemma allDrawn_reportSections (n : ℕ) : Section.allDrawn (s.reportSections n) = true := by
  have hworded := h.plain.automaton
  have htable := Section.isOk_ofTable (hworded.exists_transitionTable n)
  have hdiagnostics := Section.isOk_ofTable (Diagnostic.exists_table fun _ => hworded.validate)
  have hautomaton : (automatonSections s.record n).all Except.isOk = true := by
    simp only [automatonSections, List.all_cons, htable]
    rfl
  have hconsole : (consoleSections s.record.automaton.validate).all Except.isOk = true := by
    rw [consoleSections, List.all_cons]
    split
    · rfl
    · simp only [List.all_cons, hdiagnostics]
      rfl
  rw [Section.allDrawn, reportSections, h.shownRecord_eq, List.all_append, hautomaton, hconsole]
  rfl

lemma allDrawn_runSections : Section.allDrawn (runSections s.simulator) = true := by
  have hlabel {n : Name} (hn : ∃ p ∈ s.record.automaton.states, p.label = n) :
      n.isText = true := by
    obtain ⟨p, hp, rfl⟩ := hn
    exact h.plain.automaton.labels p hp
  have hpath : Name.requireTexts s.simulator.path = .ok () :=
    Name.requireTexts_of_isText fun n hn => hlabel (h.fits.path_mem n hn)
  have htable := Section.isOk_ofTable <| Simulator.exists_table fun m hm =>
    (h.fits.history_mem m hm).imp hlabel hlabel
  rw [Section.allDrawn, runSections, List.all_append]
  split
  · rfl
  · simp only [hpath, List.all_cons, htable]
    rfl

lemma allDrawn_simulate (ha : a.IsTyped) : Section.allDrawn (s.simulate a).2 = true := by
  cases hA : s.record.automaton.isReady with
  | false =>
    simp only [Session.simulate, record_takeUpWord, hA]
    rfl
  | true =>
    obtain ⟨t, hok, -⟩ := h.exists_simulator ha hA
    have hrun := (h.simulate ha).allDrawn_runSections
    rw [simulate_of_ok hA hok] at hrun
    simp only [Session.simulate, record_takeUpWord, simulator_takeUpWord, hA, hok]
    exact hrun

lemma next_eq (ha : a.IsTyped) : s.next a =
    ({ s.settle a with tables := (s.settle a).tables + 1 }.simulate a).1 := by
  rw [Session.next]
  simp only [h.allDrawn_openingSections ha, (h.settle ha).allDrawn_reportSections, if_true]

end Sound

lemma takeUpWord_withTables (n : ℕ) :
    { s with tables := n }.takeUpWord a = { s.takeUpWord a with tables := n } := by
  simp only [takeUpWord, enter]
  split <;> rfl

lemma simulate_withTables (n : ℕ) :
    ({ s with tables := n }.simulate a).1 = { (s.simulate a).1 with tables := n } := by
  have hword : { s.takeUpWord a with tables := n }.word = (s.takeUpWord a).word := rfl
  simp only [simulate, takeUpWord_withTables, hword]
  split
  · rfl
  · cases operate _ _ _ a.pressed <;> rfl

lemma page_eq (tables : ℕ) : s.page a tables = Section.events (
    s.openingSections a ++ (s.settle a).reportSections tables ++ ((s.settle a).simulate a).2 ++
      ((s.settle a).simulate a).1.closingSections) :=
  rfl

namespace Sound

variable (h : s.Sound)

include h

lemma diagram_next (ha : a.IsTyped) :
    (s.next a).diagram = ((s.settle a).simulate a).1.diagram := by
  rw [h.next_eq ha, simulate_withTables]
  rfl

lemma diagrams_page (ha : a.IsTyped) (tables : ℕ) :
    (s.page a tables).filterMap Event.diagram? = [(s.next a).diagram] := by
  have hsettled := h.settle ha
  have hdrawn : Section.allDrawn (s.openingSections a ++ (s.settle a).reportSections tables ++
      ((s.settle a).simulate a).2) = true := by
    rw [Section.allDrawn, List.all_append, List.all_append, Bool.and_eq_true, Bool.and_eq_true]
    exact ⟨⟨h.allDrawn_openingSections ha, hsettled.allDrawn_reportSections tables⟩,
      hsettled.allDrawn_simulate ha⟩
  have hnone : ∀ p ∈ s.openingSections a ++ (s.settle a).reportSections tables ++
      ((s.settle a).simulate a).2, p.diagrams = [] := by
    simp only [List.forall_mem_append]
    exact ⟨⟨diagrams_openingSections, diagrams_reportSections tables⟩, diagrams_simulate⟩
  have hwritten : ((s.settle a).simulate a).1.diagram.written = .ok _ :=
    Diagram.written_of_worded (hsettled.simulate ha).plain.automaton
  rw [page_eq, Section.events_append hdrawn, List.filterMap_append, Section.diagrams_events hnone,
    closingSections, diagramSection, hwritten, h.diagram_next ha, Section.ofName, Section.events,
    List.filterMap_append, Section.diagrams_events (diagrams_derivedSections _)]
  rfl

end Sound

end Session

end DfaWorkbench
