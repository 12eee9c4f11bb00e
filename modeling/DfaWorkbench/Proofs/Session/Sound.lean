import Mathlib.Tactic.Common
import DfaWorkbench.Proofs.Record
import DfaWorkbench.Proofs.Session.Buttons
import DfaWorkbench.Proofs.Session.Generation
import DfaWorkbench.Proofs.Table

/-! What every action on a session keeps, as long as only texts are entered: the record is one of
texts and numbers, and the simulator is idle or holds a run of its automaton. -/

namespace DfaWorkbench

open Simulator (Fits)

def Action.IsTyped (a : Action) : Prop :=
  ∀ e ∈ a.entered, ∃ t, e.2 = .str t

lemma Action.IsTyped.lookup {a : Action} (h : a.IsTyped) {w : Widget} {v : Json}
    (hv : a.entered.lookup w = some v) : ∃ t, v = .str t := by
  obtain ⟨_, _, hentered, -⟩ := List.lookup_eq_some_iff.1 hv
  exact h (w, v) (by simp [hentered])

namespace Session

variable {s : Session} {a : Action} {r : Record}

structure Sound (s : Session) : Prop where
  plain : s.record.IsPlain
  floats : ∀ n : Int, ¬ s.record.Holds (.int n)
  remembered : ∀ e ∈ s.remembered, ∃ t, e.2 = .str t
  fits : Fits s.record.automaton s.simulator

def Reached (s : Session) : Prop :=
  ∃ (fresh : FreshId) (as : List Action), (∀ a ∈ as, a.IsTyped) ∧ (initial fresh).after as = s

namespace Sound

lemma initial (fresh : FreshId) : (initial fresh).Sound where
  plain := {
    id := ⟨fresh.text, fresh.text_ne, rfl⟩
    name := rfl
    description := ⟨_, rfl⟩
    automaton := Automaton.worded_sample
    places := by simp [Session.initial, ofRecord, sampleRecord, Automaton.sample,
      Automaton.samplePlace]
    bends := List.forall_mem_nil _ }
  floats := by simp [Session.initial, ofRecord, sampleRecord, Automaton.sample,
    Automaton.samplePlace, Record.Holds]
  remembered := List.forall_mem_nil _
  fits := .idle

section

variable (h : s.Sound)

include h

lemma shownRecord_eq : s.shownRecord = s.record := by
  rw [shownRecord, h.plain.automaton.grown_eq]

lemma snapshot_eq : s.snapshot = s.record.toText (.ofWidth (some 2)) := by
  rw [snapshot, h.shownRecord_eq]

lemma exists_snapshot : ∃ text, s.snapshot = .ok text :=
  ⟨_, h.snapshot_eq.trans
    (Record.toText_of_check h.plain (Record.check_of_floats h.plain h.floats))⟩

lemma exists_value (w : Widget) (default : String) : ∃ t, s.value w default = .str t := by
  rw [value]
  cases hv : s.remembered.lookup (w, default) with
  | none => exact ⟨default, rfl⟩
  | some v =>
    obtain ⟨_, _, hremembered, -⟩ := List.lookup_eq_some_iff.1 hv
    exact h.remembered ((w, default), v) (by simp [hremembered])

lemma enter (w : Widget) (default : String) {v : Option Json}
    (hv : ∀ x, v = some x → ∃ t, x = .str t) : (s.enter w default v).Sound := by
  cases v with
  | none => exact h
  | some x => exact ⟨h.plain, h.floats, List.forall_mem_cons.2 ⟨hv x rfl, h.remembered⟩, h.fits⟩

lemma select (title : Option Json) : (s.select title).Sound := by
  rcases s.select_eq_or title with he | ⟨e, he⟩
  · rwa [he]
  · rw [he]
    exact ⟨h.plain, h.floats, h.remembered, h.fits⟩

lemma takeUp (ha : a.IsTyped) : (s.takeUp a).Sound :=
  ((h.select _).enter _ _ fun _ => ha.lookup).enter _ _ fun _ => ha.lookup

lemma takeUpWord (ha : a.IsTyped) : (s.takeUpWord a).Sound :=
  h.enter _ _ fun _ => ha.lookup

lemma replaceRecord (hr : r.IsPlain) (hfloats : ∀ n : Int, ¬ r.Holds (.int n)) :
    (s.replaceRecord r).Sound :=
  ⟨hr, hfloats, h.remembered, .idle⟩

lemma generation_cases (ha : a.IsTyped) {x : Except GenerateError Record}
    (hx : (s.takeUp a).generation a = some x) :
    (∃ r, x = .ok r ∧ r.IsPlain ∧ ∀ n : Int, ¬ r.Holds (.int n)) ∨
      ∃ e start rules, x = .error e ∧ e.IsFaultOf start rules := by
  obtain ⟨start, hstart⟩ := (h.takeUp ha).exists_value .startSymbol (s.takeUp a).selected.start
  obtain ⟨rules, hrules⟩ := (h.takeUp ha).exists_value .rules (s.takeUp a).selected.rules
  obtain ⟨-, hx⟩ := generation_eq_some_iff.1 hx
  rw [startSymbol, hstart, Session.rules, hrules] at hx
  rcases generated_cases a.fresh start rules with
    ⟨_, hr, hworded, hfloats, ⟨g, _, -, rfl⟩, -⟩ | ⟨e, he, hfault⟩
  · exact .inl ⟨_, hx.symm.trans hr, Record.isPlain_ofGrammar hfloats hworded,
      Record.not_holds_int_ofGrammar hfloats⟩
  · exact .inr ⟨e, start, rules, hx.symm.trans he, hfault⟩

lemma settle (ha : a.IsTyped) : (s.settle a).Sound := by
  obtain ⟨text, htext⟩ := h.exists_snapshot
  by_cases hr : ∃ r, (s.takeUp a).generation a = some (.ok r)
  · obtain ⟨r, hr⟩ := hr
    rw [settle_of_generated htext hr]
    rcases h.generation_cases ha hr with ⟨_, hok, hplain, hfloats⟩ | ⟨_, _, _, he, -⟩
    · obtain rfl := Except.ok.inj hok
      exact (h.takeUp ha).replaceRecord hplain hfloats
    · cases he
  · rw [settle_of_not_generated htext (not_exists.1 hr)]
    exact h.takeUp ha

lemma exists_simulator (ha : a.IsTyped) (hA : s.record.automaton.isReady = true) :
    ∃ t, operate s.simulator s.record.automaton (s.takeUpWord a).word a.pressed = .ok t ∧
      Fits s.record.automaton t := by
  obtain ⟨w, hw⟩ := (h.takeUpWord ha).exists_value .word defaultWord
  rw [word, hw]
  exact exists_operate hA h.fits w a.pressed

lemma simulate (ha : a.IsTyped) : (s.simulate a).1.Sound := by
  have htaken := h.takeUpWord ha
  cases hA : s.record.automaton.isReady with
  | false =>
    rw [simulate_of_not_ready hA]
    exact htaken
  | true =>
    obtain ⟨t, hok, hfits⟩ := h.exists_simulator ha hA
    rw [simulate_of_ok hA hok]
    rw [← record_takeUpWord (s := s) (a := a)] at hfits
    exact ⟨htaken.plain, htaken.floats, htaken.remembered, hfits⟩

lemma next (ha : a.IsTyped) : (s.next a).Sound := by
  have hsettled := h.settle ha
  have htables (n : ℕ) : { s.settle a with tables := n }.Sound :=
    ⟨hsettled.plain, hsettled.floats, hsettled.remembered, hsettled.fits⟩
  simp only [Session.next]
  split
  · split
    · exact (htables _).simulate ha
    · exact htables _
  · exact hsettled

lemma after {as : List Action} (has : ∀ a ∈ as, a.IsTyped) : (s.after as).Sound := by
  induction as generalizing s with
  | nil => exact h
  | cons a as ih =>
    rw [List.forall_mem_cons] at has
    exact ih (h.next has.1) has.2

end

end Sound

lemma Reached.sound (h : s.Reached) : s.Sound := by
  obtain ⟨fresh, as, has, rfl⟩ := h
  exact (Sound.initial fresh).after has

lemma reached_initial (fresh : FreshId) : (initial fresh).Reached :=
  ⟨fresh, [], List.forall_mem_nil _, rfl⟩

end Session

end DfaWorkbench
