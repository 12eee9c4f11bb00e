import Mathlib.Tactic.Common
import DfaWorkbench.Proofs.Simulation.Runs
import DfaWorkbench.Session.Page

/-! What the buttons of the simulation make of a simulator. None of them is refused while the
simulator is idle or holds a run of the automaton that the buttons are for. -/

namespace DfaWorkbench

namespace Simulator

variable {A : Automaton} {q : State} {word : List Char} {ms : List Move} {s t : Simulator}

lemma OnRun.exists_step (h : A.Deterministic) (hs : OnRun A q word s) (hr : s.isRunning = true) :
    ∃ t, s.step = .ok t ∧ OnRun A q word t := by
  cases hs with
  | stuck hl => cases hr
  | along hp =>
    rcases step_cases h hp (isRunning_along.1 hr) with ⟨m, hp', hstep⟩ | ⟨rfl, hstep⟩
    · exact ⟨_, hstep, .along hp'⟩
    · exact ⟨_, hstep, .stuck (isRunning_along.1 hr)⟩

lemma OnRun.atEnd (A : Automaton) (q : State) (word : List Char) :
    OnRun A q word (atEnd A q word) := by
  rw [Simulator.atEnd]
  split
  · next hl => exact .stuck hl
  · exact .along List.prefix_rfl

lemma path_along_mem (hq : q ∈ A.states) (hp : ms <+: A.movesFrom q word) :
    ∀ n ∈ (along A q word ms).path, ∃ p ∈ A.states, p.label = n := by
  rw [path_along, List.forall_mem_map]
  exact fun p hmem => ⟨p, Automaton.visited_mem hq hp p hmem, rfl⟩

lemma history_along_mem (hq : q ∈ A.states) (hp : ms <+: A.movesFrom q word) :
    ∀ m ∈ (along A q word ms).history,
      (∃ p ∈ A.states, p.label = m.1) ∧ ∃ p ∈ A.states, p.label = m.2.2 := by
  have hvisited := Automaton.visited_mem hq hp
  change ∀ m ∈ ms.map fun m => (m.source.label, m.symbol, m.target.label), _
  rw [List.forall_mem_map]
  intro m hm
  obtain ⟨i, hi⟩ := List.mem_iff_getElem?.1 hm
  have hsource := List.mem_of_getElem? (Automaton.movesFrom_getElem? hp hi).1
  have htarget : m.target ∈ q :: ms.map Move.target :=
    List.mem_cons_of_mem _ (List.mem_map_of_mem hm)
  exact ⟨⟨_, hvisited _ hsource, rfl⟩, ⟨_, hvisited _ htarget, rfl⟩⟩

variable (hq : q ∈ A.states)

include hq

lemma OnRun.path_mem (hs : OnRun A q word s) : ∀ n ∈ s.path, ∃ p ∈ A.states, p.label = n := by
  cases hs with
  | along hp => exact path_along_mem hq hp
  | stuck => exact path_along_mem hq List.prefix_rfl

lemma OnRun.history_mem (hs : OnRun A q word s) : ∀ m ∈ s.history,
    (∃ p ∈ A.states, p.label = m.1) ∧ ∃ p ∈ A.states, p.label = m.2.2 := by
  cases hs with
  | along hp => exact history_along_mem hq hp
  | stuck => exact history_along_mem hq List.prefix_rfl

lemma OnRun.current_mem (hs : OnRun A q word s) : ∃ p ∈ A.states, s.current? = some p := by
  obtain ⟨ms, hp, hcurrent⟩ := hs.exists_moves
  exact ⟨_, Automaton.lastFrom_mem hq hp, hcurrent⟩

omit hq

inductive Fits (A : Automaton) : Simulator → Prop
  | idle : Fits A .idle
  | run {q : State} {word : List Char} {s : Simulator} : A.isReady = true →
      A.startState? = some q → OnRun A q word s → Fits A s

namespace Fits

lemma eq_idle (h : Fits A s) (hA : A.isReady = false) : s = .idle := by
  cases h with
  | idle => rfl
  | run hready => exact absurd hready (by simp [hA])

lemma automaton_eq (h : Fits A s) : s = .idle ∨ s.automaton? = some A := by
  cases h with
  | idle => exact .inl rfl
  | run _ _ hs => cases hs <;> exact .inr rfl

lemma current_mem (h : Fits A s) (hcurrent : s.current? = some q) : q ∈ A.states := by
  cases h with
  | idle => cases hcurrent
  | run _ hstart hs =>
    obtain ⟨p, hp, hcurrent'⟩ := hs.current_mem (Automaton.startState_mem hstart)
    exact Option.some.inj (hcurrent'.symm.trans hcurrent) ▸ hp

lemma path_mem (h : Fits A s) : ∀ n ∈ s.path, ∃ p ∈ A.states, p.label = n := by
  cases h with
  | idle => exact List.forall_mem_nil _
  | run _ hstart hs => exact hs.path_mem (Automaton.startState_mem hstart)

lemma history_mem (h : Fits A s) : ∀ m ∈ s.history,
    (∃ p ∈ A.states, p.label = m.1) ∧ ∃ p ∈ A.states, p.label = m.2.2 := by
  cases h with
  | idle => exact List.forall_mem_nil _
  | run _ hstart hs => exact hs.history_mem (Automaton.startState_mem hstart)

end Fits

end Simulator

lemma wordOf_str (w : String) : wordOf (.str w) = .ok w.toList := by
  have hsymbol (a : Char) : symbolOf (.str (String.singleton a)) = .ok a := by
    simp [symbolOf]
  refine Result.mapM_eq_ok_iff.2 (List.forall₂_map_left_iff.2 (List.forall₂_same.2 ?_))
  exact fun a _ => hsymbol a

namespace Session

open Simulator

variable {A : Automaton} {q : State} {sim : Simulator}

lemma exists_start (hA : A.isReady = true) (w : String) :
    ∃ q t, A.startState? = some q ∧ Simulator.start A (.str w) = .ok t ∧ OnRun A q w.toList t := by
  obtain ⟨q, hq⟩ := startState?_of_isReady hA
  refine ⟨q, _, hq, ?_, .along List.nil_prefix⟩
  rw [Simulator.start, wordOf_str]
  exact begin_of_isReady hA hq _

lemma exists_finishFrom (hA : A.isReady = true) (h : Fits A sim) (w : String) :
    ∃ t, finishFrom sim A (.str w) = .ok t ∧ Fits A t := by
  have hd := Automaton.isReady_iff_deterministic.1 hA
  rw [finishFrom]
  split
  · next hr =>
    cases h with
    | idle => cases hr
    | run _ hq hs => exact ⟨_, hs.run hd, .run hA hq (.atEnd ..)⟩
  · obtain ⟨q, t, hq, hstart, ht⟩ := exists_start hA w
    rw [hstart]
    exact ⟨_, ht.run hd, .run hA hq (.atEnd ..)⟩

lemma exists_operate (hA : A.isReady = true) (h : Fits A sim) (w : String)
    (pressed : Option Button) :
    ∃ t, operate sim A (.str w) pressed = .ok t ∧ Fits A t := by
  match pressed with
  | none | some .generate => exact ⟨sim, rfl, h⟩
  | some .start =>
    obtain ⟨q, t, hq, hstart, ht⟩ := exists_start hA w
    exact ⟨t, hstart, .run hA hq ht⟩
  | some .step =>
    rw [operate]
    split
    · next hr =>
      cases h with
      | idle => cases hr
      | run _ hq hs =>
        obtain ⟨t, hstep, ht⟩ := hs.exists_step (Automaton.isReady_iff_deterministic.1 hA) hr
        exact ⟨t, hstep, .run hA hq ht⟩
    · exact ⟨sim, rfl, h⟩
  | some .finish => exact exists_finishFrom hA h w
  | some .reset => exact ⟨.idle, rfl, .idle⟩

end Session

end DfaWorkbench
