import DfaWorkbench.Proofs.Automaton.Parts
import DfaWorkbench.Proofs.Grammar.Derivation
import DfaWorkbench.Proofs.Result
import DfaWorkbench.Proofs.Sequence.Fresh
import DfaWorkbench.Proofs.Simulation.Acceptance

/-! The automaton of all non-terminals of a grammar: each of them accepts the words that it stands
for. -/

namespace DfaWorkbench

variable {α : Type} {g : Grammar} {settings : Settings} {A : Automaton}

def Arc.target (sink : Name) : Arc → Name
  | stop _ => sink
  | go _ next => next

namespace Grammar

lemma sinkName_injective (base : Name) : Function.Injective fun n => (sinkName base n).key := by
  have hzero {n : ℕ} : base.key ≠ (sinkName base (n + 1)).key := by
    intro h
    have hb : base = Name.text (base.shown ++ (n + 1).repr) := Name.eq_text_of_key h
    have hl : base.shown.length = base.shown.length + (n + 1).repr.length := by
      conv_lhs => rw [hb, Name.shown_text, String.length_append]
    have hpos : 0 < (n + 1).repr.length := Nat.length_repr_pos
    omega
  intro m n h
  cases m with
  | zero =>
    cases n with
    | zero => rfl
    | succ n => exact absurd h hzero
  | succ m =>
    cases n with
    | zero => exact absurd h.symm hzero
    | succ n => exact Sequence.numbered_injective base.shown (Key.text.inj h)

lemma key_ne_sinkId {k : Key} (h : g.isNonTerminal k = true) : k ≠ (g.sinkId settings).key := by
  rintro rfl
  exact Sequence.firstFree_notMem (sinkName_injective settings.sinkId) _ _ (of_decide_eq_true h)

def headOutline (g : Grammar) (head : Name) : Name × Name × Bool × Bool :=
  (head, head, decide (head.key = g.start.key), g.hasEmpty head.key)

def outlines (g : Grammar) (settings : Settings) : List (Name × Name × Bool × Bool) :=
  g.nonTerminals.map g.headOutline ++
    if g.needsSink then [(g.sinkId settings, g.sinkId settings, false, true)] else []

def arcMove? (g : Grammar) (settings : Settings) (step : Name × Production) :
    Option (Name × Char × Name) :=
  (g.arc? step.2).map fun arc => (step.1, arc.symbol, arc.target (g.sinkId settings))

lemma arc?_of_arc {head : Name} {p : Production} {arc : Arc} (h : g.arc head p = .ok arc) :
    g.arc? p = some arc := by
  rw [Grammar.arc] at h
  obtain ⟨_, _, h⟩ := Result.bind_eq_ok.1 h
  obtain ⟨_, _, h⟩ := Result.bind_eq_ok.1 h
  split at h
  · next a ha => rw [ha, Except.ok.inj h]
  · obtain ⟨_, _, h⟩ := Result.bind_eq_ok.1 h
    cases h

lemma move_of_stepTransition {head : Name} {p : Production} {i : ℕ} {t : Transition}
    (h : g.stepTransition settings head p i = .ok t) :
    some t.move = g.arcMove? settings (head, p) := by
  obtain ⟨arc, harc, h⟩ := Result.bind_eq_ok.1 h
  rw [arcMove?, arc?_of_arc harc, Option.map_some]
  cases arc with
  | stop a => rw [(Transition.of_ofChar_eq_ok (Result.mapError_eq_ok.1 h)).2]; rfl
  | go a next => rw [(Transition.of_ofChar_eq_ok (Result.mapError_eq_ok.1 h)).2]; rfl

lemma id_of_stepTransition {head : Name} {p : Production} {i : ℕ} {t : Transition}
    (h : g.stepTransition settings head p i = .ok t) :
    t.id = Name.text (Automaton.transitionName i) := by
  obtain ⟨arc, _, h⟩ := Result.bind_eq_ok.1 h
  cases arc with
  | stop a => exact (Transition.of_ofChar_eq_ok (Result.mapError_eq_ok.1 h)).1
  | go a next => exact (Transition.of_ofChar_eq_ok (Result.mapError_eq_ok.1 h)).1

lemma outline_of_headState {layout : Layout} {head : Name} {i : ℕ} {q : State}
    (h : g.headState layout head i = .ok q) : q.outline = g.headOutline head := by
  obtain ⟨k, hk, h⟩ := Result.bind_eq_ok.1 h
  obtain ⟨_, _, h⟩ := Result.bind_eq_ok.1 h
  obtain rfl : head.key = k := Name.key_of_atomKey (Result.mapError_eq_ok.1 hk)
  rw [State.outline_of_make (Result.mapError_eq_ok.1 h), StateType.isStart_ofFlags,
    StateType.isAccept_ofFlags]
  rfl

lemma outlines_of_headStates {layout : Layout} {qs : List State}
    (h : (g.nonTerminals.zipIdx.mapM fun (head, i) => g.headState layout head i) = .ok qs) :
    qs.map State.outline = g.nonTerminals.map g.headOutline := by
  have houtlines : qs.map State.outline =
      g.nonTerminals.zipIdx.map (g.headOutline ∘ Prod.fst) :=
    Result.map_eq_of_mapM h fun x q hq => outline_of_headState hq
  rwa [← List.map_map, List.zipIdx_map_fst] at houtlines

lemma outline_of_sinkState {layout : Layout} {q : State}
    (h : g.sinkState settings layout = .ok q) :
    q.outline = (g.sinkId settings, g.sinkId settings, false, true) := by
  obtain ⟨_, _, h⟩ := Result.bind_eq_ok.1 h
  exact State.outline_of_make (Result.mapError_eq_ok.1 h)

lemma outlines_of_sinkStates {layout : Layout} {qs : List State}
    (h : g.sinkStates settings layout = .ok qs) :
    qs.map State.outline =
      if g.needsSink then [(g.sinkId settings, g.sinkId settings, false, true)] else [] := by
  rw [sinkStates] at h
  split at h
  · next hn =>
    cases hq : g.sinkState settings layout with
    | error e => simp [hq, Except.map] at h
    | ok q =>
      obtain rfl : [q] = qs := by simpa [hq, Except.map] using h
      rw [if_pos hn, List.map_singleton, outline_of_sinkState hq]
  · next hn =>
    obtain rfl : [] = qs := Except.ok.inj h
    rw [if_neg hn, List.map_nil]

lemma of_fullAutomaton_eq_ok (h : g.fullAutomaton settings = .ok A) :
    A.states.map State.outline = g.outlines settings ∧
      A.transitions.map Transition.id =
        (List.range g.steps.length).map (Name.text ∘ Automaton.transitionName) ∧
      (A.transitions.map fun t => some t.move) = g.steps.map (g.arcMove? settings) ∧
      ∃ alphabet, Name.sorted g.terminals = .ok alphabet ∧
        A.alphabet = Sequence.distinct Name.key alphabet := by
  obtain ⟨layout, _, h⟩ := Result.bind_eq_ok.1 h
  obtain ⟨heads, hheads, h⟩ := Result.bind_eq_ok.1 h
  obtain ⟨_, _, h⟩ := Result.bind_eq_ok.1 h
  obtain ⟨ts, hts, h⟩ := Result.bind_eq_ok.1 h
  obtain ⟨sink, hsink, h⟩ := Result.bind_eq_ok.1 h
  obtain ⟨alphabet, halphabet, h⟩ := Result.bind_eq_ok.1 h
  obtain ⟨hstates, htransitions, hA⟩ := Automaton.of_make_eq_ok (Result.mapError_eq_ok.1 h)
  refine ⟨?_, ?_, ?_, alphabet, Result.mapError_eq_ok.1 halphabet, hA⟩
  · rw [hstates, List.map_append, outlines_of_headStates hheads, outlines_of_sinkStates hsink,
      outlines]
  · have hids : ts.map Transition.id =
        g.steps.zipIdx.map (Name.text ∘ Automaton.transitionName ∘ Prod.snd) :=
      Result.map_eq_of_mapM hts fun x t ht => id_of_stepTransition ht
    rw [htransitions, hids, ← Function.comp_assoc, ← List.map_map, List.zipIdx_map_snd,
      List.range_eq_range']
  · have hmoves : (ts.map fun t => some t.move) =
        g.steps.zipIdx.map (g.arcMove? settings ∘ Prod.fst) :=
      Result.map_eq_of_mapM hts fun x t ht => move_of_stepTransition ht
    rw [← List.map_map, List.zipIdx_map_fst] at hmoves
    rw [htransitions, hmoves]

def IsStateOf (g : Grammar) (settings : Settings) (q : State) : Prop :=
  (∃ head ∈ g.nonTerminals, q.key = head.key ∧ q.isStart = decide (head.key = g.start.key) ∧
      q.isAccept = g.hasEmpty head.key) ∨
    (g.needsSink = true ∧ q.key = (g.sinkId settings).key ∧ q.isStart = false ∧
      q.isAccept = true)

def IsTransitionOf (g : Grammar) (settings : Settings) (step : Name × Production)
    (t : Transition) : Prop :=
  ∃ arc, g.arc? step.2 = some arc ∧ t.source = step.1 ∧ t.symbol = arc.symbol ∧
    t.target = arc.target (g.sinkId settings)

structure Describes (g : Grammar) (settings : Settings) (A : Automaton) : Prop where
  isStateOf : ∀ q ∈ A.states, g.IsStateOf settings q
  head_state : ∀ head ∈ g.nonTerminals, ∃ q ∈ A.states, q.key = head.key
  sink_state : g.needsSink = true → ∃ q ∈ A.states, q.key = (g.sinkId settings).key
  isTransitionOf : ∀ t ∈ A.transitions, ∃ step ∈ g.steps, g.IsTransitionOf settings step t
  step_transition : ∀ step ∈ g.steps, ∃ t ∈ A.transitions, g.IsTransitionOf settings step t

lemma isTransitionOf_iff {step : Name × Production} {t : Transition} :
    g.IsTransitionOf settings step t ↔ g.arcMove? settings step = some t.move := by
  rw [IsTransitionOf, arcMove?, Option.map_eq_some_iff]
  refine exists_congr fun arc => and_congr_right fun _ => ?_
  rw [Transition.move, Prod.mk.injEq, Prod.mk.injEq, eq_comm, @eq_comm _ t.symbol,
    @eq_comm _ t.target]

lemma describes_fullAutomaton (h : g.fullAutomaton settings = .ok A) :
    g.Describes settings A := by
  obtain ⟨hstates, _, hmoves, _⟩ := of_fullAutomaton_eq_ok h
  have hstate {o : Name × Name × Bool × Bool} (ho : o ∈ g.outlines settings) :
      ∃ q ∈ A.states, q.key = o.1.key := by
    rw [← hstates] at ho
    obtain ⟨q, hq, rfl⟩ := List.mem_map.1 ho
    exact ⟨q, hq, rfl⟩
  constructor
  · intro q hq
    have ho : q.outline ∈ g.outlines settings := hstates ▸ List.mem_map_of_mem hq
    rcases List.mem_append.1 ho with ho | ho
    · obtain ⟨head, hhead, ho⟩ := List.mem_map.1 ho
      obtain ⟨rfl, _, hstart, haccept⟩ : head = q.id ∧ head = q.label ∧ _ = q.isStart ∧
          _ = q.isAccept := by simpa [headOutline, State.outline] using ho
      exact .inl ⟨q.id, hhead, rfl, hstart.symm, haccept.symm⟩
    · split at ho
      · next hn =>
        obtain ⟨hid, _, hstart, haccept⟩ : q.id = g.sinkId settings ∧ q.label = _ ∧
            q.isStart = false ∧ q.isAccept = true := by simpa [State.outline] using ho
        exact .inr ⟨hn, congrArg Name.key hid, hstart, haccept⟩
      · cases ho
  · intro head hhead
    exact hstate (List.mem_append_left _ (List.mem_map_of_mem hhead))
  · intro hn
    exact hstate (List.mem_append_right _ (by rw [if_pos hn]; exact List.mem_singleton_self _))
  · intro t ht
    have hmove : some t.move ∈ g.steps.map (g.arcMove? settings) :=
      hmoves ▸ List.mem_map_of_mem ht
    obtain ⟨step, hstep, hm⟩ := List.mem_map.1 hmove
    exact ⟨step, hstep, isTransitionOf_iff.2 hm⟩
  · intro step hstep
    have hmove : g.arcMove? settings step ∈ A.transitions.map fun t => some t.move :=
      hmoves ▸ List.mem_map_of_mem hstep
    obtain ⟨t, ht, hm⟩ := List.mem_map.1 hmove
    exact ⟨t, ht, isTransitionOf_iff.2 hm.symm⟩

namespace Describes

variable (h : g.Describes settings A) {k : Key}

include h

lemma acceptsFrom_nil (hk : g.isNonTerminal k = true) :
    A.AcceptsFrom k [] ↔ g.hasEmpty k = true := by
  obtain ⟨head, hhead, rfl⟩ := isNonTerminal_iff.1 hk
  have hflag {q : State} (hq : q ∈ A.states) (he : q.key = head.key) :
      q.isAccept = g.hasEmpty head.key := by
    rcases h.isStateOf q hq with ⟨other, _, hother, _, ha⟩ | ⟨_, hsink, _⟩
    · rw [ha, ← hother, he]
    · exact absurd (he.symm.trans hsink) (key_ne_sinkId hk)
  constructor
  · rintro ⟨q, hq, he⟩
    obtain ⟨hq, ha⟩ := Automaton.mem_acceptStates.1 hq
    rw [← hflag hq he, ha]
  · intro he
    obtain ⟨q, hq, hqk⟩ := h.head_state head hhead
    exact ⟨q, Automaton.mem_acceptStates.2 ⟨hq, (hflag hq hqk).trans he⟩, hqk⟩

lemma acceptsFrom_sink (hn : g.needsSink = true) (word : List Char) :
    A.AcceptsFrom (g.sinkId settings).key word ↔ word = [] := by
  cases word with
  | nil =>
    obtain ⟨q, hq, hk⟩ := h.sink_state hn
    have ha : q.isAccept = true := by
      rcases h.isStateOf q hq with ⟨head, hhead, he, _⟩ | ⟨_, _, _, ha⟩
      · have hhead := isNonTerminal_iff.2 ⟨head, hhead, rfl⟩
        exact absurd (he.symm.trans hk) (key_ne_sinkId hhead)
      · exact ha
    exact iff_of_true ⟨q, Automaton.mem_acceptStates.2 ⟨hq, ha⟩, hk⟩ rfl
  | cons a word =>
    refine iff_of_false ?_ (List.cons_ne_nil a word)
    rintro ⟨t, ht, hs, _⟩
    obtain ⟨⟨head, p⟩, hstep, arc, _, hsource, _⟩ := h.isTransitionOf t ht
    have hhead := isNonTerminal_iff.2 ⟨head, (mem_steps.1 hstep).1, rfl⟩
    exact key_ne_sinkId hhead (hsource ▸ hs)

lemma acceptsFrom_iff (hk : g.isNonTerminal k = true) (word : List Char) :
    A.AcceptsFrom k word ↔ g.Derives k word := by
  induction word generalizing k with
  | nil => rw [derives_nil, h.acceptsFrom_nil hk]
  | cons a word ih =>
    have hrest {head : Name} {p : Production} {arc : Arc} (hstep : (head, p) ∈ g.steps)
        (harc : g.arc? p = some arc) :
        A.AcceptsFrom (arc.target (g.sinkId settings)).key word ↔ arc.Continues g word := by
      cases arc with
      | stop b => exact h.acceptsFrom_sink (needsSink_of_stop hstep harc) word
      | go b next => exact ih (isNonTerminal_of_arc? harc)
    rw [derives_cons]
    constructor
    · rintro ⟨t, ht, rfl, hsymbol, hacc⟩
      obtain ⟨⟨head, p⟩, hstep, arc, harc, hs, ha, htarget⟩ := h.isTransitionOf t ht
      rw [htarget, hrest hstep harc] at hacc
      obtain rfl := production_of_arc? harc
      exact ⟨arc, hs ▸ (mem_steps.1 hstep).2.1, ha.symm.trans hsymbol, hacc⟩
    · rintro ⟨arc, hp, rfl, hnext⟩
      obtain ⟨head, hhead, rfl⟩ := isNonTerminal_iff.1 hk
      have hstep : (head, arc.production) ∈ g.steps :=
        mem_steps.2 ⟨hhead, hp, arc.isEmpty_production⟩
      obtain ⟨t, ht, arc', harc, hs, ha, htarget⟩ := h.step_transition _ hstep
      obtain rfl := Arc.production_injective (production_of_arc? harc)
      refine ⟨t, ht, by rw [hs], ha, ?_⟩
      rwa [htarget, hrest hstep harc]

end Describes

end Grammar

end DfaWorkbench
