import DfaWorkbench.Proofs.Conversion.Convertible
import DfaWorkbench.Proofs.Conversion.ToGrammar
import DfaWorkbench.Proofs.Sequence.Image

/-! The automaton of a grammar whose non-terminals are the labels of states: if no two states share
a label, it is the part of the old automaton that can be reached, under the labels. -/

namespace DfaWorkbench

variable {A F : Automaton} {g : Grammar} {settings : Settings} {s p q : State} {qs : List State}
  {k : Key}

def State.labelOutline (q : State) : Name × Name × Bool × Bool :=
  (q.label, q.label, q.isStart, q.isAccept)

namespace Automaton

def movesOf (A : Automaton) (q : State) : List LabelledMove :=
  (A.transitions.filter fun t => t.source.key = q.key && A.hasState t.target.key).map fun t =>
    (q.label, t.symbol, A.labelOf t.target)

def LabelsDistinct (A : Automaton) : Prop :=
  (A.states.map fun q => q.label.key).Nodup

lemma LabelsDistinct.eq (h : A.LabelsDistinct) (hp : p ∈ A.states) (hq : q ∈ A.states)
    (hk : p.label.key = q.label.key) : p = q :=
  List.inj_on_of_nodup_map h hp hq hk

lemma LabelsDistinct.source_iff (h : A.LabelsDistinct) (hq : q ∈ A.states) {t : Transition}
    (hp : A.state? t.source.key = some p) :
    p.label.key = q.label.key ↔ t.source.key = q.key := by
  obtain ⟨hp, hk⟩ := state?_eq_some_iff.1 hp
  rw [← hk]
  exact ⟨fun he => congrArg State.key (h.eq hp hq he), fun he => by rw [eq_of_key_eq hp hq he]⟩

lemma filter_labelledMoves (h : A.LabelsDistinct) (hq : q ∈ A.states) :
    A.labelledMoves.filter (·.1.key = q.label.key) = A.movesOf q := by
  rw [labelledMoves, movesOf, List.filter_filterMap, ← List.filterMap_eq_map, List.filterMap_filter]
  refine List.filterMap_congr fun t _ => ?_
  cases hp : A.state? t.source.key with
  | none =>
    have hne : t.source.key ≠ q.key := by
      intro he
      rw [he, state?_eq_some_iff.2 ⟨hq, rfl⟩] at hp
      cases hp
    simp [hne]
  | some p =>
    cases hr : A.state? t.target.key with
    | none => simp [hasState, hr]
    | some r =>
      by_cases he : t.source.key = q.key
      · obtain rfl := h.eq (state?_eq_some_iff.1 hp).1 hq ((h.source_iff hq hp).2 he)
        simp [hasState, labelOf, hr, he]
      · have hne : p.label.key ≠ q.label.key := mt (h.source_iff hq hp).1 he
        simp [he, hne]

lemma mem_movesOf {move : LabelledMove} : move ∈ A.movesOf q ↔
    ∃ t ∈ A.transitions, t.source.key = q.key ∧ ∃ r ∈ A.states, r.key = t.target.key ∧
      move = (q.label, t.symbol, r.label) := by
  rw [movesOf, List.mem_map]
  constructor
  · rintro ⟨t, ht, rfl⟩
    obtain ⟨ht, hends⟩ := List.mem_filter.1 ht
    rw [Bool.and_eq_true, decide_eq_true_eq] at hends
    obtain ⟨r, hr⟩ := Option.isSome_iff_exists.1 hends.2
    obtain ⟨hmem, hk⟩ := state?_eq_some_iff.1 hr
    exact ⟨t, ht, hends.1, r, hmem, hk, by rw [labelOf, hr]⟩
  · rintro ⟨t, ht, hs, r, hr, hk, rfl⟩
    have hfound := state?_eq_some_iff.2 ⟨hr, hk⟩
    refine ⟨t, List.mem_filter.2 ⟨ht, ?_⟩, by rw [labelOf, hfound]⟩
    simp [hs, hasState, hfound]

lemma mem_labelledMoves_of_movesOf {move : LabelledMove} (hq : q ∈ A.states)
    (h : move ∈ A.movesOf q) : move ∈ A.labelledMoves := by
  obtain ⟨t, ht, hs, r, hr, hk, rfl⟩ := mem_movesOf.1 h
  exact mem_labelledMoves.2 ⟨t, ht, q, hq, r, hr, hs.symm, hk, rfl⟩

/-- An automaton of some states of another one, under the labels, with all their transitions to
states. -/
structure Relabels (F A : Automaton) (qs : List State) : Prop where
  states_eq : F.states.map State.outline = qs.map State.labelOutline
  moves_eq : F.transitions.map Transition.move = qs.flatMap A.movesOf
  subset : qs ⊆ A.states
  closed : ∀ q ∈ qs, ∀ t ∈ A.transitions, t.source.key = q.key →
    ∀ r ∈ A.states, r.key = t.target.key → r ∈ qs

namespace Relabels

variable (h : F.Relabels A qs)

include h

lemma hasState_label (hq : q ∈ qs) : F.hasState q.label.key = true := by
  have hmem : q.labelOutline ∈ F.states.map State.outline :=
    h.states_eq ▸ List.mem_map_of_mem hq
  obtain ⟨p, hp, he⟩ := List.mem_map.1 hmem
  exact hasState_iff.2 ⟨p, hp, congrArg (fun o => o.1.key) he⟩

lemma chain_label (hs : s ∈ qs) (hc : A.Chain s.key k) :
    ∃ q ∈ qs, q.key = k ∧ F.Chain s.label.key q.label.key := by
  induction hc with
  | here _ => exact ⟨s, hs, rfl, .here (h.hasState_label hs)⟩
  | @step _ t _ ht hsource htarget ih =>
    obtain ⟨q, hq, rfl, hc⟩ := ih
    obtain ⟨r, hr, hrk⟩ := hasState_iff.1 htarget
    have hrq := h.closed q hq t ht hsource r hr hrk
    have hmove : (q.label, t.symbol, r.label) ∈ F.transitions.map Transition.move := by
      rw [h.moves_eq, List.mem_flatMap]
      exact ⟨q, hq, mem_movesOf.2 ⟨t, ht, hsource, r, hr, hrk, rfl⟩⟩
    obtain ⟨u, hu, he⟩ := List.mem_map.1 hmove
    obtain ⟨hus, _, hut⟩ : u.source = q.label ∧ u.symbol = t.symbol ∧ u.target = r.label := by
      simpa [Transition.move] using he
    refine ⟨r, hrq, hrk, ?_⟩
    have hstep := hc.step hu (by rw [hus]) (by rw [hut]; exact h.hasState_label hrq)
    rwa [hut] at hstep

variable (hA : A.LabelsDistinct) (hs : s ∈ qs)

include hA hs

lemma chain_of_label (hc : F.Chain s.label.key k) :
    ∃ q ∈ qs, q.label.key = k ∧ A.Chain s.key q.key := by
  induction hc with
  | here _ => exact ⟨s, hs, rfl, .here (hasState_iff.2 ⟨s, h.subset hs, rfl⟩)⟩
  | @step _ u _ hu hsource _ ih =>
    obtain ⟨q, hq, rfl, hc⟩ := ih
    have hmove : u.move ∈ qs.flatMap A.movesOf := h.moves_eq ▸ List.mem_map_of_mem hu
    obtain ⟨p, hp, hmove⟩ := List.mem_flatMap.1 hmove
    obtain ⟨t, ht, hts, r, hr, hrk, he⟩ := mem_movesOf.1 hmove
    obtain ⟨hus, _, hut⟩ : u.source = p.label ∧ u.symbol = t.symbol ∧ u.target = r.label := by
      simpa [Transition.move] using he
    -- Only `q` has the label that the transition leaves.
    obtain rfl := hA.eq (h.subset hp) (h.subset hq) (hus ▸ hsource)
    refine ⟨r, h.closed p hp t ht hts r hr hrk, by rw [hut], ?_⟩
    have hstep := hc.step ht hts (hasState_iff.2 ⟨r, hr, hrk⟩)
    rwa [← hrk] at hstep

lemma mem_reachableFrom_label (hq : q ∈ qs) :
    q.label.key ∈ F.reachableFrom s.label.key ↔ q.key ∈ A.reachableFrom s.key := by
  rw [mem_reachableFrom_iff, mem_reachableFrom_iff]
  constructor
  · intro hc
    obtain ⟨p, hp, hk, hc⟩ := h.chain_of_label hA hs hc
    rwa [← hA.eq (h.subset hp) (h.subset hq) hk]
  · intro hc
    obtain ⟨p, hp, hk, hc⟩ := h.chain_label hs hc
    rwa [← eq_of_key_eq (h.subset hp) (h.subset hq) hk]

lemma states_restrict :
    (F.restrict (F.reachableFrom s.label.key)).states.map State.outline =
      (qs.filter (·.key ∈ A.reachableFrom s.key)).map State.labelOutline := by
  have hfilter : (F.restrict (F.reachableFrom s.label.key)).states.map State.outline =
      (F.states.map State.outline).filter (·.1.key ∈ F.reachableFrom s.label.key) := by
    rw [List.filter_map]
    rfl
  rw [hfilter, h.states_eq, List.filter_map]
  congr 1
  refine List.filter_congr fun q hq => ?_
  exact decide_eq_decide.2 (h.mem_reachableFrom_label hA hs hq)

lemma filter_movesOf (hq : q ∈ qs) :
    ((A.movesOf q).filter fun move => move.1.key ∈ F.reachableFrom s.label.key ∧
      move.2.2.key ∈ F.reachableFrom s.label.key) =
    if q.key ∈ A.reachableFrom s.key then A.movesOf q else [] := by
  split
  · next hreach =>
    rw [List.filter_eq_self]
    intro move hmove
    obtain ⟨t, ht, hts, r, hr, hrk, rfl⟩ := mem_movesOf.1 hmove
    have hrq := h.closed q hq t ht hts r hr hrk
    have htarget : r.key ∈ A.reachableFrom s.key := by
      rw [mem_reachableFrom_iff] at hreach ⊢
      rw [hrk]
      exact hreach.step ht hts (hasState_iff.2 ⟨r, hr, hrk⟩)
    exact decide_eq_true ⟨(h.mem_reachableFrom_label hA hs hq).2 hreach,
      (h.mem_reachableFrom_label hA hs hrq).2 htarget⟩
  · next hreach =>
    rw [List.filter_eq_nil_iff]
    intro move hmove
    obtain ⟨t, _, _, r, _, _, rfl⟩ := mem_movesOf.1 hmove
    rw [decide_eq_true_iff, h.mem_reachableFrom_label hA hs hq]
    exact fun hends => hreach hends.1

lemma moves_restrict :
    (F.restrict (F.reachableFrom s.label.key)).transitions.map Transition.move =
      (qs.filter (·.key ∈ A.reachableFrom s.key)).flatMap A.movesOf := by
  have hfilter : (F.restrict (F.reachableFrom s.label.key)).transitions.map Transition.move =
      (F.transitions.map Transition.move).filter fun move =>
        move.1.key ∈ F.reachableFrom s.label.key ∧ move.2.2.key ∈ F.reachableFrom s.label.key := by
    rw [List.filter_map]
    rfl
  rw [hfilter, h.moves_eq, List.filter_flatMap, List.flatMap_congr fun q => h.filter_movesOf hA hs,
    Sequence.flatMap_filter]
  simp only [decide_eq_true_eq]

end Relabels

end Automaton

namespace Grammar

/-- The productions are those of an automaton under its labels, and the non-terminals are the labels
of some states, among them the start and all that transitions lead to. -/
structure IsOf (g : Grammar) (A : Automaton) (s : State) (qs : List State) : Prop where
  start_eq : g.start = s.label
  nonTerminals_eq : g.nonTerminals = qs.map State.label
  productionsFor_eq : ∀ k, g.productionsFor k = A.labelProductions A.labelledMoves k
  states_subset : qs ⊆ A.states
  states_nodup : qs.Nodup
  start_mem : s ∈ qs
  target_mem : ∀ move ∈ A.labelledMoves, g.isNonTerminal move.2.2.key = true
  terminal_mem : ∀ move ∈ A.labelledMoves, g.isTerminal (Name.ofChar move.2.1).key = true
  terminals_texts : ∀ a ∈ g.terminals, a.isText = true

namespace IsOf

variable (h : g.IsOf A s qs)

include h

variable (hA : A.LabelsDistinct)

include hA

lemma steps_eq : g.steps = qs.flatMap fun q =>
    (A.movesOf q).map fun move => (q.label, ⟨[Name.ofChar move.2.1, move.2.2]⟩) := by
  rw [steps, h.nonTerminals_eq, List.flatMap_map]
  refine List.flatMap_congr fun q hq => ?_
  rw [h.productionsFor_eq, Automaton.labelProductions,
    Automaton.filter_labelledMoves hA (h.states_subset hq), List.filter_append]
  have hmoves : ((A.movesOf q).map fun m => Production.mk [Name.ofChar m.2.1, m.2.2]).filter
      (!·.isEmpty) = (A.movesOf q).map fun m => ⟨[Name.ofChar m.2.1, m.2.2]⟩ := by
    rw [List.filter_eq_self]
    intro p hp
    obtain ⟨move, _, rfl⟩ := List.mem_map.1 hp
    rfl
  have hempty : ((A.acceptStates.filter (·.label.key = q.label.key)).map fun _ =>
      Production.empty).filter (!·.isEmpty) = [] := by
    rw [List.filter_eq_nil_iff]
    intro p hp
    obtain ⟨_, _, rfl⟩ := List.mem_map.1 hp
    simp [Production.empty, Production.isEmpty]
  rw [hmoves, hempty, List.append_nil, List.map_map]
  rfl

lemma arc?_of_mem_steps {step : Name × Production} (hstep : step ∈ g.steps) :
    ∃ q ∈ qs, ∃ move ∈ A.movesOf q, step.1 = q.label ∧
      g.arc? step.2 = some (.go move.2.1 move.2.2) := by
  rw [h.steps_eq hA, List.mem_flatMap] at hstep
  obtain ⟨q, hq, hstep⟩ := hstep
  obtain ⟨move, hmove, rfl⟩ := List.mem_map.1 hstep
  have hm := Automaton.mem_labelledMoves_of_movesOf (h.states_subset hq) hmove
  exact ⟨q, hq, move, hmove, rfl, arc?_go (h.terminal_mem move hm) (h.target_mem move hm)⟩

lemma needsSink_eq : g.needsSink = false := by
  rw [needsSink, List.any_eq_false]
  intro step hstep
  obtain ⟨_, _, _, _, _, harc⟩ := h.arc?_of_mem_steps hA hstep
  simp [harc]

lemma arcMoves_eq : g.steps.map (g.arcMove? settings) = (qs.flatMap A.movesOf).map some := by
  rw [h.steps_eq hA, List.map_flatMap, List.map_flatMap]
  refine List.flatMap_congr fun q hq => ?_
  rw [List.map_map]
  refine List.map_congr_left fun move hmove => ?_
  have hm := Automaton.mem_labelledMoves_of_movesOf (h.states_subset hq) hmove
  obtain ⟨t, _, _, r, _, _, rfl⟩ := Automaton.mem_movesOf.1 hmove
  rw [Function.comp_apply, arcMove?, arc?_go (h.terminal_mem _ hm) (h.target_mem _ hm)]
  rfl

lemma headOutline_eq (hs : A.startState? = some s) (hq : q ∈ qs) :
    g.headOutline q.label = q.labelOutline := by
  have hstart : decide (q.label.key = g.start.key) = q.isStart := by
    have hsingle := Automaton.startStates_of_startState? hs
    have hmem : q ∈ A.startStates ↔ q.isStart = true := by
      rw [Automaton.mem_startStates, and_iff_right (h.states_subset hq)]
    rw [h.start_eq, Bool.eq_iff_iff, decide_eq_true_iff, ← hmem, hsingle, List.mem_singleton]
    constructor
    · exact hA.eq (h.states_subset hq) (h.states_subset h.start_mem)
    · rintro rfl
      rfl
  have haccept : g.hasEmpty q.label.key = q.isAccept := by
    rw [Bool.eq_iff_iff, hasEmpty_iff, h.productionsFor_eq, Automaton.mem_labelProductions]
    constructor
    · rintro (⟨_, _, _, he⟩ | ⟨_, p, hp, hk⟩)
      · cases he
      · obtain ⟨hp, haccept⟩ := Automaton.mem_acceptStates.1 hp
        rwa [← hA.eq hp (h.states_subset hq) hk]
    · intro haccept
      exact .inr ⟨rfl, q, Automaton.mem_acceptStates.2 ⟨h.states_subset hq, haccept⟩, rfl⟩
  rw [headOutline, State.labelOutline, hstart, haccept]

lemma convertible (hatoms : ∀ q ∈ A.states, q.label.isAtom = true) : g.Convertible {} where
  layout := Layout.fits_default
  heads_atoms := by
    rw [h.nonTerminals_eq]
    intro head hhead
    obtain ⟨q, hq, rfl⟩ := List.mem_map.1 hhead
    exact hatoms q (h.states_subset hq)
  heads_ne := by
    rw [h.nonTerminals_eq]
    intro head hhead
    obtain ⟨q, _, rfl⟩ := List.mem_map.1 hhead
    exact q.label_ne
  heads_nodup := by
    rw [h.nonTerminals_eq, List.map_map]
    exact h.states_nodup.map_on fun p hp q hq hk =>
      hA.eq (h.states_subset hp) (h.states_subset hq) hk
  sink_atom := rfl
  sink_ne := rfl
  terminals_texts := h.terminals_texts
  arcs step hstep := by
    obtain ⟨q, _, move, hmove, _, harc⟩ := h.arc?_of_mem_steps hA hstep
    obtain ⟨t, _, _, _, _, _, rfl⟩ := Automaton.mem_movesOf.1 hmove
    exact ⟨_, harc, t.symbol_ne⟩

lemma relabels (hs : A.startState? = some s) (hF : g.fullAutomaton {} = .ok F) :
    F.Relabels A qs := by
  obtain ⟨hstates, _, hmoves, _⟩ := of_fullAutomaton_eq_ok hF
  constructor
  · rw [hstates, outlines, h.needsSink_eq hA, h.nonTerminals_eq, List.map_map, if_neg (by simp),
      List.append_nil]
    exact List.map_congr_left fun q hq => h.headOutline_eq hA hs hq
  · rw [h.arcMoves_eq hA] at hmoves
    have hinjective : Function.Injective fun move : Name × Char × Name => some move :=
      fun _ _ => Option.some.inj
    refine List.map_injective_iff.2 hinjective ?_
    rw [← hmoves, List.map_map]
    rfl
  · exact h.states_subset
  · intro q hq t ht hts r hr hrk
    have hmove := Automaton.mem_labelledMoves.2
      ⟨t, ht, q, h.states_subset hq, r, hr, hts.symm, hrk, rfl⟩
    have htarget := h.target_mem _ hmove
    rw [isNonTerminal, decide_eq_true_iff, h.nonTerminals_eq, List.map_map] at htarget
    obtain ⟨p, hp, hk⟩ := List.mem_map.1 htarget
    rwa [← hA.eq (h.states_subset hp) hr hk]

lemma toAutomaton_eq_ok (hs : A.startState? = some s)
    (hatoms : ∀ q ∈ A.states, q.label.isAtom = true) :
    ∃ M, g.toAutomaton {} = .ok M ∧
      M.states.map State.outline = (qs.filter (·.key ∈ A.reachable)).map State.labelOutline ∧
      M.transitions.map Transition.move = (qs.filter (·.key ∈ A.reachable)).flatMap A.movesOf ∧
      ∃ alphabet, Name.sorted g.terminals = .ok alphabet ∧
        M.alphabet = Sequence.distinct Name.key alphabet := by
  have hstart : g.isNonTerminal g.start.key = true := by
    rw [h.start_eq, isNonTerminal_iff, h.nonTerminals_eq]
    exact ⟨s.label, List.mem_map_of_mem h.start_mem, rfl⟩
  obtain ⟨F, hF, hM⟩ := (h.convertible hA hatoms).exists_toAutomaton hstart
  have hrelabels := h.relabels hA hs hF
  have hreachable : A.reachable = A.reachableFrom s.key := by rw [Automaton.reachable, hs]
  rw [h.start_eq] at hM
  rw [hreachable]
  exact ⟨_, hM, hrelabels.states_restrict hA h.start_mem, hrelabels.moves_restrict hA h.start_mem,
    (of_fullAutomaton_eq_ok hF).2.2.2⟩

end IsOf

end Grammar

end DfaWorkbench
