import Mathlib.Data.List.Nodup
import Mathlib.Data.Option.Basic
import DfaWorkbench.Proofs.Conversion.ToAutomaton
import DfaWorkbench.Proofs.Sequence.Image
import DfaWorkbench.Proofs.Validation.Checks

/-! What can be wrong with the automaton of a grammar, and which productions are to blame for it. -/

namespace DfaWorkbench

variable {g : Grammar} {settings : Settings} {A M : Automaton} {q : State} {ids : List Key}

lemma Arc.terminal?_production (arc : Arc) :
    arc.production.terminal? = some (Name.ofChar arc.symbol) := by
  cases arc <;> rfl

namespace Automaton

open Diagnostic

structure Trim (A : Automaton) : Prop where
  start : ∃ q, A.startStates = [q]
  reached : ∀ q ∈ A.states, q.key ∈ A.reachable
  joined : ∀ t ∈ A.transitions, A.joins t = true
  declared : ∀ t ∈ A.transitions, A.declares t = true

namespace Trim

variable {d : Diagnostic} (h : A.Trim)

include h

lemma mem_validate (hd : d ∈ A.validate) :
    d ∈ A.acceptDiagnostics ∨ d ∈ A.transitionDiagnostics := by
  obtain ⟨s, hs⟩ := h.start
  have hstates : A.states ≠ [] := by
    have hmem : s ∈ A.startStates := by simp [hs]
    exact List.ne_nil_of_mem (mem_startStates.1 hmem).1
  have hstart : A.startDiagnostics = [] := by rw [startDiagnostics, hs]
  have hdangling : A.danglingDiagnostics = [] := by
    have hnone : A.transitions.filter (!A.joins ·) = [] :=
      List.filter_eq_nil_iff.2 fun t ht => by simp [h.joined t ht]
    rw [danglingDiagnostics, hnone]
  have hsymbol : A.symbolDiagnostics = [] := by
    have hnone : A.transitions.filter (!A.declares ·) = [] :=
      List.filter_eq_nil_iff.2 fun t ht => by simp [h.declared t ht]
    rw [symbolDiagnostics, hnone]
    rfl
  have hreach : A.reachabilityDiagnostics = [] := by
    have hreached := h.reached
    have hone : A.startState? = some s := by rw [startState?, hs]
    rw [reachable, hone] at hreached
    rw [reachabilityDiagnostics, unreachableStates, hone]
    exact List.map_eq_nil_iff.2 (List.filter_eq_nil_iff.2 fun q hq => by simp [hreached q hq])
  rw [mem_validate_iff hstates, hstart, hdangling, hsymbol, hreach] at hd
  simpa using hd

lemma kind_of_mem_validate (hd : d ∈ A.validate) :
    d.kind = .noAccept ∨ d.kind = .missingTransition ∨ d.kind = .nonDeterministic :=
  (h.mem_validate hd).imp kind_acceptDiagnostics kind_transitionDiagnostics

lemma validated_eq_ok (hlabels : ∀ q ∈ A.states, q.label.isText = true) :
    A.validated = .ok A.validate := by
  refine validated_of_joined h.joined (List.all_eq_true.2 fun n hn => ?_)
  obtain ⟨d, hd, hn⟩ := List.mem_flatMap.1 hn
  rcases h.mem_validate hd with hd | hd
  · rw [listed_eq_nil (by simp [isError, Diagnostic.severity, kind_acceptDiagnostics hd,
      DiagnosticKind.severity])] at hn
    cases hn
  · obtain ⟨q, _, ⟨_, _, _, rfl⟩ | ⟨a, rfl⟩⟩ := of_mem_transitionDiagnostics hd
    · cases hn
    · -- What a choice lists are the labels of the targets, which are states.
      obtain ⟨t, ht, rfl⟩ := List.mem_map.1 hn
      rw [transitionsOn, members_bySourceAndSymbol] at ht
      obtain ⟨_, r, hr, hk⟩ := joins_iff.1 (h.joined t (List.mem_filter.1 ht).1)
      rw [labelOf, state?_eq_some_iff.2 ⟨hr, hk⟩]
      exact hlabels r hr

end Trim

end Automaton

namespace Grammar

def openings (g : Grammar) : List (Key × Name) :=
  g.nonTerminals.flatMap fun head =>
    ((g.productionsFor head.key).filterMap Production.terminal?).map fun a => (head.key, a)

lemma map_some_openings (g : Grammar) : g.openings.map some =
    g.steps.map fun step => step.2.terminal?.map fun a => (step.1.key, a) := by
  rw [openings, steps, List.map_flatMap, List.map_flatMap]
  congr 1
  funext head
  induction g.productionsFor head.key with
  | nil => rfl
  | cons p ps ih =>
    obtain ⟨symbols⟩ := p
    cases symbols with
    | nil =>
      rw [List.filterMap_cons_none rfl]
      simpa [Production.isEmpty] using ih
    | cons a as => simpa [Production.terminal?, Production.isEmpty] using ih

section Full

variable (h : g.fullAutomaton settings = .ok A)

include h

lemma openings_eq :
    A.transitions.map (fun t => (t.source.key, Name.ofChar t.symbol)) = g.openings := by
  obtain ⟨_, _, hmoves, _⟩ := of_fullAutomaton_eq_ok h
  -- Every step has become a transition, so that it is an arc and begins with the arc's symbol.
  have hopening : ∀ step ∈ g.steps,
      (g.arcMove? settings step).map (fun m => (m.1.key, Name.ofChar m.2.1)) =
        step.2.terminal?.map fun a => (step.1.key, a) := by
    intro step hstep
    obtain ⟨t, _, arc, harc, _⟩ := (describes_fullAutomaton h).step_transition step hstep
    rw [arcMove?, harc, ← production_of_arc? harc, Arc.terminal?_production]
    rfl
  have hsome := congrArg (List.map (Option.map fun m => (m.1.key, Name.ofChar m.2.1))) hmoves
  rw [List.map_map, List.map_map] at hsome
  refine List.map_injective_iff.2 (Option.some_injective _) ?_
  rw [map_some_openings, List.map_map, ← List.map_congr_left hopening]
  exact hsome

lemma nodup_keys_nonTerminals : (g.nonTerminals.map Name.key).Nodup := by
  obtain ⟨hstates, _⟩ := of_fullAutomaton_eq_ok h
  have hkeys := A.keys_nodup
  have houtlines : A.states.map State.key = (g.outlines settings).map fun o => o.1.key := by
    rw [← hstates, List.map_map]
    rfl
  rw [houtlines, outlines, List.map_append, List.map_map] at hkeys
  exact hkeys.of_append_left

lemma nodup_ids_transitions : (A.transitions.map fun t => t.id.key).Nodup := by
  obtain ⟨_, hids, _⟩ := of_fullAutomaton_eq_ok h
  have hkeys : (A.transitions.map fun t => t.id.key) =
      (List.range g.steps.length).map Automaton.transitionKey := by
    have hmap := congrArg (List.map Name.key) hids
    rw [List.map_map, List.map_map] at hmap
    exact hmap
  rw [hkeys]
  exact List.nodup_range.map Automaton.transitionKey_injective

lemma mem_alphabet_iff {k : Key} :
    k ∈ A.alphabet.map Name.key ↔ g.isTerminal k = true := by
  obtain ⟨_, _, _, alphabet, hsorted, halphabet⟩ := of_fullAutomaton_eq_ok h
  rw [halphabet, Sequence.mem_keys_distinct, isTerminal, decide_eq_true_eq]
  exact ((Name.perm_of_sorted hsorted).map Name.key).mem_iff

lemma declares_of_mem_transitions {t : Transition} (ht : t ∈ A.transitions) :
    A.declares t = true := by
  obtain ⟨step, _, arc, harc, _, hsymbol, _⟩ := (describes_fullAutomaton h).isTransitionOf t ht
  have hterminal := isTerminal_of_arc? harc
  rw [← hsymbol] at hterminal
  exact decide_eq_true ((mem_alphabet_iff h).2 hterminal)

lemma label_of_mem_states (hq : q ∈ A.states) :
    q.label ∈ g.nonTerminals ∨ q.label = g.sinkId settings := by
  obtain ⟨hstates, _⟩ := of_fullAutomaton_eq_ok h
  have ho : q.outline ∈ g.outlines settings := hstates ▸ List.mem_map_of_mem hq
  rcases List.mem_append.1 ho with ho | ho
  · obtain ⟨head, hhead, ho⟩ := List.mem_map.1 ho
    obtain rfl : head = q.label := congrArg (fun o => o.2.1) ho
    exact .inl hhead
  · split at ho
    · exact .inr (congrArg (fun o => o.2.1) (List.mem_singleton.1 ho))
    · cases ho

lemma sink_of_foreign (hq : q ∈ A.states) (hforeign : g.isNonTerminal q.key = false) :
    g.needsSink = true ∧ q.key = (g.sinkId settings).key ∧ q.isAccept = true := by
  rcases (describes_fullAutomaton h).isStateOf q hq with ⟨head, hhead, hk, _⟩ | ⟨hn, hk, _, ha⟩
  · rw [isNonTerminal_iff.2 ⟨head, hhead, hk.symm⟩] at hforeign
    cases hforeign
  · exact ⟨hn, hk, ha⟩

lemma isNonTerminal_source {t : Transition} (ht : t ∈ A.transitions) :
    g.isNonTerminal t.source.key = true := by
  obtain ⟨⟨head, p⟩, hstep, _, _, hs, _⟩ := (describes_fullAutomaton h).isTransitionOf t ht
  exact isNonTerminal_iff.2 ⟨head, (mem_steps.1 hstep).1, congrArg Name.key hs.symm⟩

lemma exists_foreign_iff (hg : g.isNonTerminal g.start.key = true) :
    (∃ q ∈ A.states, q.key ∈ A.reachableFrom g.start.key ∧ g.isNonTerminal q.key = false) ↔
      ∃ head ∈ g.nonTerminals, head.key ∈ A.reachableFrom g.start.key ∧
        ∃ a, g.isTerminal a.key = true ∧ ⟨[a]⟩ ∈ g.productionsFor head.key := by
  have hA := describes_fullAutomaton h
  constructor
  · rintro ⟨q, hq, hreach, hforeign⟩
    obtain ⟨_, hk, _⟩ := sink_of_foreign h hq hforeign
    rw [hk, Automaton.mem_reachableFrom_iff] at hreach
    -- The last transition on the way to the sink is that of a production of a single terminal.
    rcases hreach.eq_or_exists_step with hstart | ⟨t, ht, hsource, htarget⟩
    · exact absurd hstart.symm (key_ne_sinkId hg)
    · obtain ⟨⟨head, p⟩, hstep, arc, harc, hs, _, hend⟩ := hA.isTransitionOf t ht
      obtain ⟨hhead, hp, _⟩ := mem_steps.1 hstep
      rw [hs] at hsource
      cases arc with
      | stop a =>
        have hterminal := isTerminal_of_arc? harc
        obtain rfl := production_of_arc? harc
        exact ⟨head, hhead, Automaton.mem_reachableFrom_iff.2 hsource, _, hterminal, hp⟩
      | go a next =>
        rw [hend, Arc.target] at htarget
        exact absurd htarget (key_ne_sinkId (isNonTerminal_of_arc? harc))
  · rintro ⟨head, hhead, hreach, a, ha, hp⟩
    have hstep := mem_steps.2 ⟨hhead, hp, rfl⟩
    obtain ⟨t, ht, arc, harc, hs, _, hend⟩ := hA.step_transition _ hstep
    cases arc with
    | stop c =>
      obtain ⟨q, hq, hk⟩ := hA.sink_state (needsSink_of_stop hstep harc)
      refine ⟨q, hq, ?_, ?_⟩
      · rw [hk, ← show t.target = g.sinkId settings from hend]
        exact hA.target_reachable ht (hs ▸ hreach)
      · rw [hk, Bool.eq_false_iff]
        exact fun hn => key_ne_sinkId hn rfl
    | go c next => cases production_of_arc? harc

lemma openings_restrict (hids : ∀ t ∈ A.transitions, t.source.key ∈ ids → t.target.key ∈ ids) :
    (A.restrict ids).transitions.map (fun t => (t.source.key, Name.ofChar t.symbol)) =
      (g.nonTerminals.filter (·.key ∈ ids)).flatMap fun head =>
        ((g.productionsFor head.key).filterMap Production.terminal?).map fun a =>
          (head.key, a) := by
  have hkept : (A.restrict ids).transitions = A.transitions.filter (·.source.key ∈ ids) :=
    List.filter_congr fun t ht => decide_eq_decide.2 (and_iff_left_iff_imp.2 (hids t ht))
  have hmap : (A.transitions.filter (·.source.key ∈ ids)).map
      (fun t => (t.source.key, Name.ofChar t.symbol)) = g.openings.filter (·.1 ∈ ids) := by
    rw [← openings_eq h, List.filter_map]
    rfl
  rw [hkept, hmap, openings, List.filter_flatMap, Sequence.flatMap_filter]
  congr 1
  funext head
  rw [List.filter_map]
  by_cases hhead : head.key ∈ ids
  · simp [hhead, Function.comp_def]
  · simp [hhead, Function.comp_def]

lemma unambiguous_restrict_iff
    (hids : ∀ t ∈ A.transitions, t.source.key ∈ ids → t.target.key ∈ ids) :
    ((A.restrict ids).transitions.Pairwise fun t u =>
        ¬ (t.source.key = u.source.key ∧ t.symbol = u.symbol)) ↔
      ∀ head ∈ g.nonTerminals, head.key ∈ ids →
        ((g.productionsFor head.key).filterMap Production.terminal?).Nodup := by
  have hnodup : ((A.restrict ids).transitions.Pairwise fun t u =>
      ¬ (t.source.key = u.source.key ∧ t.symbol = u.symbol)) ↔
      ((A.restrict ids).transitions.map fun t =>
        (t.source.key, Name.ofChar t.symbol)).Nodup := by
    simp only [List.Nodup, List.pairwise_map, ne_eq, Prod.mk.injEq, Name.ofChar_inj]
  have hheads : (g.nonTerminals.filter (·.key ∈ ids)).Pairwise fun m n => m.key ≠ n.key :=
    (List.pairwise_map.1 (nodup_keys_nonTerminals h)).sublist List.filter_sublist
  have hinjective (k : Key) : Function.Injective fun a : Name => (k, a) :=
    fun _ _ hab => (Prod.mk.inj hab).2
  rw [hnodup, openings_restrict h hids, List.nodup_flatMap]
  constructor
  · rintro ⟨hparts, _⟩ head hhead hk
    exact (hparts head (List.mem_filter.2 ⟨hhead, decide_eq_true hk⟩)).of_map _
  · intro hall
    refine ⟨fun head hhead => ?_, hheads.imp fun hne => ?_⟩
    · obtain ⟨hhead, hk⟩ := List.mem_filter.1 hhead
      exact (hall head hhead (of_decide_eq_true hk)).map (hinjective _)
    · intro x hm hn
      obtain ⟨a, _, rfl⟩ := List.mem_map.1 hm
      obtain ⟨b, _, hb⟩ := List.mem_map.1 hn
      exact hne (congrArg Prod.fst hb).symm

variable (hg : g.isNonTerminal g.start.key = true)

include hg

lemma trim_restrict : (A.restrict (A.reachableFrom g.start.key)).Trim := by
  have hA := describes_fullAutomaton h
  obtain ⟨s, hs, hk⟩ := hA.startState?_restrict hg (hA.start_reachable hg)
  refine ⟨⟨s, Automaton.startStates_of_startState? hs⟩, fun q hq => ?_,
    fun t ht => Automaton.joins_restrict_reachableFrom ht, fun t ht => ?_⟩
  · have hreach := (Automaton.mem_states_restrict.1 hq).2
    simp only [Automaton.reachable, hs, hk]
    rwa [Automaton.mem_reachableFrom_iff, Automaton.chain_restrict_reachableFrom,
      ← Automaton.mem_reachableFrom_iff]
  · exact declares_of_mem_transitions h (Automaton.mem_transitions_restrict.1 ht).1

end Full

lemma isText_sinkId (h : settings.sinkId.isText = true) : (g.sinkId settings).isText = true := by
  rw [sinkId, sinkName]
  split
  · exact h
  · rfl

/-- The automaton of a grammar may have no accept state, lack transitions, and have a choice of
transitions, but nothing else can be wrong with it. It has a sink exactly if a production of a
single terminal can be used, and it is ready exactly if no two productions of one head, of those
that are kept, begin with the same terminal. -/
theorem toAutomaton_diagnosis (hg : g.isNonTerminal g.start.key = true)
    (hM : g.toAutomaton settings = .ok M) :
    (∃ q, M.startStates = [q] ∧ q.key = g.start.key) ∧
      (∀ q ∈ M.states, q.key ∈ M.reachable) ∧
      (∀ t ∈ M.transitions, M.joins t = true ∧ M.declares t = true) ∧
      (M.transitions.map fun t => t.id.key).Nodup ∧
      (∀ d ∈ M.validate,
        d.kind = .noAccept ∨ d.kind = .missingTransition ∨ d.kind = .nonDeterministic) ∧
      ((∀ n ∈ g.nonTerminals, n.isText = true) → settings.sinkId.isText = true →
        M.validated = .ok M.validate) ∧
      ((∃ q ∈ M.states, g.isNonTerminal q.key = false) ↔
        ∃ head ∈ g.nonTerminals, M.hasState head.key = true ∧
          ∃ a, g.isTerminal a.key = true ∧ ⟨[a]⟩ ∈ g.productionsFor head.key) ∧
      (∀ q ∈ M.states, g.isNonTerminal q.key = false → q.isAccept = true ∧
        (∀ t ∈ M.transitions, t.source.key ≠ q.key) ∧
        ∀ p ∈ M.states, g.isNonTerminal p.key = false → p = q) ∧
      (M.isReady = true ↔
        ∀ head ∈ g.nonTerminals, M.hasState head.key = true →
          ((g.productionsFor head.key).filterMap Production.terminal?).Nodup) := by
  obtain ⟨A, hA, rfl⟩ := exists_full_of_toAutomaton hM
  have hd := describes_fullAutomaton hA
  have htrim := trim_restrict hA hg
  obtain ⟨s, hs, hk⟩ := hd.startState?_restrict hg (hd.start_reachable hg)
  refine ⟨⟨s, Automaton.startStates_of_startState? hs, hk⟩, htrim.reached,
    fun t ht => ⟨htrim.joined t ht, htrim.declared t ht⟩, ?_,
    fun d hd => htrim.kind_of_mem_validate hd, fun hheads hsink => ?_, ?_, fun q hq hforeign => ?_,
    ?_⟩
  · exact (nodup_ids_transitions hA).sublist (List.filter_sublist.map _)
  · refine htrim.validated_eq_ok fun q hq => ?_
    rcases label_of_mem_states hA (Automaton.mem_states_restrict.1 hq).1 with hlabel | hlabel
    · exact hheads _ hlabel
    · rw [hlabel]
      exact isText_sinkId hsink
  · simp only [Automaton.mem_states_restrict, Automaton.hasState_restrict_reachableFrom, and_assoc]
    exact exists_foreign_iff hA hg
  · obtain ⟨_, hqk, ha⟩ := sink_of_foreign hA (Automaton.mem_states_restrict.1 hq).1 hforeign
    refine ⟨ha, fun t ht hsource => ?_, fun p hp hp' => ?_⟩
    · have hhead := isNonTerminal_source hA (Automaton.mem_transitions_restrict.1 ht).1
      rw [hsource, hforeign] at hhead
      cases hhead
    · obtain ⟨_, hpk, _⟩ := sink_of_foreign hA (Automaton.mem_states_restrict.1 hp).1 hp'
      exact Automaton.eq_of_key_eq hp hq (hpk.trans hqk.symm)
  · rw [Automaton.isReady_iff_deterministic]
    simp only [Automaton.hasState_restrict_reachableFrom]
    rw [← unambiguous_restrict_iff hA fun t ht => hd.target_reachable ht]
    exact ⟨fun h => h.unambiguous, fun h => ⟨htrim.start, htrim.joined, h⟩⟩

theorem toAutomaton_diagnosis_sample : sample.isNonTerminal sample.start.key = true ∧
    ∃ M, sample.toAutomaton {} = .ok M ∧ M.isReady = true ∧ M.validated = .ok M.validate ∧
      ∃ q ∈ M.states, sample.isNonTerminal q.key = false ∧ q.isAccept = true := by
  have hstart : sample.isNonTerminal sample.start.key = true := by decide
  obtain ⟨M, hM, _⟩ := toAutomaton_sample
  obtain ⟨⟨s, hs, hk⟩, _, _, _, _, hvalidated, hsink, haccept, hready⟩ :=
    toAutomaton_diagnosis hstart hM
  have hkept : M.hasState (Name.key "S") = true := by
    have hmem : s ∈ M.startStates := by simp [hs]
    exact Automaton.hasState_iff.2 ⟨s, (Automaton.mem_startStates.1 hmem).1, hk⟩
  obtain ⟨q, hq, hforeign⟩ := hsink.2 ⟨"S", List.mem_singleton_self _, hkept, "b", by decide,
    List.mem_cons_of_mem _ List.mem_cons_self⟩
  refine ⟨hstart, M, hM, hready.2 fun head hhead _ => ?_, hvalidated (by decide) rfl, q, hq,
    hforeign, (haccept q hq hforeign).1⟩
  obtain rfl := List.mem_singleton.1 hhead
  have hopenings : (sample.productionsFor (Name.key "S")).filterMap Production.terminal? =
      ["a", "b"] := rfl
  rw [hopenings]
  exact List.Nodup.of_map Name.key (by decide)

end Grammar

end DfaWorkbench
