import DfaWorkbench.Proofs.Conversion.Rebuilding
import DfaWorkbench.Proofs.Conversion.Redrawn
import DfaWorkbench.Proofs.Conversion.Refusal

/-! Automata made from the grammars of automata. The first one has the shape that all later ones
keep; from the second one on, they are one automaton. -/

namespace DfaWorkbench

variable {A B F M : Automaton} {g : Grammar} {settings : Settings} {s q : State} {ids : List Key}

lemma eq_of_increasing {xs ys : List String} (hxs : xs.Pairwise (· < ·))
    (hys : ys.Pairwise (· < ·)) (h : ∀ x, x ∈ xs ↔ x ∈ ys) : xs = ys := by
  have hperm : xs.Perm ys := (List.perm_ext_iff_of_nodup (hxs.imp ne_of_lt) (hys.imp ne_of_lt)).2 h
  exact hperm.eq_of_pairwise (fun _ _ _ _ hxy hyx => absurd hyx (lt_asymm hxy)) hxs hys

namespace Automaton

def rebuilt (A : Automaton) : Except ConversionError Automaton := do
  (← A.derived).toAutomaton {}

def Grouped (A : Automaton) : Prop :=
  (A.states.flatMap fun q => A.transitions.filter (·.source.key = q.key)) = A.transitions

structure Canonical (A : Automaton) : Prop extends Trim A where
  id_eq : ∀ q ∈ A.states, q.id = q.label
  type_eq : ∀ q ∈ A.states, q.type = .ofFlags q.isStart q.isAccept
  grouped : A.Grouped
  sorted : ∃ symbols : List String, A.alphabet = symbols.map Name.text ∧ symbols.Pairwise (· < ·)

lemma Grouped.restrict (h : A.Grouped) (ids : List Key) : (A.restrict ids).Grouped := by
  have hgroup (q : State) : (if decide (q.key ∈ ids) = true then
      (A.restrict ids).transitions.filter (·.source.key = q.key) else []) =
      (A.transitions.filter (·.source.key = q.key)).filter
        fun t => t.source.key ∈ ids ∧ t.target.key ∈ ids := by
    split
    · exact List.filter_comm _ _ _
    · next hq =>
      refine (List.filter_eq_nil_iff.2 fun t ht hends => hq ?_).symm
      have hsource := of_decide_eq_true (List.mem_filter.1 ht).2
      rw [← hsource]
      exact decide_eq_true (of_decide_eq_true hends).1
  have hstates : (A.restrict ids).states = A.states.filter (·.key ∈ ids) := rfl
  rw [Grouped, hstates, Sequence.flatMap_filter, List.flatMap_congr fun q _ => hgroup q,
    ← List.filter_flatMap, h]
  rfl

end Automaton

namespace Grammar

section Full

variable (h : g.fullAutomaton settings = .ok F)

include h

lemma type_eq_ofFlags (hq : q ∈ F.states) : q.type = .ofFlags q.isStart q.isAccept := by
  rw [State.isStart, State.isAccept]
  obtain ⟨layout, _, ⟨head, i, hq⟩ | hq⟩ := made_of_mem_states h hq
  · obtain ⟨_, _, hq⟩ := Result.bind_eq_ok.1 hq
    obtain ⟨_, _, hq⟩ := Result.bind_eq_ok.1 hq
    rw [(State.of_make_eq_ok (Result.mapError_eq_ok.1 hq)).2.2.1,
      StateType.isStart_ofFlags, StateType.isAccept_ofFlags]
  · obtain ⟨_, _, hq⟩ := Result.bind_eq_ok.1 hq
    rw [(State.of_make_eq_ok (Result.mapError_eq_ok.1 hq)).2.2.1]
    rfl

lemma grouped_fullAutomaton : F.Grouped := by
  obtain ⟨hstates, _⟩ := of_fullAutomaton_eq_ok h
  have hkeys : F.states.map State.key = (g.outlines settings).map fun o => o.1.key := by
    rw [← hstates, List.map_map]
    rfl
  have hsources : F.transitions.map (·.source.key) = g.nonTerminals.flatMap fun head =>
      ((g.productionsFor head.key).filterMap Production.terminal?).map fun _ => head.key := by
    have hopenings := congrArg (List.map Prod.fst) (openings_eq h)
    rw [List.map_map, openings, List.map_flatMap] at hopenings
    simp only [List.map_map] at hopenings
    exact hopenings
  have hsink : (if g.needsSink then [(g.sinkId settings, g.sinkId settings, false, true)]
      else []).flatMap (fun o => F.transitions.filter (·.source.key = o.1.key)) = [] := by
    refine List.flatMap_eq_nil_iff.2 fun o ho => List.filter_eq_nil_iff.2 fun t ht => ?_
    split at ho
    · rw [List.mem_singleton.1 ho, decide_eq_true_iff]
      exact key_ne_sinkId (isNonTerminal_source h ht)
    · cases ho
  have hflat : (F.states.flatMap fun q => F.transitions.filter (·.source.key = q.key)) =
      (F.states.map State.key).flatMap fun k => F.transitions.filter (·.source.key = k) := by
    rw [List.flatMap_map]
  rw [Automaton.Grouped, hflat, hkeys, List.flatMap_map, outlines, List.flatMap_append, hsink,
    List.append_nil, List.flatMap_map]
  exact Sequence.flatMap_filter_of_map_eq (nodup_keys_nonTerminals h) hsources

end Full

lemma canonical_toAutomaton (hg : g.isNonTerminal g.start.key = true)
    (hterminals : ∀ a ∈ g.terminals, a.isText = true) (hnodup : (g.terminals.map Name.key).Nodup)
    (hM : g.toAutomaton settings = .ok M) : M.Canonical := by
  obtain ⟨F, hF, rfl⟩ := exists_full_of_toAutomaton hM
  obtain ⟨_, _, _, alphabet, hsorted, halphabet⟩ := of_fullAutomaton_eq_ok hF
  obtain ⟨symbols, hsymbols, hdistinct, hincreasing, _⟩ := Name.exists_sorted hterminals hnodup
  obtain rfl : symbols.map Name.text = alphabet := Except.ok.inj (hsymbols.symm.trans hsorted)
  exact {
    toTrim := trim_restrict hF hg
    id_eq := fun q hq => id_eq_label hF (Automaton.mem_states_restrict.1 hq).1
    type_eq := fun q hq => type_eq_ofFlags hF (Automaton.mem_states_restrict.1 hq).1
    grouped := (grouped_fullAutomaton hF).restrict _
    sorted := ⟨symbols, halphabet.trans hdistinct, hincreasing⟩ }

end Grammar

namespace Automaton

section First

lemma isNonTerminal_grammarFrom (hq : q ∈ A.states)
    (hkeep : A.keepsLabel A.labelledMoves s.label.key q.label.key = true) :
    (A.grammarFrom s).isNonTerminal q.label.key = true := by
  have hkey : q.label.key ∈ A.labels.map Name.key :=
    Sequence.mem_keys_distinct.2 (List.mem_map_of_mem (List.mem_map_of_mem hq))
  obtain ⟨l, hl, hk⟩ := List.mem_map.1 hkey
  exact Grammar.isNonTerminal_iff.2 ⟨l, List.mem_filter.2 ⟨hl, hk ▸ hkeep⟩, hk⟩

lemma isNonTerminal_start_grammarFrom (hs : A.startState? = some s) :
    (A.grammarFrom s).isNonTerminal s.label.key = true :=
  isNonTerminal_grammarFrom (startState_mem hs) (by simp [keepsLabel])

lemma isNonTerminal_goal_grammarFrom {move : LabelledMove} (hm : move ∈ A.labelledMoves) :
    (A.grammarFrom s).isNonTerminal move.2.2.key = true := by
  obtain ⟨_, _, _, _, r, hr, _, _, rfl⟩ := mem_labelledMoves.1 hm
  have hgoal : isGoal A.labelledMoves r.label.key = true :=
    List.any_eq_true.2 ⟨_, hm, decide_eq_true rfl⟩
  exact isNonTerminal_grammarFrom hr (by simp [keepsLabel, hgoal])

lemma exists_label {l : Name} (hl : l ∈ (A.grammarFrom s).nonTerminals) :
    ∃ q ∈ A.states, q.label = l :=
  List.mem_map.1 (Sequence.mem_of_mem_unseen (List.mem_filter.1 hl).1)

variable (hs : A.startState? = some s) (hn : A.WellNamed)

include hs hn

lemma convertible_grammarFrom : (A.grammarFrom s).Convertible {} where
  heads_atoms head hhead := by
    obtain ⟨q, hq, rfl⟩ := exists_label hhead
    exact hn.labels_atoms q hq
  heads_ne head hhead := by
    obtain ⟨q, _, rfl⟩ := exists_label hhead
    exact q.label_ne
  heads_nodup := (Sequence.nodup_keys_distinct Name.key _).sublist (List.filter_sublist.map _)
  sink_atom := rfl
  sink_ne := rfl
  terminals_texts := hn.allSymbols_texts
  layout := Layout.fits_default
  arcs step hstep := by
    obtain ⟨_, hp, hne⟩ := Grammar.mem_steps.1 hstep
    rw [productionsFor_grammarFrom hs, mem_labelProductions] at hp
    rcases hp with ⟨move, hm, _, hp⟩ | ⟨hp, _⟩
    · obtain ⟨t, ht, _, _, _, _, _, _, he⟩ := mem_labelledMoves.1 hm
      have hsymbol : move.2.1 = t.symbol := by rw [he]
      have hterminal : (A.grammarFrom s).isTerminal (Name.ofChar move.2.1).key = true :=
        decide_eq_true (symbol_mem_allSymbols.2 (.inr ⟨t, ht, by rw [hsymbol]; rfl⟩))
      exact ⟨.go move.2.1 move.2.2,
        hp ▸ Grammar.arc?_go hterminal (isNonTerminal_goal_grammarFrom hm),
        by rw [Arc.symbol, hsymbol]; exact t.symbol_ne⟩
    · rw [hp] at hne
      cases hne

lemma exists_rebuilt : ∃ B, A.rebuilt = .ok B ∧ B.Canonical := by
  have hstart := isNonTerminal_start_grammarFrom hs
  obtain ⟨F, _, hB⟩ := (convertible_grammarFrom hs hn).exists_toAutomaton hstart
  refine ⟨_, Result.bind_eq_ok.2 ⟨_, derived_eq hs hn, hB⟩, ?_⟩
  exact Grammar.canonical_toAutomaton hstart hn.allSymbols_texts
    (Sequence.nodup_keys_distinct Name.key _) hB

end First

namespace Canonical

variable (h : A.Canonical)

include h

lemma key_label (hq : q ∈ A.states) : q.label.key = q.key :=
  congrArg Name.key (h.id_eq q hq).symm

lemma labelsDistinct : A.LabelsDistinct := by
  have hkeys : (A.states.map fun q => q.label.key) = A.states.map State.key :=
    List.map_congr_left fun q hq => h.key_label hq
  rw [LabelsDistinct, hkeys]
  exact A.keys_nodup

lemma wellNamed : A.WellNamed where
  labels_atoms q hq := h.id_eq q hq ▸ A.ids_atoms q hq
  sources_atoms t ht := by
    obtain ⟨⟨p, hp, hk⟩, _⟩ := joins_iff.1 (h.joined t ht)
    exact Name.isAtom_of_key_eq hk (A.ids_atoms p hp)
  targets_atoms t ht := by
    obtain ⟨_, q, hq, hk⟩ := joins_iff.1 (h.joined t ht)
    exact Name.isAtom_of_key_eq hk (A.ids_atoms q hq)
  alphabet_texts a ha := by
    obtain ⟨symbols, halphabet, _⟩ := h.sorted
    rw [halphabet] at ha
    obtain ⟨x, _, rfl⟩ := List.mem_map.1 ha
    rfl

lemma exists_startState? : ∃ s, A.startState? = some s := by
  obtain ⟨s, hs⟩ := h.start
  exact ⟨s, by rw [startState?, hs]⟩

lemma reachableStates_eq : A.reachableStates = A.states :=
  List.filter_eq_self.2 fun q hq => decide_eq_true (h.reached q hq)

lemma map_outline : A.states.map State.outline = A.states.map State.labelOutline :=
  List.map_congr_left fun q hq => by rw [State.outline, State.labelOutline, h.id_eq q hq]

lemma map_look : A.states.map (fun q => (q.id, q.label, q.type)) =
    (A.states.map State.outline).map fun o => (o.1, o.2.1, .ofFlags o.2.2.1 o.2.2.2) := by
  rw [List.map_map]
  refine List.map_congr_left fun q hq => ?_
  exact congrArg (fun type => (q.id, q.label, type)) (h.type_eq q hq)

lemma map_movesOf (hq : q ∈ A.states) :
    (A.movesOf q).map (fun move => (move.1.key, move.2.1, move.2.2.key)) =
      (A.transitions.filter (·.source.key = q.key)).map
        fun t => (t.source.key, t.symbol, t.target.key) := by
  have hends : A.transitions.filter (fun t => t.source.key = q.key && A.hasState t.target.key) =
      A.transitions.filter (·.source.key = q.key) := by
    refine List.filter_congr fun t ht => ?_
    rw [(joins_iff_hasState.1 (h.joined t ht)).2, Bool.and_true]
  rw [movesOf, hends, List.map_map]
  refine List.map_congr_left fun t ht => ?_
  obtain ⟨ht, hsource⟩ := List.mem_filter.1 ht
  obtain ⟨_, r, hr, hk⟩ := joins_iff.1 (h.joined t ht)
  have htarget : (A.labelOf t.target).key = t.target.key := by
    rw [labelOf, state?_eq_some_iff.2 ⟨hr, hk⟩]
    exact (h.key_label hr).trans hk
  rw [Function.comp_apply, h.key_label hq, htarget, of_decide_eq_true hsource]

lemma map_flatMap_movesOf :
    (A.states.flatMap A.movesOf).map (fun move => (move.1.key, move.2.1, move.2.2.key)) =
      A.transitions.map fun t => (t.source.key, t.symbol, t.target.key) := by
  rw [List.map_flatMap, List.flatMap_congr fun q hq => h.map_movesOf hq, ← List.map_flatMap,
    h.grouped]

lemma symbol_mem_alphabet {x : String} : .text x ∈ A.allSymbols.map Name.key ↔
    .text x ∈ A.alphabet.map Name.key := by
  rw [symbol_mem_allSymbols, or_iff_left_iff_imp]
  rintro ⟨t, ht, rfl⟩
  exact of_decide_eq_true (h.declared t ht)

lemma alphabet_eq (hB : B.Canonical)
    (hsame : ∀ x, .text x ∈ B.alphabet.map Name.key ↔ .text x ∈ A.alphabet.map Name.key) :
    B.alphabet = A.alphabet := by
  obtain ⟨xs, hxs, hincreasing⟩ := hB.sorted
  obtain ⟨ys, hys, hincreasing'⟩ := h.sorted
  rw [hxs, hys] at hsame ⊢
  have hmem : ∀ x, x ∈ xs ↔ x ∈ ys := by simpa using hsame
  rw [eq_of_increasing hincreasing hincreasing' hmem]

lemma exists_redrawn : ∃ B, A.rebuilt = .ok B ∧ B.Redrawn A := by
  obtain ⟨s, hs⟩ := h.exists_startState?
  have hg := isOf_grammarFrom hs h.labelsDistinct h.wellNamed
  obtain ⟨B, hB, hstates, hmoves, alphabet, hsorted, halphabet⟩ :=
    hg.toAutomaton_eq_ok h.labelsDistinct hs h.wellNamed.labels_atoms
  rw [filter_keptStates hs, h.reachableStates_eq] at hstates hmoves
  have hcanonical := Grammar.canonical_toAutomaton (isNonTerminal_start_grammarFrom hs)
    hg.terminals_texts (Sequence.nodup_keys_distinct Name.key _) hB
  refine ⟨B, Result.bind_eq_ok.2 ⟨_, derived_eq hs h.wellNamed, hB⟩,
    redrawn_of_map_eq ?_ ?_ (h.alphabet_eq hcanonical fun x => ?_)⟩
  · rw [hcanonical.map_look, hstates, h.map_look, h.map_outline]
  · rw [← h.map_flatMap_movesOf, ← hmoves, List.map_map]
    rfl
  · rw [halphabet, Sequence.mem_keys_distinct,
      ((Name.perm_of_sorted hsorted).map Name.key).mem_iff]
    exact h.symbol_mem_alphabet

end Canonical

/-- An automaton with one start state can be rebuilt by way of its grammar. Once rebuilt, it keeps
all but the places of its states and the ids of its transitions, and from the second time on it
stays as it is. -/
theorem rebuilt_stable (hs : A.startState? = some s) (hn : A.WellNamed) :
    ∃ B C, A.rebuilt = .ok B ∧ B.rebuilt = .ok C ∧ C.rebuilt = .ok C ∧ C.Redrawn B := by
  obtain ⟨B, hB, hcanonical⟩ := exists_rebuilt hs hn
  obtain ⟨C, hC, hredrawn⟩ := hcanonical.exists_redrawn
  refine ⟨B, C, hB, hC, ?_, hredrawn⟩
  rw [rebuilt, hredrawn.derived]
  exact hC

def knotted : Automaton where
  states :=
    [⟨"n0", "J", .start, State.origin, by decide, by decide⟩,
      ⟨"n1", "J", .accept, State.origin, by decide, by decide⟩,
      ⟨"n2", "K", .dead, State.origin, by decide, by decide⟩,
      ⟨"n3", "L", .normal, State.origin, by decide, by decide⟩]
  transitions :=
    [⟨"m0", "n2", "n0", 'f', by decide, by decide⟩,
      ⟨"m1", "n0", "n3", 'g', by decide, by decide⟩,
      ⟨"m2", "n3", "n4", 'f', by decide, by decide⟩,
      ⟨"m3", "n0", "n1", 'g', by decide, by decide⟩]
  alphabet := ["h"]
  keys_nodup := by decide
  ids_atoms := by decide
  alphabet_nodup := by decide
  alphabet_atoms := by decide

theorem rebuilt_stable_knotted : (∃ s, knotted.startState? = some s) ∧ knotted.WellNamed ∧
    ∃ B C, knotted.rebuilt = .ok B ∧ B.rebuilt = .ok C ∧ C.rebuilt = .ok C ∧ C.Redrawn B := by
  obtain ⟨s, hs⟩ : ∃ s, knotted.startState? = some s := ⟨_, rfl⟩
  have hnamed : knotted.WellNamed := by constructor <;> decide
  exact ⟨⟨s, hs⟩, hnamed, rebuilt_stable hs hnamed⟩

end Automaton

end DfaWorkbench
