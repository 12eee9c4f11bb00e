import Mathlib.Data.String.Basic
import DfaWorkbench.Proofs.Conversion.Relabelled

/-! The automaton of the grammar of an automaton: what can be reached, under the labels. -/

namespace DfaWorkbench

variable {A : Automaton} {s q : State} {ns : List Name}

namespace Name

lemma exists_texts (h : ∀ n ∈ ns, n.isText = true) : ∃ ss : List String, ss.map text = ns := by
  have htext (n : Name) (hn : n ∈ ns) : ∃ s, text s = n ∧ True := by
    obtain ⟨s, rfl⟩ := exists_text (h n hn)
    exact ⟨s, rfl, trivial⟩
  obtain ⟨ss, hss, _⟩ := Sequence.exists_map_eq htext
  exact ⟨ss, hss⟩

lemma sorted_texts (ss : List String) :
    sorted (ss.map text) = .ok ((ss.mergeSort (· ≤ ·)).map text) := by
  have htexts : (ss.map text).all isText = true := by
    rw [List.all_map]
    exact List.all_eq_true.2 fun _ _ => rfl
  rw [sorted, if_pos (by simp [htexts]), List.map_mergeSort]
  exact fun _ _ _ _ => rfl

lemma exists_sorted (h : ∀ n ∈ ns, n.isText = true) (hnodup : (ns.map key).Nodup) :
    ∃ ss : List String, sorted ns = .ok (ss.map text) ∧
      Sequence.distinct key (ss.map text) = ss.map text ∧ ss.Pairwise (· < ·) ∧
      ∀ x, x ∈ ss ↔ .text x ∈ ns.map key := by
  obtain ⟨ss, rfl⟩ := exists_texts h
  have hperm := List.mergeSort_perm ss (· ≤ ·)
  have hkeys : (((ss.mergeSort (· ≤ ·)).map text).map key).Nodup :=
    ((hperm.map text).map key).nodup_iff.2 hnodup
  have hss : (ss.mergeSort (· ≤ ·)).Nodup := (hkeys.of_map key).of_map text
  have hle : (ss.mergeSort (· ≤ ·)).Pairwise fun s t => decide (s ≤ t) = true := by
    refine List.pairwise_mergeSort (fun a b c hab hbc => ?_) (fun a b => ?_) ss
    · exact decide_eq_true (le_trans (of_decide_eq_true hab) (of_decide_eq_true hbc))
    · simpa using le_total a b
  refine ⟨_, sorted_texts ss, Sequence.distinct_of_nodup hkeys, ?_, fun x => ?_⟩
  · exact (hle.and hss).imp fun hst => lt_of_le_of_ne (of_decide_eq_true hst.1) hst.2
  · rw [hperm.mem_iff]
    simp

end Name

namespace Automaton

structure WellNamed (A : Automaton) : Prop where
  labels_atoms : ∀ q ∈ A.states, q.label.isAtom = true
  sources_atoms : ∀ t ∈ A.transitions, t.source.isAtom = true
  targets_atoms : ∀ t ∈ A.transitions, t.target.isAtom = true
  alphabet_texts : ∀ a ∈ A.alphabet, a.isText = true

def grammarFrom (A : Automaton) (s : State) : Grammar where
  start := s.label
  nonTerminals := A.labels.filter fun l => A.keepsLabel A.labelledMoves s.label.key l.key
  terminals := A.allSymbols
  productions := (A.labels.map fun l => (l, A.labelProductions A.labelledMoves l.key)).filter
    (!·.2.isEmpty)

lemma toGrammar_eq (hs : A.startState? = some s) : A.toGrammar = .ok (A.grammarFrom s) := by
  rw [toGrammar, startStates_of_startState? hs]
  rfl

lemma derived_eq (hs : A.startState? = some s) (hA : A.WellNamed) :
    A.derived = .ok (A.grammarFrom s) := by
  have hlabels : (A.states.map State.label).all Name.isAtom = true := by
    simpa using hA.labels_atoms
  have hsources : (A.transitions.map Transition.source).all Name.isAtom = true := by
    simpa using hA.sources_atoms
  have htargets : (A.transitions.map Transition.target).all Name.isAtom = true := by
    simpa using hA.targets_atoms
  rw [derived, toGrammar_eq hs]
  simp only [Name.requireAtoms, hlabels, hsources, htargets, if_true]
  rfl

lemma productionsFor_grammarFrom (hs : A.startState? = some s) (k : Key) :
    (A.grammarFrom s).productionsFor k = A.labelProductions A.labelledMoves k := by
  obtain ⟨g, hg, _, hproductions⟩ := toGrammar_of_startState? hs
  obtain rfl := Except.ok.inj ((toGrammar_eq hs).symm.trans hg)
  exact hproductions k

def keptStates (A : Automaton) (s : State) : List State :=
  A.states.filter fun q => A.keepsLabel A.labelledMoves s.label.key q.label.key

lemma LabelsDistinct.labels_eq (h : A.LabelsDistinct) : A.labels = A.states.map State.label := by
  refine Sequence.distinct_of_nodup ?_
  rw [List.map_map]
  exact h

lemma mem_keptStates_of_move {move : LabelledMove} (hm : move ∈ A.labelledMoves)
    (hq : q ∈ A.states) (hk : q.label.key = move.2.2.key) : q ∈ A.keptStates s := by
  refine List.mem_filter.2 ⟨hq, ?_⟩
  have hgoal : isGoal A.labelledMoves q.label.key = true :=
    List.any_eq_true.2 ⟨move, hm, decide_eq_true hk.symm⟩
  simp [keepsLabel, hgoal]

lemma start_mem_keptStates (hs : A.startState? = some s) : s ∈ A.keptStates s := by
  refine List.mem_filter.2 ⟨startState_mem hs, ?_⟩
  simp [keepsLabel]

lemma symbol_mem_allSymbols {x : String} : .text x ∈ A.allSymbols.map Name.key ↔
    .text x ∈ A.alphabet.map Name.key ∨ ∃ t ∈ A.transitions, t.symbolText = x := by
  rw [allSymbols, Sequence.mem_keys_distinct, List.map_append, List.mem_append]
  simp

lemma WellNamed.allSymbols_texts (hA : A.WellNamed) : ∀ a ∈ A.allSymbols, a.isText = true := by
  intro a ha
  rcases List.mem_append.1 (Sequence.mem_of_mem_unseen ha) with ha | ha
  · exact hA.alphabet_texts a ha
  · obtain ⟨t, _, rfl⟩ := List.mem_map.1 ha
    rfl

lemma nonTerminals_grammarFrom (hA : A.LabelsDistinct) :
    (A.grammarFrom s).nonTerminals = (A.keptStates s).map State.label := by
  rw [grammarFrom, hA.labels_eq, List.filter_map]
  rfl

lemma isOf_grammarFrom (hs : A.startState? = some s) (hA : A.LabelsDistinct)
    (hn : A.WellNamed) : (A.grammarFrom s).IsOf A s (A.keptStates s) where
  start_eq := rfl
  nonTerminals_eq := nonTerminals_grammarFrom hA
  productionsFor_eq := productionsFor_grammarFrom hs
  states_subset := List.filter_subset_self _
  states_nodup := (List.Nodup.of_map _ A.keys_nodup).filter _
  start_mem := start_mem_keptStates hs
  target_mem move hm := by
    obtain ⟨_, _, _, _, r, hr, _, _, rfl⟩ := mem_labelledMoves.1 hm
    rw [Grammar.isNonTerminal_iff, nonTerminals_grammarFrom hA]
    exact ⟨r.label, List.mem_map_of_mem (mem_keptStates_of_move hm hr rfl), rfl⟩
  terminal_mem move hm := by
    obtain ⟨t, ht, _, _, _, _, _, _, rfl⟩ := mem_labelledMoves.1 hm
    exact decide_eq_true (symbol_mem_allSymbols.2 (.inr ⟨t, ht, rfl⟩))
  terminals_texts := hn.allSymbols_texts

def reachableStates (A : Automaton) : List State :=
  A.states.filter (·.key ∈ A.reachable)

lemma mem_keptStates_of_reachable (hs : A.startState? = some s) (hq : q ∈ A.states)
    (hreach : q.key ∈ A.reachable) : q ∈ A.keptStates s := by
  rw [reachable, hs, mem_reachableFrom_iff] at hreach
  generalize hk : q.key = k at hreach
  -- The start is kept in any case, and all others are where some transition leads to.
  cases hreach with
  | here _ =>
    rw [eq_of_key_eq hq (startState_mem hs) hk]
    exact start_mem_keptStates hs
  | @step _ t hc ht hsource htarget =>
    subst hsource
    obtain ⟨p, hp, hpk⟩ := hasState_iff.1 hc.hasState
    exact mem_keptStates_of_move (mem_labelledMoves.2 ⟨t, ht, p, hp, q, hq, hpk, hk, rfl⟩) hq rfl

lemma filter_keptStates (hs : A.startState? = some s) :
    (A.keptStates s).filter (·.key ∈ A.reachable) = A.reachableStates := by
  rw [keptStates, List.filter_filter]
  refine List.filter_congr fun q hq => ?_
  rw [Bool.and_eq_left_iff_imp, decide_eq_true_iff]
  exact fun hreach => (List.mem_filter.1 (mem_keptStates_of_reachable hs hq hreach)).2

/-- Where no two states share a label, the automaton of the grammar of an automaton is the part of
it that can be reached, with labels for ids. The states keep their order, the transitions are
grouped by their sources, and all symbols stand in the order of their characters. -/
theorem derived_toAutomaton (hs : A.startState? = some s) (hA : A.LabelsDistinct)
    (hn : A.WellNamed) :
    ∃ g M, A.derived = .ok g ∧ g.toAutomaton {} = .ok M ∧
      M.states.map State.outline = A.reachableStates.map State.labelOutline ∧
      M.transitions.map Transition.move = A.reachableStates.flatMap A.movesOf ∧
      ∃ symbols : List String, M.alphabet = symbols.map Name.text ∧ symbols.Pairwise (· < ·) ∧
        ∀ x, x ∈ symbols ↔
          .text x ∈ A.alphabet.map Name.key ∨ ∃ t ∈ A.transitions, t.symbolText = x := by
  have hg := isOf_grammarFrom hs hA hn
  obtain ⟨M, hM, hstates, hmoves, alphabet, hsorted, halphabet⟩ :=
    hg.toAutomaton_eq_ok hA hs hn.labels_atoms
  obtain ⟨symbols, hsymbols, hdistinct, hincreasing, hmem⟩ :=
    Name.exists_sorted hn.allSymbols_texts (Sequence.nodup_keys_distinct _ _)
  obtain rfl : symbols.map Name.text = alphabet := Except.ok.inj (hsymbols.symm.trans hsorted)
  rw [filter_keptStates hs] at hstates hmoves
  refine ⟨_, M, derived_eq hs hn, hM, hstates, hmoves, symbols, halphabet.trans hdistinct,
    hincreasing, fun x => (hmem x).trans symbol_mem_allSymbols⟩

def scattered : Automaton where
  states :=
    [⟨"u", "P", .start, State.origin, by decide, by decide⟩,
      ⟨"v", "Q", .accept, State.origin, by decide, by decide⟩,
      ⟨"w", "R", .normal, State.origin, by decide, by decide⟩]
  transitions :=
    [⟨"uv", "u", "v", 'y', by decide, by decide⟩,
      ⟨"vx", "v", "x", 'x', by decide, by decide⟩,
      ⟨"wu", "w", "u", 'z', by decide, by decide⟩,
      ⟨"uu", "u", "u", 'y', by decide, by decide⟩]
  alphabet := ["x"]
  keys_nodup := by decide
  ids_atoms := by decide
  alphabet_nodup := by decide
  alphabet_atoms := by decide

theorem derived_toAutomaton_scattered : (∃ s, scattered.startState? = some s) ∧
    scattered.LabelsDistinct ∧ scattered.WellNamed ∧
    ∃ g M, scattered.derived = .ok g ∧ g.toAutomaton {} = .ok M ∧
      M.states.map State.outline =
        [(.text "P", .text "P", true, false), (.text "Q", .text "Q", false, true)] ∧
      M.transitions.map Transition.move =
        [(.text "P", 'y', .text "Q"), (.text "P", 'y', .text "P")] ∧
      ∃ symbols : List String, M.alphabet = symbols.map Name.text ∧ "z" ∈ symbols := by
  obtain ⟨s, hs⟩ : ∃ s, scattered.startState? = some s := ⟨_, rfl⟩
  have hlabels : scattered.LabelsDistinct := by
    rw [LabelsDistinct]
    decide
  have hnamed : scattered.WellNamed := by constructor <;> decide
  obtain ⟨g, M, hg, hM, hstates, hmoves, symbols, halphabet, _, hsymbols⟩ :=
    derived_toAutomaton hs hlabels hnamed
  refine ⟨⟨s, hs⟩, hlabels, hnamed, g, M, hg, hM, hstates, hmoves, symbols, halphabet, ?_⟩
  rw [hsymbols]
  decide

end Automaton

end DfaWorkbench
