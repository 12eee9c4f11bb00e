import DfaWorkbench.Conversion.ToGrammar
import DfaWorkbench.Proofs.Automaton.Reachability
import DfaWorkbench.Proofs.Grammar.Derivation
import DfaWorkbench.Proofs.Simulation.Verdict

/-! The grammar of an automaton generates what the automaton accepts, and no more if states that
share a label accept the same words. -/

namespace DfaWorkbench

variable {A : Automaton} {g : Grammar} {k : Key} {p q : State} {a : Char} {word : List Char}

namespace Automaton

lemma mem_labelledMoves {move : LabelledMove} : move ∈ A.labelledMoves ↔
    ∃ t ∈ A.transitions, ∃ p ∈ A.states, ∃ q ∈ A.states, p.key = t.source.key ∧
      q.key = t.target.key ∧ move = (p.label, t.symbol, q.label) := by
  rw [labelledMoves, List.mem_filterMap]
  constructor
  · rintro ⟨t, ht, h⟩
    split at h
    · next p q hp hq =>
      obtain ⟨hp, hpk⟩ := state?_eq_some_iff.1 hp
      obtain ⟨hq, hqk⟩ := state?_eq_some_iff.1 hq
      exact ⟨t, ht, p, hp, q, hq, hpk, hqk, (Option.some.inj h).symm⟩
    · cases h
  · rintro ⟨t, ht, p, hp, q, hq, hpk, hqk, rfl⟩
    refine ⟨t, ht, ?_⟩
    rw [state?_eq_some_iff.2 ⟨hp, hpk⟩, state?_eq_some_iff.2 ⟨hq, hqk⟩]

lemma mem_labelProductions {moves : List LabelledMove} {p : Production} :
    p ∈ A.labelProductions moves k ↔
      (∃ move ∈ moves, move.1.key = k ∧ p = ⟨[Name.ofChar move.2.1, move.2.2]⟩) ∨
        (p = .empty ∧ ∃ q ∈ A.acceptStates, q.label.key = k) := by
  rw [labelProductions, List.mem_append]
  refine or_congr ?_ ?_
  · constructor
    · intro h
      obtain ⟨move, hmove, rfl⟩ := List.mem_map.1 h
      obtain ⟨hmove, hk⟩ := List.mem_filter.1 hmove
      exact ⟨move, hmove, of_decide_eq_true hk, rfl⟩
    · rintro ⟨move, hmove, hk, rfl⟩
      exact List.mem_map.2 ⟨move, List.mem_filter.2 ⟨hmove, decide_eq_true hk⟩, rfl⟩
  · constructor
    · intro h
      obtain ⟨q, hq, rfl⟩ := List.mem_map.1 h
      obtain ⟨hq, hk⟩ := List.mem_filter.1 hq
      exact ⟨rfl, q, hq, of_decide_eq_true hk⟩
    · rintro ⟨rfl, q, hq, hk⟩
      exact List.mem_map.2 ⟨q, List.mem_filter.2 ⟨hq, decide_eq_true hk⟩, rfl⟩

lemma exists_label_of_labelProductions (h : A.labelProductions A.labelledMoves k ≠ []) :
    ∃ l ∈ A.labels, l.key = k := by
  have hstate : ∃ q ∈ A.states, q.label.key = k := by
    obtain ⟨p, hp⟩ := List.exists_mem_of_ne_nil _ h
    rcases mem_labelProductions.1 hp with ⟨move, hmove, hk, _⟩ | ⟨_, q, hq, hk⟩
    · obtain ⟨t, _, p, hp, q, _, _, _, rfl⟩ := mem_labelledMoves.1 hmove
      exact ⟨p, hp, hk⟩
    · exact ⟨q, (mem_acceptStates.1 hq).1, hk⟩
  obtain ⟨q, hq, rfl⟩ := hstate
  have hkey : q.label.key ∈ A.labels.map Name.key :=
    Sequence.mem_keys_distinct.2 (List.mem_map_of_mem (List.mem_map_of_mem hq))
  obtain ⟨l, hl, hlk⟩ := List.mem_map.1 hkey
  exact ⟨l, hl, hlk⟩

lemma toGrammar_of_startState? (hq : A.startState? = some q) :
    ∃ g, A.toGrammar = .ok g ∧ g.start = q.label ∧
      ∀ k, g.productionsFor k = A.labelProductions A.labelledMoves k := by
  rw [toGrammar, startStates_of_startState? hq]
  refine ⟨_, rfl, rfl, fun k => ?_⟩
  rw [Grammar.productionsFor]
  cases hf : List.find? _ _ with
  | none =>
    by_contra hne
    obtain ⟨l, hl, rfl⟩ := exists_label_of_labelProductions (Ne.symm hne)
    refine List.find?_eq_none.1 hf (l, A.labelProductions A.labelledMoves l.key) ?_ (by simp)
    refine List.mem_filter.2 ⟨List.mem_map_of_mem hl, ?_⟩
    simpa [List.isEmpty_iff] using Ne.symm hne
  | some entry =>
    have hk := List.find?_some hf
    have hmem := (List.mem_filter.1 (List.mem_of_find?_eq_some hf)).1
    obtain ⟨l, _, rfl⟩ := List.mem_map.1 hmem
    obtain rfl : l.key = k := of_decide_eq_true hk
    rfl

def LabelsFaithful (A : Automaton) : Prop :=
  ∀ p ∈ A.states, ∀ q ∈ A.states, p.label.key = q.label.key →
    ∀ word, A.AcceptsFrom p.key word → A.AcceptsFrom q.key word

section Derivations

variable (hg : ∀ k, g.productionsFor k = A.labelProductions A.labelledMoves k)

include hg

lemma derives_label_nil : g.Derives k [] ↔ ∃ q ∈ A.acceptStates, q.label.key = k := by
  rw [Grammar.derives_nil, Grammar.hasEmpty_iff, hg, mem_labelProductions]
  constructor
  · rintro (⟨move, _, _, hp⟩ | ⟨_, hq⟩)
    · cases hp
    · exact hq
  · exact fun hq => .inr ⟨rfl, hq⟩

lemma derives_label_cons : g.Derives k (a :: word) ↔
    ∃ t ∈ A.transitions, ∃ p ∈ A.states, ∃ q ∈ A.states, p.key = t.source.key ∧
      q.key = t.target.key ∧ t.symbol = a ∧ p.label.key = k ∧ g.Derives q.label.key word := by
  rw [Grammar.derives_cons]
  constructor
  · rintro ⟨arc, hp, rfl, hnext⟩
    rw [hg, mem_labelProductions] at hp
    rcases hp with ⟨move, hmove, rfl, harc⟩ | ⟨harc, _⟩
    · obtain ⟨t, ht, p, hp, q, hq, hpk, hqk, rfl⟩ := mem_labelledMoves.1 hmove
      obtain rfl : arc = .go t.symbol q.label := Arc.production_injective harc
      exact ⟨t, ht, p, hp, q, hq, hpk, hqk, rfl, rfl, hnext⟩
    · cases arc <;> cases harc
  · rintro ⟨t, ht, p, hp, q, hq, hpk, hqk, rfl, rfl, hnext⟩
    refine ⟨.go t.symbol q.label, ?_, rfl, hnext⟩
    rw [hg, mem_labelProductions]
    exact .inl ⟨_, mem_labelledMoves.2 ⟨t, ht, p, hp, q, hq, hpk, hqk, rfl⟩, rfl, rfl⟩

lemma Deterministic.derives_of_acceptsFrom (h : A.Deterministic) (hq : q ∈ A.states)
    (hacc : A.AcceptsFrom q.key word) : g.Derives q.label.key word := by
  induction word generalizing q with
  | nil =>
    obtain ⟨p, hp, hk⟩ := hacc
    obtain rfl := eq_of_key_eq (mem_acceptStates.1 hp).1 hq hk
    exact (derives_label_nil hg).2 ⟨p, hp, rfl⟩
  | cons a word ih =>
    obtain ⟨t, ht, hs, ha, hacc⟩ := hacc
    obtain ⟨r, hr⟩ := h.target_known ht
    obtain ⟨hr, hrk⟩ := state?_eq_some_iff.1 hr
    rw [← hrk] at hacc
    exact (derives_label_cons hg).2 ⟨t, ht, q, hq, r, hr, hs.symm, hrk, ha, rfl, ih hr hacc⟩

lemma LabelsFaithful.acceptsFrom_of_derives (h : A.LabelsFaithful) (hq : q ∈ A.states)
    (hd : g.Derives q.label.key word) : A.AcceptsFrom q.key word := by
  induction word generalizing q with
  | nil =>
    obtain ⟨p, hp, hk⟩ := (derives_label_nil hg).1 hd
    exact h p (mem_acceptStates.1 hp).1 q hq hk [] ⟨p, hp, rfl⟩
  | cons a word ih =>
    obtain ⟨t, ht, p, hp, r, hr, hpk, hrk, ha, hk, hd⟩ := (derives_label_cons hg).1 hd
    have hacc : A.AcceptsFrom p.key (a :: word) := ⟨t, ht, hpk.symm, ha, hrk ▸ ih hr hd⟩
    exact h p hp q hq hk (a :: word) hacc

lemma Deterministic.exists_word_of_chain (h : A.Deterministic) {s : State} (hs : s ∈ A.states)
    (hc : A.Chain s.key k) : ∃ u, ∀ q ∈ A.states, q.key = k → ∀ word,
      (A.AcceptsFrom s.key (u ++ word) ↔ A.AcceptsFrom q.key word) ∧
        (g.Derives q.label.key word → g.Derives s.label.key (u ++ word)) := by
  induction hc with
  | here _ =>
    refine ⟨[], fun q hq hk word => ?_⟩
    obtain rfl := eq_of_key_eq hq hs hk
    exact ⟨Iff.rfl, id⟩
  | @step _ t hc ht hsource _ ih =>
    subst hsource
    obtain ⟨u, hu⟩ := ih
    obtain ⟨p, hp, hpk⟩ := hasState_iff.1 hc.hasState
    refine ⟨u ++ [t.symbol], fun q hq hqk word => ?_⟩
    obtain ⟨hacc, hder⟩ := hu p hp hpk (t.symbol :: word)
    rw [List.append_assoc, List.singleton_append, hacc, hpk, hqk, h.acceptsFrom_target ht]
    refine ⟨Iff.rfl, fun hd => hder ?_⟩
    exact (derives_label_cons hg).2 ⟨t, ht, p, hp, q, hq, hpk, hqk, rfl, rfl, hd⟩

end Derivations

lemma derived_of_toGrammar (h : A.Deterministic) (hg : A.toGrammar = .ok g)
    (hlabels : ∀ q ∈ A.states, q.label.isAtom = true) : A.derived = .ok g := by
  have hall : (A.states.map State.label).all Name.isAtom = true := by simpa using hlabels
  rw [derived, hg]
  simp only [Name.requireAtoms, hall, sources_atoms h.joined, targets_atoms h.joined, if_true]
  rfl

lemma labelsFaithful_of_nodup (h : (A.states.map fun q => q.label.key).Nodup) :
    A.LabelsFaithful := by
  intro p hp q hq hk word hacc
  rwa [← List.inj_on_of_nodup_map h hp hq hk]

/-- A ready automaton has a grammar, which generates all words that the automaton accepts. It
generates no other ones if states that share a label accept the same words, and only if no state
that shares its label with one within reach accepts more than that one does. -/
theorem toGrammar_generates (A : Automaton) (hA : A.isReady = true) :
    ∃ g, A.toGrammar = .ok g ∧
      ((∀ q ∈ A.states, q.label.isAtom = true) → A.derived = .ok g) ∧
      (∀ word, A.Accepts word → g.Generates word) ∧
      (A.LabelsFaithful → ∀ word, A.Accepts word ↔ g.Generates word) ∧
      ((∀ word, A.Accepts word ↔ g.Generates word) →
        ∀ q ∈ A.states, q.key ∈ A.reachable → ∀ p ∈ A.states, p.label.key = q.label.key →
          ∀ word, A.AcceptsFrom p.key word → A.AcceptsFrom q.key word) := by
  have h := isReady_iff_deterministic.1 hA
  obtain ⟨s, hs⟩ := Simulator.startState?_of_isReady hA
  have hmem := startState_mem hs
  have hacc := accepts_iff_acceptsFrom hA hs
  obtain ⟨g, hg, hstart, hproductions⟩ := toGrammar_of_startState? hs
  have hgen {word : List Char} : g.Generates word ↔ g.Derives s.label.key word := by
    rw [Grammar.Generates, hstart]
  refine ⟨g, hg, derived_of_toGrammar h hg, fun word hw => ?_, fun hf word => ?_, ?_⟩
  · exact hgen.2 (h.derives_of_acceptsFrom hproductions hmem ((hacc word).1 hw))
  · rw [hacc, hgen]
    constructor
    · exact h.derives_of_acceptsFrom hproductions hmem
    · exact hf.acceptsFrom_of_derives hproductions hmem
  · intro heq q hq hreach p hp hk word hw
    rw [reachable, hs, mem_reachableFrom_iff] at hreach
    obtain ⟨u, hu⟩ := h.exists_word_of_chain hproductions hmem hreach
    obtain ⟨hsame, hlonger⟩ := hu q hq rfl word
    have hd : g.Derives q.label.key word := hk ▸ h.derives_of_acceptsFrom hproductions hp hw
    exact hsame.1 ((hacc _).1 ((heq _).2 (hgen.2 (hlonger hd))))

theorem toGrammar_sample_generates : sample.isReady = true ∧ sample.LabelsFaithful ∧
    ∃ g, sample.toGrammar = .ok g ∧ g.Generates ['a', 'b'] ∧ ¬ g.Generates ['a'] := by
  have hready : sample.isReady = true := by decide
  have hlabels : sample.LabelsFaithful := labelsFaithful_of_nodup (by decide)
  obtain ⟨g, hg, _, _, hiff, _⟩ := toGrammar_generates sample hready
  refine ⟨hready, hlabels, g, hg, ?_, ?_⟩
  · rw [← hiff hlabels, accepts_iff hready]
    decide
  · rw [← hiff hlabels, accepts_iff hready]
    decide

def twins : Automaton where
  states :=
    [⟨"p", "X", .start, State.origin, by decide, by decide⟩,
      ⟨"q", "X", .accept, State.origin, by decide, by decide⟩]
  transitions := []
  alphabet := []
  keys_nodup := by decide
  ids_atoms := by decide
  alphabet_nodup := by decide
  alphabet_atoms := by decide

theorem twins_generates_more : twins.isReady = true ∧ ¬ twins.Accepts [] ∧
    ∃ g, twins.derived = .ok g ∧ g.Generates [] := by
  have hready : twins.isReady = true := by decide
  refine ⟨hready, ?_, _, rfl, .empty List.mem_cons_self⟩
  rw [accepts_iff hready]
  decide

end Automaton

end DfaWorkbench
