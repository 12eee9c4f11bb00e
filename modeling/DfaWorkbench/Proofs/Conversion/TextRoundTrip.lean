import Mathlib.Data.List.Perm.Basic
import DfaWorkbench.Proofs.Conversion.Rebuilding
import DfaWorkbench.Proofs.Grammar.RoundTrip

/-! The grammar of an automaton by way of its text: the text is read as the same grammar as long as
labels are letters for non-terminals and symbols are characters for terminals. -/

namespace DfaWorkbench

variable {A : Automaton} {s q : State} {k : Key} {p : Production} {c : Char}

namespace Automaton

/-- Labels are letters that are read as non-terminals, and what transitions between states carry is
read as terminals. -/
structure Lettered (A : Automaton) : Prop where
  labels : ∀ q ∈ A.states, ∃ c, isNonTerminalSymbol c = true ∧ Name.ofChar c = q.label
  symbols : ∀ t ∈ A.transitions, A.joins t = true →
    Text.isBlank t.symbol = false ∧ t.symbol ≠ '|' ∧ isNonTerminalSymbol t.symbol = false

lemma Lettered.of_move (h : A.Lettered) {move : LabelledMove} (hm : move ∈ A.labelledMoves) :
    (Text.isBlank move.2.1 = false ∧ move.2.1 ≠ '|' ∧ move.2.1 ∉ emptyWordSigns ∧
      isNonTerminalSymbol move.2.1 = false) ∧
    ∃ c, isNonTerminalSymbol c = true ∧ Name.ofChar c = move.2.2 := by
  obtain ⟨t, ht, p, hp, q, hq, hpk, hqk, rfl⟩ := mem_labelledMoves.1 hm
  obtain ⟨hblank, hbar, hsymbol⟩ := h.symbols t ht (joins_iff.2 ⟨⟨p, hp, hpk⟩, q, hq, hqk⟩)
  exact ⟨⟨hblank, hbar, t.symbol_ne, hsymbol⟩, h.labels q hq⟩

lemma Lettered.exists_chars (h : A.Lettered) (hp : p ∈ A.labelProductions A.labelledMoves k) :
    ∃ cs, Production.ofChars cs = p ∧
      ∀ c ∈ cs, Text.isBlank c = false ∧ c ≠ '|' ∧ c ≠ 'ε' ∧ c ≠ '^' := by
  rcases mem_labelProductions.1 hp with ⟨move, hm, _, rfl⟩ | ⟨rfl, _⟩
  · obtain ⟨⟨hblank, hbar, hsigns, _⟩, d, hd, hnext⟩ := h.of_move hm
    obtain ⟨hdblank, hdbar, hdepsilon, hdcaret, _⟩ := readable_of_isNonTerminalSymbol hd
    refine ⟨[move.2.1, d], by rw [← hnext]; rfl, ?_⟩
    rw [emptyWordSigns] at hsigns
    simp_all
  · exact ⟨[], rfl, by simp⟩

lemma mem_productions_grammarFrom (hA : A.LabelsDistinct) {entry : Name × List Production} :
    entry ∈ (A.grammarFrom s).productions ↔ ∃ q ∈ A.states,
      A.labelProductions A.labelledMoves q.label.key ≠ [] ∧
        entry = (q.label, A.labelProductions A.labelledMoves q.label.key) := by
  rw [grammarFrom, hA.labels_eq, List.map_map, List.mem_filter, List.mem_map]
  constructor
  · rintro ⟨⟨q, hq, rfl⟩, hne⟩
    exact ⟨q, hq, by simpa using hne, rfl⟩
  · rintro ⟨q, hq, hne, rfl⟩
    exact ⟨⟨q, hq, rfl⟩, by simpa using hne⟩

lemma exists_entry_of_move (hA : A.LabelsDistinct) {move : LabelledMove}
    (hm : move ∈ A.labelledMoves) : ∃ entry ∈ (A.grammarFrom s).productions,
      ⟨[Name.ofChar move.2.1, move.2.2]⟩ ∈ entry.2 := by
  obtain ⟨t, _, q, hq, r, _, _, _, rfl⟩ := mem_labelledMoves.1 hm
  have hp : ⟨[Name.ofChar t.symbol, r.label]⟩ ∈
      A.labelProductions A.labelledMoves q.label.key :=
    mem_labelProductions.2 (.inl ⟨_, hm, rfl, rfl⟩)
  exact ⟨_, (mem_productions_grammarFrom hA).2 ⟨q, hq, List.ne_nil_of_mem hp, rfl⟩, hp⟩

lemma Lettered.exists_rule (h : A.Lettered) (hA : A.LabelsDistinct)
    {entry : Name × List Production} (he : entry ∈ (A.grammarFrom s).productions) :
    ∃ r : Rule, r.entry = entry ∧ r.Readable := by
  obtain ⟨q, hq, hne, rfl⟩ := (mem_productions_grammarFrom hA).1 he
  obtain ⟨c, hc, hlabel⟩ := h.labels q hq
  obtain ⟨hblank, _, _, _, harrow⟩ := readable_of_isNonTerminalSymbol hc
  obtain ⟨alternatives, halternatives, hchars⟩ :=
    Sequence.exists_map_eq fun p hp => h.exists_chars (k := q.label.key) hp
  refine ⟨⟨String.singleton c, alternatives⟩, ?_, ?_⟩
  · rw [Rule.entry, halternatives, ← hlabel]
    rfl
  · constructor
    · simp
    · simp [hblank, harrow]
    · rintro rfl
      exact hne halternatives.symm
    · exact hchars

lemma nodup_keys_productions (hA : A.LabelsDistinct) :
    ((A.grammarFrom s).productions.map fun entry => entry.1.key).Nodup := by
  have hlabels : ((A.labels.map fun l => (l, A.labelProductions A.labelledMoves l.key)).map
      fun entry => entry.1.key) = A.states.map fun q => q.label.key := by
    rw [hA.labels_eq, List.map_map, List.map_map]
    rfl
  rw [LabelsDistinct, ← hlabels] at hA
  exact hA.sublist (List.filter_sublist.map _)

lemma exists_writtenBy (h : A.Lettered) (hA : A.LabelsDistinct) (hs : A.startState? = some s)
    (hc : Name.ofChar c = s.label) :
    ∃ names rules, (A.grammarFrom s).WrittenBy (String.singleton c) names rules := by
  have htexts : ∀ n ∈ (A.grammarFrom s).nonTerminals, n.isText = true := by
    rw [nonTerminals_grammarFrom hA]
    intro n hn
    obtain ⟨q, hq, rfl⟩ := List.mem_map.1 hn
    obtain ⟨d, _, hd⟩ := h.labels q (List.mem_filter.1 hq).1
    rw [← hd]
    rfl
  have hkeys : ((A.grammarFrom s).nonTerminals.map Name.key).Nodup := by
    rw [nonTerminals_grammarFrom hA, List.map_map]
    exact hA.sublist (List.filter_sublist.map _)
  obtain ⟨names, hnames⟩ := Name.exists_texts htexts
  obtain ⟨rules, hrules, hreadable⟩ :=
    Sequence.exists_map_eq fun entry he => h.exists_rule (s := s) hA he
  have hmem {x : String} {q : State} (hq : q ∈ A.keptStates s) (hx : Name.text x = q.label) :
      x ∈ names := by
    rw [← List.mem_map_of_injective Name.text_injective, hnames, nonTerminals_grammarFrom hA, hx]
    exact List.mem_map_of_mem hq
  refine ⟨names, rules, hc.symm, hnames.symm, hrules.symm, ?_, ?_, fun r hr => ?_, ?_, hreadable⟩
  · rw [← hnames] at hkeys
    exact (hkeys.of_map Name.key).of_map Name.text
  · exact hmem (start_mem_keptStates hs) hc
  · have hentry : r.entry ∈ (A.grammarFrom s).productions := hrules ▸ List.mem_map_of_mem hr
    obtain ⟨q, hq, hne, he⟩ := (mem_productions_grammarFrom hA).1 hentry
    refine hmem (List.mem_filter.2 ⟨hq, ?_⟩) (congrArg Prod.fst he)
    simp [keepsLabel, hne]
  · have hheads : (rules.map Rule.head).map Key.text =
        (A.grammarFrom s).productions.map fun entry => entry.1.key := by
      rw [← hrules, List.map_map, List.map_map]
      rfl
    refine List.Nodup.of_map Key.text ?_
    rw [hheads]
    exact nodup_keys_productions hA

lemma uses_grammarFrom_iff (h : A.Lettered) (hA : A.LabelsDistinct)
    (hs : A.startState? = some s) (hc : isNonTerminalSymbol c = true) :
    (A.grammarFrom s).Uses (Name.ofChar c).key ↔
      A.labelProductions A.labelledMoves (Name.ofChar c).key ≠ [] ∨
        isGoal A.labelledMoves (Name.ofChar c).key = true := by
  rw [Grammar.Uses, productionsFor_grammarFrom hs]
  refine or_congr_right ?_
  constructor
  · rintro ⟨entry, he, p, hp, hk⟩
    obtain ⟨q, _, _, rfl⟩ := (mem_productions_grammarFrom hA).1 he
    rcases mem_labelProductions.1 hp with ⟨move, hm, _, rfl⟩ | ⟨rfl, _⟩
    · -- No terminal is a letter, so the letter is where the move leads to.
      have hne : (Name.ofChar c).key ≠ (Name.ofChar move.2.1).key := by
        intro he
        obtain rfl : c = move.2.1 := String.singleton_inj.1 (Key.text.inj he)
        simp [(h.of_move hm).1.2.2.2] at hc
      have hnext : (Name.ofChar c).key = move.2.2.key := by simpa [hne] using hk
      exact List.any_eq_true.2 ⟨move, hm, decide_eq_true hnext.symm⟩
    · cases hk
  · intro hgoal
    obtain ⟨move, hm, hk⟩ := List.any_eq_true.1 hgoal
    obtain ⟨entry, he, hp⟩ := exists_entry_of_move (s := s) hA hm
    exact ⟨entry, he, _, hp, by simp [← of_decide_eq_true hk]⟩

lemma exists_state_of_uses (h : A.Lettered) (hA : A.LabelsDistinct)
    (hs : A.startState? = some s) (hc : isNonTerminalSymbol c = true)
    (huses : (A.grammarFrom s).Uses (Name.ofChar c).key) :
    ∃ q ∈ A.keptStates s, q.label = Name.ofChar c := by
  have hkept (q : State) (hq : q ∈ A.states) (hk : q.label.key = (Name.ofChar c).key) :
      q ∈ A.keptStates s := by
    refine List.mem_filter.2 ⟨hq, ?_⟩
    rw [hk, keepsLabel]
    rcases (uses_grammarFrom_iff h hA hs hc).1 huses with hne | hgoal
    · simp [hne]
    · simp [hgoal]
  have hstate : ∃ q ∈ A.states, q.label.key = (Name.ofChar c).key := by
    rcases (uses_grammarFrom_iff h hA hs hc).1 huses with hne | hgoal
    · obtain ⟨l, hl, hk⟩ := exists_label_of_labelProductions hne
      rw [hA.labels_eq] at hl
      obtain ⟨q, hq, rfl⟩ := List.mem_map.1 hl
      exact ⟨q, hq, hk⟩
    · obtain ⟨move, hm, hk⟩ := List.any_eq_true.1 hgoal
      obtain ⟨_, _, _, _, q, hq, _, _, rfl⟩ := mem_labelledMoves.1 hm
      exact ⟨q, hq, of_decide_eq_true hk⟩
  obtain ⟨q, hq, hk⟩ := hstate
  exact ⟨q, hkept q hq hk, Name.eq_text_of_key hk⟩

lemma uses_of_mem_keptStates (h : A.Lettered) (hA : A.LabelsDistinct)
    (hs : A.startState? = some s) (hstart : (A.grammarFrom s).Uses s.label.key)
    (hq : q ∈ A.keptStates s) : (A.grammarFrom s).Uses q.label.key := by
  obtain ⟨hq, hkeeps⟩ := List.mem_filter.1 hq
  obtain ⟨c, hc, hlabel⟩ := h.labels q hq
  rw [keepsLabel, Bool.or_eq_true, Bool.or_eq_true, decide_eq_true_eq] at hkeeps
  rcases hkeeps with (hne | hgoal) | he
  · rw [← hlabel] at hne ⊢
    exact (uses_grammarFrom_iff h hA hs hc).2 (.inl (by simpa using hne))
  · rw [← hlabel] at hgoal ⊢
    exact (uses_grammarFrom_iff h hA hs hc).2 (.inr hgoal)
  · rwa [he]

section Reading

variable {h : Grammar} {names : List String} {rules : List Rule}
  (hw : (A.grammarFrom s).WrittenBy (String.singleton c) names rules)

include hw

lemma mem_names_iff (hA : A.LabelsDistinct) {x : String} :
    x ∈ names ↔ ∃ q ∈ A.keptStates s, q.label = .text x := by
  rw [← List.mem_map_of_injective Name.text_injective, ← hw.nonTerminals_eq,
    nonTerminals_grammarFrom hA, List.mem_map]

lemma names_perm (hl : A.Lettered) (hA : A.LabelsDistinct) (hs : A.startState? = some s)
    (huses : (A.grammarFrom s).Uses s.label.key) : (Grammar.nonTerminalsOf rules).Perm names := by
  refine hw.nonTerminalsOf_perm_names (fun x hx => ?_) fun d hd => ?_
  · obtain ⟨q, hq, hx⟩ := (mem_names_iff hw hA).1 hx
    obtain ⟨d, hd, hlabel⟩ := hl.labels q (List.mem_filter.1 hq).1
    exact ⟨d, hd, Name.text_injective (hlabel.trans hx)⟩
  · rw [mem_names_iff hw hA]
    constructor
    · exact exists_state_of_uses hl hA hs hd
    · rintro ⟨q, hq, hlabel⟩
      have hused := uses_of_mem_keptStates hl hA hs huses hq
      rwa [hlabel] at hused

lemma symbol_mem_terminalsOf (hl : A.Lettered) (hA : A.LabelsDistinct) {move : LabelledMove}
    (hm : move ∈ A.labelledMoves) : move.2.1 ∈ Grammar.terminalsOf rules := by
  refine Grammar.mem_terminalsOf.2 ⟨hw.exists_symbol_iff.2 ?_, (hl.of_move hm).1.2.2.2⟩
  obtain ⟨entry, he, hp⟩ := exists_entry_of_move (s := s) hA hm
  exact ⟨entry, he, _, hp, List.mem_cons_self⟩

lemma exists_isOf (hA : A.LabelsDistinct) (hl : A.Lettered) (hn : A.WellNamed)
    (hs : A.startState? = some s) (hstart : h.start = s.label)
    (hlookup : ∀ head, h.productionsFor head = (A.grammarFrom s).productionsFor head)
    (hnonTerminals : h.nonTerminals.Perm (A.grammarFrom s).nonTerminals)
    (hterminals : h.terminals.Perm ((Grammar.terminalsOf rules).map Name.ofChar)) :
    ∃ qs, qs.Perm (A.keptStates s) ∧ h.IsOf A s qs := by
  have hg := isOf_grammarFrom hs hA hn
  have hmem (k : Key) : h.isNonTerminal k = (A.grammarFrom s).isNonTerminal k :=
    decide_eq_decide.2 (hnonTerminals.map Name.key).mem_iff
  rw [hg.nonTerminals_eq] at hnonTerminals
  -- The letters come in the order of the text, and the states are put in that order with them.
  obtain ⟨qs, hqs, hperm⟩ : Relation.Comp (· = List.map State.label ·) List.Perm h.nonTerminals
      (A.keptStates s) := by
    rw [List.eq_map_comp_perm]
    exact hnonTerminals
  refine ⟨qs, hperm, hstart, hqs, fun k => ?_, fun q hq => ?_, ?_, ?_, fun move hm => ?_,
    fun move hm => ?_, fun a ha => ?_⟩
  · rw [hlookup, hg.productionsFor_eq]
  · exact hg.states_subset (hperm.mem_iff.1 hq)
  · exact hperm.nodup_iff.2 hg.states_nodup
  · exact hperm.mem_iff.2 hg.start_mem
  · rw [hmem, hg.target_mem move hm]
  · refine decide_eq_true ?_
    rw [(hterminals.map Name.key).mem_iff]
    exact List.mem_map_of_mem (List.mem_map_of_mem (symbol_mem_terminalsOf hw hl hA hm))
  · obtain ⟨d, _, rfl⟩ := List.mem_map.1 (hterminals.mem_iff.1 ha)
    rfl

end Reading

/-- The text of the grammar is read as that grammar, and its automaton is the part that can be
reached, in some order. Only a start symbol that is not in use is not found again. -/
theorem derived_parse (hs : A.startState? = some s) (hA : A.LabelsDistinct) (hn : A.WellNamed)
    (hl : A.Lettered) :
    ∃ g start, A.derived = .ok g ∧ g.start = .text start ∧ g.formatted {} = .ok (g.format {}) ∧
      (g.Uses g.start.key → ∃ h M, Grammar.parse {} start (g.format {}) = .ok h ∧
        h.start = g.start ∧ h.productions.Perm g.productions ∧
        (∀ head, h.productionsFor head = g.productionsFor head) ∧
        h.nonTerminals.Perm g.nonTerminals ∧ h.toAutomaton {} = .ok M ∧
        (M.states.map State.outline).Perm (A.reachableStates.map State.labelOutline) ∧
        (M.transitions.map Transition.move).Perm (A.reachableStates.flatMap A.movesOf)) ∧
      (¬ g.Uses g.start.key →
        Grammar.parse {} start (g.format {}) = .error (.unknownStart start)) := by
  obtain ⟨c, hc, hlabel⟩ := hl.labels s (startState_mem hs)
  obtain ⟨names, rules, hw⟩ := exists_writtenBy hl hA hs hlabel
  have htrim : Text.trim (String.singleton c).toList = (String.singleton c).toList := by
    have hblank := (readable_of_isNonTerminalSymbol hc).1
    rw [String.toList_singleton]
    exact (Text.isTight_of_forall (by simp [hblank])).trim_eq
  have hfound : String.singleton c ∈ Grammar.nonTerminalsOf rules ↔
      (A.grammarFrom s).Uses (A.grammarFrom s).start.key := by
    rw [hw.mem_nonTerminalsOf_iff hc, hw.start_eq]
    rfl
  refine ⟨A.grammarFrom s, String.singleton c, derived_eq hs hn, hw.start_eq, hw.formatted_eq,
    fun huses => ?_, fun hfree => hw.parse_format_eq_error htrim (mt hfound.1 hfree)⟩
  obtain ⟨h, hparse, hstart, hproductions, hlookup, hnonTerminals, hterminals⟩ :=
    hw.parse_format_eq_ok htrim (hfound.2 huses)
  have hsame : h.nonTerminals.Perm (A.grammarFrom s).nonTerminals := by
    rw [hw.nonTerminals_eq]
    exact hnonTerminals.trans ((names_perm hw hl hA hs huses).map Name.text)
  obtain ⟨qs, hqs, hof⟩ := exists_isOf hw hA hl hn hs hstart hlookup hsame hterminals
  obtain ⟨M, hM, hstates, hmoves, _⟩ := hof.toAutomaton_eq_ok hA hs hn.labels_atoms
  have hreach : (qs.filter (·.key ∈ A.reachable)).Perm A.reachableStates := by
    rw [← filter_keptStates hs]
    exact hqs.filter _
  refine ⟨h, M, hparse, hstart, hproductions, hlookup, hsame, hM, ?_, ?_⟩
  · rw [hstates]
    exact hreach.map _
  · rw [hmoves]
    exact hreach.flatMap_right _

def arrowedStart : State :=
  ⟨"i", "S", .start, State.origin, by decide, by decide⟩

def arrowed : Automaton where
  states :=
    [arrowedStart,
      ⟨"j", "B", .accept, State.origin, by decide, by decide⟩,
      ⟨"k", "A", .normal, State.origin, by decide, by decide⟩]
  transitions :=
    [⟨"ij", "i", "j", '→', by decide, by decide⟩,
      ⟨"ji", "j", "i", '-', by decide, by decide⟩,
      ⟨"ji", "j", "i", '>', by decide, by decide⟩,
      ⟨"kj", "k", "j", '-', by decide, by decide⟩]
  alphabet := ["-"]
  keys_nodup := by decide
  ids_atoms := by decide
  alphabet_nodup := by decide
  alphabet_atoms := by decide

theorem derived_parse_arrowed : arrowed.LabelsDistinct ∧ arrowed.WellNamed ∧ arrowed.Lettered ∧
    ∃ g h M, arrowed.derived = .ok g ∧ g.Uses g.start.key ∧
      Grammar.parse {} "S" (g.format {}) = .ok h ∧ h.toAutomaton {} = .ok M ∧
      (M.states.map State.outline).Perm
        [(.text "S", .text "S", true, false), (.text "B", .text "B", false, true)] ∧
      (M.transitions.map Transition.move).Perm [(.text "S", '→', .text "B"),
        (.text "B", '-', .text "S"), (.text "B", '>', .text "S")] := by
  have hs : arrowed.startState? = some arrowedStart := rfl
  have hlabels : arrowed.LabelsDistinct := by
    rw [LabelsDistinct]
    decide
  have hnamed : arrowed.WellNamed := by constructor <;> decide
  have hlettered : arrowed.Lettered := by
    constructor
    · simp only [arrowed, List.forall_mem_cons]
      exact ⟨⟨'S', by decide, rfl⟩, ⟨'B', by decide, rfl⟩, ⟨'A', by decide, rfl⟩,
        List.forall_mem_nil _⟩
    · decide
  obtain ⟨g, start, hg, hstart, _, hread, _⟩ := derived_parse hs hlabels hnamed hlettered
  obtain rfl := Except.ok.inj ((derived_eq hs hnamed).symm.trans hg)
  obtain rfl : "S" = start := Name.text_injective hstart
  have huses : (arrowed.grammarFrom arrowedStart).Uses arrowedStart.label.key := by
    refine .inl ?_
    rw [productionsFor_grammarFrom hs]
    exact List.cons_ne_nil _ _
  obtain ⟨h, M, hparse, _, _, _, _, hM, hstates, hmoves⟩ := hread huses
  exact ⟨hlabels, hnamed, hlettered, _, h, M, hg, huses, hparse, hM, hstates, hmoves⟩

end Automaton

end DfaWorkbench
