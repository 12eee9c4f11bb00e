import DfaWorkbench.Proofs.Conversion.Outcomes

/-! Grammars that are refused for a production that is not right-linear. It does not matter whether
its head can be reached, and the first such production is the one to blame. -/

namespace DfaWorkbench.Grammar

variable {g : Grammar} {layout : Layout} {head : Name} {p : Production}

/-- The symbols of a grammar are fit for an automaton, whatever its productions look like. Its start
symbol is one of the non-terminals, as `make` asks for; they are distinct, and none of them is
empty. No terminal is a sign for the empty word. -/
structure Proper (g : Grammar) : Prop where
  start : g.isNonTerminal g.start.key = true
  heads_atoms : ∀ head ∈ g.nonTerminals, head.isAtom = true
  heads_ne : ∀ head ∈ g.nonTerminals, head.isEmpty = false
  heads_nodup : (g.nonTerminals.map Name.key).Nodup
  terminals_texts : ∀ a ∈ g.terminals, a.isText = true
  terminals_ne : ∀ a ∈ g.terminals, a ≠ "ε" ∧ a ≠ "^"
  symbols_texts : ∀ head ∈ g.nonTerminals, ∀ p ∈ g.productionsFor head.key, ∀ n ∈ p.symbols,
    n.isText = true

/-- The productions of a right-linear grammar: the empty one, a terminal of one character, and such
a terminal with a non-terminal behind it. -/
inductive Supports (g : Grammar) : Production → Prop
  | empty : g.Supports .empty
  | last {a : Char} : g.isTerminal (Name.ofChar a).key = true → g.Supports ⟨[Name.ofChar a]⟩
  | more {a : Char} {next : Name} : g.isTerminal (Name.ofChar a).key = true →
      g.isNonTerminal next.key = true → g.Supports ⟨[Name.ofChar a, next]⟩

def rules (g : Grammar) : List (Name × Production) :=
  g.nonTerminals.flatMap fun head => (g.productionsFor head.key).map fun p => (head, p)

def FirstUnsupported (g : Grammar) (head : Name) (p : Production) : Prop :=
  ∃ before after, g.rules = before ++ (head, p) :: after ∧
    (∀ rule ∈ before, g.Supports rule.2) ∧ ¬ g.Supports p

lemma mem_rules : (head, p) ∈ g.rules ↔
    head ∈ g.nonTerminals ∧ p ∈ g.productionsFor head.key := by
  simp [rules]

lemma steps_eq : g.steps = g.rules.filter (!·.2.isEmpty) := by
  rw [steps, rules, List.filter_flatMap]
  refine List.flatMap_congr fun head _ => ?_
  rw [List.filter_map]
  rfl

lemma supports_iff : g.Supports p ↔ p.isEmpty = true ∨ ∃ arc, g.arc? p = some arc := by
  constructor
  · rintro (_ | ha | ⟨ha, hnext⟩)
    · exact .inl rfl
    · exact .inr ⟨_, arc?_stop ha⟩
    · exact .inr ⟨_, arc?_go ha hnext⟩
  · rintro (he | ⟨arc, harc⟩)
    · rw [Production.isEmpty_iff.1 he]
      exact .empty
    · have ha := isTerminal_of_arc? harc
      obtain rfl := production_of_arc? harc
      cases arc with
      | stop a => exact .last ha
      | go a next => exact .more ha (isNonTerminal_of_arc? harc)

lemma not_supports_iff : ¬ g.Supports p ↔ p.isEmpty = false ∧ g.arc? p = none := by
  rw [supports_iff, not_or, Bool.not_eq_true, ← Option.isSome_iff_exists,
    Option.not_isSome_iff_eq_none]

lemma text_of_not_supports (h : ¬ g.Supports p) :
    p.text = String.join (p.symbols.map Name.shown) := by
  rw [Production.text, Production.render, if_neg (by simp [(not_supports_iff.1 h).1])]

lemma exists_firstUnsupported_iff : (∃ head p, g.FirstUnsupported head p) ↔
    ∃ head ∈ g.nonTerminals, ∃ p ∈ g.productionsFor head.key, ¬ g.Supports p := by
  classical
  constructor
  · rintro ⟨head, p, before, after, hrules, _, hp⟩
    have hmem : (head, p) ∈ g.rules := by simp [hrules]
    exact ⟨head, (mem_rules.1 hmem).1, p, (mem_rules.1 hmem).2, hp⟩
  · rintro ⟨head, hhead, p, hp, hbad⟩
    have hsome : (g.rules.find? fun rule => ¬ g.Supports rule.2).isSome = true :=
      List.find?_isSome.2 ⟨(head, p), mem_rules.2 ⟨hhead, hp⟩, decide_eq_true hbad⟩
    obtain ⟨⟨head, p⟩, hfind⟩ := Option.isSome_iff_exists.1 hsome
    obtain ⟨hp, before, after, hrules, hbefore⟩ := List.find?_eq_some_iff_append.1 hfind
    refine ⟨head, p, before, after, hrules, fun rule hrule => ?_, of_decide_eq_true hp⟩
    simpa using hbefore rule hrule

namespace Proper

variable (h : g.Proper)

include h

lemma wellNamed : g.WellNamed {} where
  heads_atoms := h.heads_atoms
  heads_ne := h.heads_ne
  heads_nodup := h.heads_nodup
  sink_atom := rfl
  sink_ne := rfl
  terminals_texts := h.terminals_texts
  layout := Layout.fits_default

lemma symbol_notMem {arc : Arc} (harc : g.arc? p = some arc) : arc.symbol ∉ emptyWordSigns := by
  obtain ⟨a, ha, hkey⟩ := List.mem_map.1 (of_decide_eq_true (isTerminal_of_arc? harc))
  obtain ⟨hepsilon, hcaret⟩ := h.terminals_ne a ha
  rw [Name.eq_text_of_key hkey] at hepsilon hcaret
  intro hsign
  rcases List.mem_pair.1 hsign with he | he
  · exact hepsilon (congrArg Name.ofChar he)
  · exact hcaret (congrArg Name.ofChar he)

lemma exists_arc {step : Name × Production} (hstep : step ∈ g.steps) (hp : g.Supports step.2) :
    ∃ arc, g.arc? step.2 = some arc ∧ arc.symbol ∉ emptyWordSigns := by
  have hne := (mem_steps.1 hstep).2.2
  obtain ⟨arc, harc⟩ := (supports_iff.1 hp).resolve_left (by simp [hne])
  exact ⟨arc, harc, h.symbol_notMem harc⟩

lemma exists_headStates (hfits : layout.Fits) : ∃ heads,
    (g.nonTerminals.zipIdx.mapM fun (head, i) => g.headState layout head i) = .ok heads := by
  refine Result.exists_mapM_eq_ok fun ⟨head, i⟩ hhead => ?_
  obtain ⟨x, hx⟩ := hfits.slot i
  exact h.wellNamed.exists_headState (List.fst_mem_of_mem_zipIdx hhead) hx

lemma stepTransitions_of_first (hfirst : g.FirstUnsupported head p) :
    (g.steps.zipIdx.mapM fun ((head, p), i) => g.stepTransition {} head p i) =
      .error (.unsupported head p) := by
  obtain ⟨before, after, hrules, hbefore, hp⟩ := hfirst
  obtain ⟨hne, hnone⟩ := not_supports_iff.1 hp
  obtain ⟨hhead, hp⟩ : head ∈ g.nonTerminals ∧ p ∈ g.productionsFor head.key :=
    mem_rules.1 (by simp [hrules])
  have hsteps : g.steps =
      before.filter (!·.2.isEmpty) ++ (head, p) :: after.filter (!·.2.isEmpty) := by
    rw [steps_eq, hrules, List.filter_append, List.filter_cons_of_pos (by simp [hne])]
  have harc : g.arc head p = .error (.unsupported head p) :=
    arc_eq_error h.terminals_texts (h.symbols_texts head hhead p hp) hnone
  -- The transitions before this one are built without fail.
  rw [hsteps, List.zipIdx_append, List.zipIdx_cons]
  refine Result.mapM_eq_error_of_first (fun ⟨step, i⟩ hstep => ?_)
    (Result.bind_eq_error.2 (.inl harc))
  have hstep := List.fst_mem_of_mem_zipIdx hstep
  obtain ⟨arc, harc, hsymbol⟩ := h.exists_arc (hsteps ▸ List.mem_append_left _ hstep)
    (hbefore _ (List.mem_filter.1 hstep).1)
  exact h.wellNamed.exists_stepTransition harc hsymbol

lemma toAutomaton_of_first (hfirst : g.FirstUnsupported head p) :
    g.toAutomaton {} = .error (.unsupported head p) := by
  obtain ⟨layout, hlayout, hfits⟩ := h.wellNamed.layout
  obtain ⟨heads, hheads⟩ := h.exists_headStates hfits
  have hts := h.stepTransitions_of_first hfirst
  have hsink := h.wellNamed.requireAtoms_sink
  have hfull : g.fullAutomaton {} = .error (.unsupported head p) :=
    Result.bind_eq_error.2 (.inr ⟨layout, Result.mapError_eq_ok.2 hlayout,
      Result.bind_eq_error.2 (.inr ⟨heads, hheads, Result.bind_eq_error.2 (.inr ⟨(),
        Result.mapError_eq_ok.2 hsink, Result.bind_eq_error.2 (.inl hts)⟩)⟩)⟩)
  exact Result.bind_eq_error.2 (.inl hfull)

lemma exists_toAutomaton
    (hsupports : ∀ head ∈ g.nonTerminals, ∀ p ∈ g.productionsFor head.key, g.Supports p) :
    ∃ M, g.toAutomaton {} = .ok M := by
  have hconvertible : g.Convertible {} := by
    refine ⟨h.wellNamed, fun step hstep => h.exists_arc hstep ?_⟩
    obtain ⟨hhead, hp, _⟩ := mem_steps.1 hstep
    exact hsupports step.1 hhead step.2 hp
  obtain ⟨A, _, hM⟩ := hconvertible.exists_toAutomaton h.start
  exact ⟨_, hM⟩

lemma toAutomaton_cases :
    (∃ head p, g.FirstUnsupported head p ∧ g.toAutomaton {} = .error (.unsupported head p)) ∨
      ∃ M, g.toAutomaton {} = .ok M := by
  by_cases hfirst : ∃ head p, g.FirstUnsupported head p
  · obtain ⟨head, p, hfirst⟩ := hfirst
    exact .inl ⟨head, p, hfirst, h.toAutomaton_of_first hfirst⟩
  · refine .inr (h.exists_toAutomaton fun head hhead p hp => ?_)
    by_contra hbad
    exact hfirst (exists_firstUnsupported_iff.2 ⟨head, hhead, p, hp, hbad⟩)

lemma toAutomaton_eq_unsupported_iff :
    g.toAutomaton {} = .error (.unsupported head p) ↔ g.FirstUnsupported head p := by
  refine ⟨fun he => ?_, h.toAutomaton_of_first⟩
  rcases h.toAutomaton_cases with ⟨head', p', hfirst, he'⟩ | ⟨M, hM⟩
  · obtain ⟨rfl, rfl⟩ := ConversionError.unsupported.inj (Except.error.inj (he'.symm.trans he))
    exact hfirst
  · cases hM.symm.trans he

end Proper

/-- A production that is not right-linear keeps a grammar from having an automaton, even where it
cannot be reached, and the first one is reported as it is written. Nothing else does. -/
theorem toAutomaton_unsupported_iff (h : g.Proper) :
    ((∃ head p, g.toAutomaton {} = .error (.unsupported head p)) ↔
      ∃ head ∈ g.nonTerminals, ∃ p ∈ g.productionsFor head.key, ¬ g.Supports p) ∧
    (∀ head p, g.toAutomaton {} = .error (.unsupported head p) ↔ g.FirstUnsupported head p) ∧
    (∀ head p, g.FirstUnsupported head p → p.text = String.join (p.symbols.map Name.shown)) ∧
    ((¬ ∃ head ∈ g.nonTerminals, ∃ p ∈ g.productionsFor head.key, ¬ g.Supports p) →
      ∃ M, g.toAutomaton {} = .ok M) := by
  rw [← exists_firstUnsupported_iff]
  refine ⟨?_, fun head p => h.toAutomaton_eq_unsupported_iff, ?_, fun hnone => ?_⟩
  · exact exists_congr fun head => exists_congr fun p => h.toAutomaton_eq_unsupported_iff
  · rintro head p ⟨_, _, _, _, hp⟩
    exact text_of_not_supports hp
  · rcases h.toAutomaton_cases with ⟨head, p, hfirst, _⟩ | hM
    · exact absurd ⟨head, p, hfirst⟩ hnone
    · exact hM

def stray : Grammar where
  start := "S"
  nonTerminals := ["S", "T", "U"]
  terminals := ["a", "bc"]
  productions :=
    [("S", [⟨["a", "S"]⟩, .empty]), ("U", [⟨["bc"]⟩]), ("T", [⟨["a"]⟩, ⟨["S", "a"]⟩])]

theorem toAutomaton_stray : stray.Proper ∧
    stray.toAutomaton {} = .error (.unsupported "T" ⟨["S", "a"]⟩) ∧
    Production.text ⟨["S", "a"]⟩ = "Sa" := by
  have hproper : stray.Proper :=
    { start := rfl
      heads_atoms := by decide
      heads_ne := by decide
      heads_nodup := by decide
      terminals_texts := by decide
      terminals_ne := by simp [stray, Name.text]
      symbols_texts := by decide }
  obtain ⟨-, hiff, htext, -⟩ := toAutomaton_unsupported_iff hproper
  have hfirst : stray.FirstUnsupported "T" ⟨["S", "a"]⟩ := by
    refine ⟨[("S", ⟨["a", "S"]⟩), ("S", .empty), ("T", ⟨["a"]⟩)], [("U", ⟨["bc"]⟩)], rfl, ?_,
      not_supports_iff.2 ⟨rfl, rfl⟩⟩
    simp only [List.forall_mem_cons]
    exact ⟨.more (a := 'a') rfl rfl, .empty, .last (a := 'a') rfl, List.forall_mem_nil _⟩
  exact ⟨hproper, (hiff _ _).2 hfirst, htext _ _ hfirst⟩

end DfaWorkbench.Grammar
