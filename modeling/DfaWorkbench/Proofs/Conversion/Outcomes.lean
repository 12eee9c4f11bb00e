import DfaWorkbench.Proofs.Conversion.Convertible

/-! What can come of converting a grammar whose productions are spelled by characters: an automaton,
a production that is not right-linear, a sign for the empty word as the symbol of a transition, or
states without places. -/

namespace DfaWorkbench

variable {g : Grammar} {settings : Settings} {layout : Layout} {head : Name} {p : Production}
  {arc : Arc} {cs : List Char} {i : ℕ}

namespace Transition

lemma ofChar_of_sign {id source target : Name} {symbol : Char} (hid : id.isEmpty = false)
    (hsymbol : symbol ∈ emptyWordSigns) :
    ofChar id source target symbol = .error (.emptyWordSymbol id) := by
  rw [ofChar, dif_neg (by simp [hid]), dif_pos hsymbol]

end Transition

lemma Production.isText_ofChars (cs : List Char) :
    ∀ n ∈ (ofChars cs).symbols, n.isText = true := by
  intro n hn
  obtain ⟨c, _, rfl⟩ := List.mem_map.1 hn
  rfl

namespace Grammar

lemma symbol_mem_of_arc? (h : g.arc? (.ofChars cs) = some arc) : arc.symbol ∈ cs := by
  have hsymbols : arc.production.symbols = cs.map Name.ofChar :=
    congrArg Production.symbols (production_of_arc? h)
  have hmem : Name.ofChar arc.symbol ∈ cs.map Name.ofChar := by
    rw [← hsymbols]
    cases arc <;> exact List.mem_cons_self
  obtain ⟨c, hc, he⟩ := List.mem_map.1 hmem
  rwa [← Name.ofChar_inj.1 he]

lemma lookedUp_subset : g.lookedUp p ⊆ p.symbols := by
  rw [lookedUp]
  split
  · next a ha => rw [ha]; exact fun n hn => hn
  · next a b hab =>
    rw [hab]
    split
    · exact fun n hn => hn
    · exact fun n hn => List.mem_cons.2 (.inl (List.mem_singleton.1 hn))
  · exact List.nil_subset _

lemma arc_eq_error (hterminals : ∀ a ∈ g.terminals, a.isText = true)
    (htexts : ∀ n ∈ p.symbols, n.isText = true) (ha : g.arc? p = none) :
    g.arc head p = .error (.unsupported head p) := by
  have hatoms : (g.terminals ++ g.lookedUp p).all Name.isAtom = true := by
    rw [List.all_append, Bool.and_eq_true, List.all_eq_true, List.all_eq_true]
    exact ⟨fun n hn => Name.isAtom_of_isText (hterminals n hn),
      fun n hn => Name.isAtom_of_isText (htexts n (lookedUp_subset hn))⟩
  have hmeasured : (g.measured p).all Name.isText = true := by
    rw [List.all_eq_true]
    exact fun n hn => htexts n (lookedUp_subset (List.mem_of_mem_take (List.mem_filter.1 hn).1))
  rw [Grammar.arc, Name.requireAtoms, if_pos hatoms, Name.requireTexts, if_pos hmeasured, ha,
    Name.requireTexts, if_pos (List.all_eq_true.2 htexts)]
  rfl

namespace Named

variable (h : g.Named settings)

include h

lemma stepTransition_of_sign (ha : g.arc? p = some arc) (hsymbol : arc.symbol ∈ emptyWordSigns) :
    g.stepTransition settings head p i =
      .error (.defect (.emptyWordSymbol (Automaton.transitionName i))) := by
  have hid := Automaton.transitionName_ne i
  refine Result.bind_eq_error.2 (.inr ⟨arc, h.arc_eq_ok ha, ?_⟩)
  cases arc with
  | stop a => exact congrArg (Except.mapError _) (Transition.ofChar_of_sign hid hsymbol)
  | go a next => exact congrArg (Except.mapError _) (Transition.ofChar_of_sign hid hsymbol)

lemma stepTransition_cases (head : Name) (i : ℕ) (htexts : ∀ n ∈ p.symbols, n.isText = true) :
    (∃ t, g.stepTransition settings head p i = .ok t) ∨
      (g.arc? p = none ∧ g.stepTransition settings head p i = .error (.unsupported head p)) ∨
      ∃ arc, g.arc? p = some arc ∧ arc.symbol ∈ emptyWordSigns ∧
        g.stepTransition settings head p i =
          .error (.defect (.emptyWordSymbol (Automaton.transitionName i))) := by
  cases ha : g.arc? p with
  | none =>
    have herror : g.arc head p = .error (.unsupported head p) :=
      arc_eq_error h.terminals_texts htexts ha
    exact .inr (.inl ⟨rfl, Result.bind_eq_error.2 (.inl herror)⟩)
  | some arc =>
    by_cases hsymbol : arc.symbol ∈ emptyWordSigns
    · exact .inr (.inr ⟨arc, rfl, hsymbol, h.stepTransition_of_sign ha hsymbol⟩)
    · exact .inl (h.exists_stepTransition ha hsymbol)

theorem toAutomaton_cases (hstart : g.isNonTerminal g.start.key = true)
    (hchars : ∀ step ∈ g.steps, ∃ cs, step.2 = .ofChars cs) :
    (∃ M, g.toAutomaton settings = .ok M) ∨
      (∃ e, g.Misplaces settings e ∧ g.toAutomaton settings = .error (.layout e)) ∨
      (∃ head p, (head, p) ∈ g.steps ∧ g.arc? p = none ∧
        g.toAutomaton settings = .error (.unsupported head p)) ∨
      ∃ i head p arc, g.steps[i]? = some (head, p) ∧ g.arc? p = some arc ∧
        arc.symbol ∈ emptyWordSigns ∧
        g.toAutomaton settings =
          .error (.defect (.emptyWordSymbol (Automaton.transitionName i))) := by
  have herror {e : ConversionError} (he : g.fullAutomaton settings = .error e) :
      g.toAutomaton settings = .error e := Result.bind_eq_error.2 (.inl he)
  rcases h.fullAutomaton_cases with ⟨A, hA⟩ | ⟨e, he, hf⟩ | ⟨i, head, p, e, hi, he, hf⟩
  · exact .inl ⟨_, h.toAutomaton_eq_ok hA hstart⟩
  · exact .inr (.inl ⟨e, he, herror hf⟩)
  · have hstep := List.mem_of_getElem? hi
    obtain ⟨cs, hcs⟩ := hchars _ hstep
    obtain rfl : p = .ofChars cs := hcs
    rcases h.stepTransition_cases head i (Production.isText_ofChars cs) with
      ⟨t, ht⟩ | ⟨hnone, ht⟩ | ⟨arc, harc, hsymbol, ht⟩
    · cases ht.symm.trans he
    · obtain rfl := Except.error.inj (ht.symm.trans he)
      exact .inr (.inr (.inl ⟨head, _, hstep, hnone, herror hf⟩))
    · obtain rfl := Except.error.inj (ht.symm.trans he)
      exact .inr (.inr (.inr ⟨i, head, _, arc, hi, harc, hsymbol, herror hf⟩))

end Named

end Grammar

end DfaWorkbench
