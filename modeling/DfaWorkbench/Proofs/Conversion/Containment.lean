import DfaWorkbench.Proofs.Conversion.Places
import DfaWorkbench.Proofs.Conversion.Refusal

/-! Reading a text and converting its grammar under settings of one's own. A transition is refused
for the signs that stand for the empty word from the beginning, also where the settings have other
markers, so what was read as a terminal may not be converted as one. -/

namespace DfaWorkbench.Grammar

variable {settings : Settings} {g : Grammar} {M : Automaton} {rules : List Rule} {start : String}

def SpelledBy (g : Grammar) (settings : Settings) (p : Production) : Prop :=
  ∃ cs : List Char, p = .ofChars cs ∧ settings.Unmarked cs ∧
    ∀ c ∈ cs, if isNonTerminalSymbol c then g.isNonTerminal (Name.ofChar c).key = true
      else g.isTerminal (Name.ofChar c).key = true

/-- The terminals of a grammar are the alphabet of an automaton, which moves by the productions of
each head that it has a state for. -/
structure MovedBy (M : Automaton) (g : Grammar) (settings : Settings) : Prop where
  alphabet : ∀ k, k ∈ M.alphabet.map Name.key ↔ g.isTerminal k = true
  moves : ∀ step ∈ g.steps, M.hasState step.1.key = true →
    ∃ t ∈ M.transitions, g.IsTransitionOf settings step t

inductive Outcome (g : Grammar) (settings : Settings) : Except ConversionError Automaton → Prop
  | automaton {M : Automaton} : MovedBy M g settings → g.Outcome settings (.ok M)
  | unsupported {head : Name} {p : Production} : (head, p) ∈ g.steps → g.arc? p = none →
      g.Outcome settings (.error (.unsupported head p))
  | sign {i : ℕ} {head : Name} {p : Production} {arc : Arc} : g.steps[i]? = some (head, p) →
      g.arc? p = some arc → arc.symbol ∈ emptyWordSigns →
      ¬ settings.IsMarker (String.singleton arc.symbol) →
      g.Outcome settings (.error (.defect (.emptyWordSymbol (Automaton.transitionName i))))
  | cramped {e : LayoutError} : settings.Cramped g.nonTerminals.length e →
      g.Outcome settings (.error (.layout e))

lemma movedBy_toAutomaton (hM : g.toAutomaton settings = .ok M) : MovedBy M g settings := by
  obtain ⟨A, hA, rfl⟩ := exists_full_of_toAutomaton hM
  have hd := describes_fullAutomaton hA
  refine ⟨fun k => mem_alphabet_iff hA, fun step hstep hstate => ?_⟩
  obtain ⟨t, ht, arc, harc, hsource, hrest⟩ := hd.step_transition step hstep
  have hkept : t.source.key ∈ A.reachableFrom g.start.key :=
    hsource ▸ (Automaton.hasState_restrict.1 hstate).2
  exact ⟨t, Automaton.mem_transitions_restrict.2 ⟨ht, hkept, hd.target_reachable ht hkept⟩,
    arc, harc, hsource, hrest⟩

lemma spelledBy_assembled (start : String) (h : settings.Typed)
    (hrules : ∀ r ∈ rules, ∃ line, Rule.parse settings line = .ok r) :
    ∀ step ∈ (assembled start rules).steps, (assembled start rules).SpelledBy settings step.2 := by
  rintro ⟨head, p⟩ hstep
  obtain ⟨r, hr, cs, hcs, hne, rfl⟩ := exists_alternative_of_mem_steps hstep
  obtain ⟨line, hline⟩ := hrules r hr
  refine ⟨cs, rfl, ((Rule.of_parse_eq_ok h hline).2 cs hcs).resolve_left hne, fun c hc => ?_⟩
  have hsymbol : ∃ r ∈ rules, c ∈ r.symbols := ⟨r, hr, List.mem_flatten.2 ⟨cs, hcs, hc⟩⟩
  split
  · next hcap =>
    have hmem : String.singleton c ∈ nonTerminalsOf rules :=
      mem_nonTerminalsOf.2 (.inr ⟨c, hsymbol, hcap, rfl⟩)
    exact isNonTerminal_iff.2 ⟨_, List.mem_map_of_mem hmem, rfl⟩
  · next hcap =>
    have hmem : c ∈ terminalsOf rules := mem_terminalsOf.2 ⟨hsymbol, Bool.eq_false_iff.2 hcap⟩
    exact decide_eq_true (List.mem_map_of_mem (List.mem_map_of_mem hmem))

lemma outcome_assembled (hcheck : settings.check = .ok settings) (h : settings.Typed)
    (hrules : ∀ r ∈ rules, ∃ line, Rule.parse settings line = .ok r)
    (hstart : start ∈ nonTerminalsOf rules) :
    (assembled start rules).Outcome settings ((assembled start rules).toAutomaton settings) := by
  have hheads : ∀ r ∈ rules, r.head ≠ "" := by
    intro r hr
    obtain ⟨line, hline⟩ := hrules r hr
    exact (Rule.of_parse_eq_ok h hline).1
  have hnamed : (assembled start rules).Named settings :=
    named_assembled hheads (Name.isAtom_of_isText h.sinkId) (Settings.sinkId_of_check hcheck)
  have hspelled := spelledBy_assembled start h hrules
  have hchars : ∀ step ∈ (assembled start rules).steps, ∃ cs, step.2 = .ofChars cs :=
    fun step hstep => (hspelled step hstep).imp fun cs hcs => hcs.1
  rcases hnamed.toAutomaton_cases (start_assembled hstart) hchars with
    ⟨M, hM⟩ | ⟨e, he, herror⟩ | ⟨head, p, hstep, hnone, herror⟩ |
    ⟨i, head, p, arc, hi, harc, hsign, herror⟩
  · rw [hM]
    exact .automaton (movedBy_toAutomaton hM)
  · rw [herror]
    exact .cramped (h.cramped he)
  · rw [herror]
    exact .unsupported hstep hnone
  · obtain ⟨cs, hcs, hunmarked, -⟩ := hspelled _ (List.mem_of_getElem? hi)
    obtain rfl : p = .ofChars cs := hcs
    rw [herror]
    exact .sign hi harc hsign (hunmarked.not_isMarker (symbol_mem_of_arc? harc))

/-- Alternatives without a marker are read as they are written. A text is refused for a line, with
its number, or for the start symbol; otherwise its grammar has an automaton, or is refused for a
production that is not right-linear. Besides, there may be no automaton for a terminal that is a
sign for the empty word but no marker of the settings, or for want of places. -/
theorem parse_toAutomaton_outcomes (hcheck : settings.check = .ok settings) (h : settings.Typed)
    (start text : String) :
    (∀ piece, Text.withoutBlanks piece ≠ [] → settings.Unmarked (Text.withoutBlanks piece) →
      Rule.parseAlternative settings piece = .ok (Text.withoutBlanks piece)) ∧
    ((∃ number line fault, parse settings start text = .error (.badLine number line fault) ∧
        (fault.kind = .missingArrow ∨ fault.kind = .malformed)) ∨
      parse settings start text =
        .error (.unknownStart (String.ofList (Text.trim start.toList))) ∨
      ∃ g, parse settings start text = .ok g ∧
        (∀ step ∈ g.steps, g.SpelledBy settings step.2) ∧
        g.Outcome settings (g.toAutomaton settings)) := by
  refine ⟨fun piece hne hpiece => Rule.parseAlternative_of_unmarked h hne hpiece, ?_⟩
  obtain ⟨arrows, harrows⟩ := h.arrows
  rcases parse_cases settings start text with
    ⟨number, line, fault, hfault, he⟩ | he | ⟨rules, hrules, hstart, hg⟩
  · refine .inl ⟨number, _, fault, he, ?_⟩
    exact (Rule.kind_of_parse_typed h harrows hfault).imp And.left And.left
  · exact .inr (.inl he)
  · have hlines := exists_line_of_parseRules hrules
    exact .inr (.inr ⟨_, hg, spelledBy_assembled _ h hlines,
      outcome_assembled hcheck h hlines hstart⟩)

def lambdaSettings : Settings where
  emptyMarkers := .each ["λ"]

lemma typed_lambdaSettings : lambdaSettings.Typed :=
  { Settings.typed_default with emptyMarkers := ⟨["λ"], rfl⟩ }

lemma parse_lambda {text : String} {rules : List Rule}
    (hrules : parseRules lambdaSettings text.toList = .ok rules)
    (hstart : "S" ∈ nonTerminalsOf rules) :
    parse lambdaSettings "S" text = .ok (assembled "S" rules) := by
  have htrim : String.ofList (Text.trim "S".toList) = "S" := by decide +kernel
  rw [parse_of_rules hrules, htrim, if_pos hstart]

lemma not_cramped_lambdaSettings (count : ℕ) (e : LayoutError) :
    ¬ lambdaSettings.Cramped count e := by
  intro h
  cases h with
  | @coordinates ns horigin hcount =>
    have hlength : [Json.num (.float 200), .num (.float 200)].length = (ns.map Json.num).length :=
      congrArg List.length (Json.arr.inj horigin)
    exact hcount (by simpa using hlength.symm)
  | tooLarge horigin hdistance _ hover =>
    obtain ⟨hx, -⟩ := List.cons.inj (Json.arr.inj horigin)
    obtain rfl := Json.num.inj hx
    obtain rfl := Json.num.inj hdistance
    exact Layout.not_overflows_float _ _ _ hover

def lambdaRules : List Rule :=
  [⟨"S", [['b', 'S'], []]⟩]

theorem parse_toAutomaton_outcomes_lambda :
    lambdaSettings.check = .ok lambdaSettings ∧ lambdaSettings.Typed ∧
      ∃ g M, parse lambdaSettings "S" "S -> bS | λ" = .ok g ∧
        g.toAutomaton lambdaSettings = .ok M ∧ MovedBy M g lambdaSettings := by
  have hcheck : lambdaSettings.check = .ok lambdaSettings := rfl
  have hrules : parseRules lambdaSettings "S -> bS | λ".toList = .ok lambdaRules := by
    decide +kernel
  have hg := parse_lambda hrules (by decide +kernel)
  have hstep {head : Name} {p : Production} (h : (head, p) ∈ (assembled "S" lambdaRules).steps) :
      p = .ofChars ['b', 'S'] := by
    have hsteps : (assembled "S" lambdaRules).steps = [(.text "S", .ofChars ['b', 'S'])] := rfl
    rw [hsteps] at h
    exact congrArg Prod.snd (List.mem_singleton.1 h)
  obtain ⟨-, ⟨_, _, _, he, _⟩ | he | ⟨g, hparse, -, houtcome⟩⟩ :=
    parse_toAutomaton_outcomes hcheck typed_lambdaSettings "S" "S -> bS | λ"
  · cases hg.symm.trans he
  · cases hg.symm.trans he
  refine ⟨hcheck, typed_lambdaSettings, g, ?_⟩
  obtain rfl := Except.ok.inj (hg.symm.trans hparse)
  generalize (assembled "S" lambdaRules).toAutomaton lambdaSettings = r at houtcome ⊢
  cases houtcome with
  | automaton hM => exact ⟨_, hparse, rfl, hM⟩
  | unsupported hmem hnone =>
    obtain rfl := hstep hmem
    cases hnone
  | sign hi harc hsign _ =>
    obtain rfl := hstep (List.mem_of_getElem? hi)
    obtain rfl := Option.some.inj harc
    exact absurd hsign (by decide)
  | cramped he => exact absurd he (not_cramped_lambdaSettings _ _)

theorem toAutomaton_unlisted_sign :
    lambdaSettings.check = .ok lambdaSettings ∧ lambdaSettings.Typed ∧
      ¬ lambdaSettings.IsMarker "ε" ∧
      ∃ g, parse lambdaSettings "S" "S -> ε" = .ok g ∧ g.terminals = ["ε"] ∧
        g.toAutomaton lambdaSettings = .error (.defect (.emptyWordSymbol "t0")) := by
  have hmarker : ¬ lambdaSettings.IsMarker "ε" := by
    have hwords : lambdaSettings.emptyMarkers = .each (["λ"].map Name.text) := rfl
    rw [Settings.isMarker_iff hwords]
    decide
  have hrules : parseRules lambdaSettings "S -> ε".toList = .ok [⟨"S", [['ε']]⟩] := by
    decide +kernel
  exact ⟨rfl, typed_lambdaSettings, hmarker, _, parse_lambda hrules (by decide +kernel), rfl, rfl⟩

end DfaWorkbench.Grammar
