import DfaWorkbench.Proofs.Conversion.ToAutomaton

/-! Right-linear grammars over texts have an automaton. -/

namespace DfaWorkbench

variable {g : Grammar} {settings : Settings} {layout : Layout} {head : Name} {p : Production}
  {arc : Arc} {i : ℕ}

namespace Layout

structure Fits (layout : Layout) : Prop where
  slot : ∀ i, ∃ x, layout.slot i = .ok x
  slotAfter : ∀ i, ∃ x, layout.slotAfter i = .ok x

lemma fits_default : ∃ layout, ofSettings {} = .ok layout ∧ layout.Fits := by
  refine ⟨_, rfl, fun i => ⟨.num (.float (200 + Float.ofInt i * 200)), rfl⟩, fun i => ?_⟩
  exact ⟨.num (.float (200 + Float.ofInt i * 200 + 200 / 2)), rfl⟩

end Layout

namespace Grammar

structure Named (g : Grammar) (settings : Settings) : Prop where
  heads_atoms : ∀ head ∈ g.nonTerminals, head.isAtom = true
  heads_ne : ∀ head ∈ g.nonTerminals, head.isEmpty = false
  heads_nodup : (g.nonTerminals.map Name.key).Nodup
  sink_atom : settings.sinkId.isAtom = true
  sink_ne : settings.sinkId.isEmpty = false
  terminals_texts : ∀ a ∈ g.terminals, a.isText = true

structure WellNamed (g : Grammar) (settings : Settings) : Prop extends Named g settings where
  layout : ∃ layout, Layout.ofSettings settings = .ok layout ∧ layout.Fits

structure Convertible (g : Grammar) (settings : Settings) : Prop extends
    WellNamed g settings where
  arcs : ∀ step ∈ g.steps, ∃ arc, g.arc? step.2 = some arc ∧ arc.symbol ∉ emptyWordSigns

def Misplaces (g : Grammar) (settings : Settings) (e : LayoutError) : Prop :=
  Layout.ofSettings settings = .error e ∨
    ∃ layout, Layout.ofSettings settings = .ok layout ∧
      ((∃ i < g.nonTerminals.length, layout.slot i = .error e) ∨
        layout.slotAfter g.nonTerminals.length = .error e)

lemma sinkName_atom {base : Name} (h : base.isAtom = true) (n : ℕ) :
    (sinkName base n).isAtom = true := by
  rw [sinkName]
  split
  · exact h
  · exact Name.isAtom_text _

lemma sinkName_ne {base : Name} (h : base.isEmpty = false) (n : ℕ) :
    (sinkName base n).isEmpty = false := by
  rw [sinkName]
  split
  · exact h
  · exact Name.isEmpty_text (by simp)

lemma measured_texts (ha : g.arc? p = some arc) : (g.measured p).all Name.isText = true := by
  obtain rfl := production_of_arc? ha
  have hfirst : (g.lookedUp arc.production).take 1 = [Name.ofChar arc.symbol] := by
    cases arc with
    | stop a => rfl
    | go a next =>
      simp only [lookedUp, Arc.production]
      split <;> rfl
  rw [measured, hfirst, List.all_eq_true]
  intro n hn
  obtain rfl := List.mem_singleton.1 (List.mem_filter.1 hn).1
  rfl

namespace Named

variable (h : g.Named settings)

include h

lemma exists_headState {x : Json} (hhead : head ∈ g.nonTerminals)
    (hx : layout.slot i = .ok x) : ∃ q, g.headState layout head i = .ok q := by
  have hkey := Name.atomKey_eq_ok (h.heads_atoms head hhead)
  obtain ⟨q, hq⟩ := State.exists_make (h.heads_ne head hhead)
  exact ⟨q, Result.bind_eq_ok.2 ⟨head.key, Result.mapError_eq_ok.2 hkey,
    Result.bind_eq_ok.2 ⟨x, Result.mapError_eq_ok.2 hx,
      Result.mapError_eq_ok.2 hq⟩⟩⟩

lemma exists_sinkState {x : Json} (hx : layout.slotAfter g.nonTerminals.length = .ok x) :
    ∃ q, g.sinkState settings layout = .ok q := by
  obtain ⟨q, hq⟩ := State.exists_make (sinkName_ne h.sink_ne _)
  exact ⟨q, Result.bind_eq_ok.2 ⟨x, Result.mapError_eq_ok.2 hx,
    Result.mapError_eq_ok.2 hq⟩⟩

lemma isAtom_of_isNonTerminal {n : Name} (hn : g.isNonTerminal n.key = true) :
    n.isAtom = true := by
  obtain ⟨head, hhead, hk⟩ := isNonTerminal_iff.1 hn
  exact Name.isAtom_of_key_eq hk (h.heads_atoms head hhead)

lemma lookedUp_atoms (ha : g.arc? p = some arc) : (g.lookedUp p).all Name.isAtom = true := by
  obtain rfl := production_of_arc? ha
  cases arc with
  | stop a => rfl
  | go a next =>
    have hnext := h.isAtom_of_isNonTerminal (isNonTerminal_of_arc? ha)
    simp only [lookedUp, Arc.production]
    split
    · simp [Name.ofChar, hnext]
    · rfl

lemma arc_eq_ok (ha : g.arc? p = some arc) : g.arc head p = .ok arc := by
  have hatoms : (g.terminals ++ g.lookedUp p).all Name.isAtom = true := by
    rw [List.all_append, h.lookedUp_atoms ha, Bool.and_true, List.all_eq_true]
    exact fun n hn => Name.isAtom_of_isText (h.terminals_texts n hn)
  rw [Grammar.arc, Name.requireAtoms, if_pos hatoms, Name.requireTexts,
    if_pos (measured_texts ha), ha]
  rfl

lemma exists_stepTransition (ha : g.arc? p = some arc)
    (hsymbol : arc.symbol ∉ emptyWordSigns) :
    ∃ t, g.stepTransition settings head p i = .ok t := by
  obtain ⟨t, ht⟩ : ∃ t, Transition.ofChar _ head (arc.target (g.sinkId settings)) _ = .ok t :=
    Transition.exists_ofChar (Automaton.transitionName_ne i) hsymbol
  refine ⟨t, Result.bind_eq_ok.2 ⟨arc, h.arc_eq_ok ha, ?_⟩⟩
  cases arc with
  | stop a => exact Result.mapError_eq_ok.2 ht
  | go a next => exact Result.mapError_eq_ok.2 ht

lemma exists_sorted : ∃ alphabet, Name.sorted g.terminals = .ok alphabet ∧
    ∀ a ∈ alphabet, a.isAtom = true := by
  have hall : g.terminals.all Name.isText = true := List.all_eq_true.2 h.terminals_texts
  refine ⟨_, by rw [Name.sorted, if_pos (by simp [hall])], fun a ha => ?_⟩
  exact Name.isAtom_of_isText (h.terminals_texts a ((List.mergeSort_perm _ _).mem_iff.1 ha))

lemma nodup_keys_outlines : ((g.outlines settings).map fun o => o.1.key).Nodup := by
  have hheads : (g.nonTerminals.map g.headOutline).map (fun o => o.1.key) =
      g.nonTerminals.map Name.key := by
    rw [List.map_map]
    rfl
  rw [outlines, List.map_append, hheads]
  split
  · rw [List.map_singleton, ← List.concat_eq_append]
    refine h.heads_nodup.concat fun hmem => ?_
    exact key_ne_sinkId (isNonTerminal_iff.2 (List.mem_map.1 hmem)) rfl
  · simpa using h.heads_nodup

lemma outlines_atoms : ∀ o ∈ g.outlines settings, o.1.isAtom = true := by
  intro o ho
  rcases List.mem_append.1 ho with ho | ho
  · obtain ⟨head, hhead, rfl⟩ := List.mem_map.1 ho
    exact h.heads_atoms head hhead
  · split at ho
    · obtain rfl := List.mem_singleton.1 ho
      exact sinkName_atom h.sink_atom _
    · cases ho

lemma requireAtoms_sink : Name.requireAtoms [settings.sinkId] = .ok () := by
  simp [Name.requireAtoms, h.sink_atom]

lemma exists_fullAutomaton {heads sink : List State} {ts : List Transition}
    (hlayout : Layout.ofSettings settings = .ok layout)
    (hheads : (g.nonTerminals.zipIdx.mapM fun (head, i) => g.headState layout head i) = .ok heads)
    (hts : (g.steps.zipIdx.mapM fun ((head, p), i) => g.stepTransition settings head p i) = .ok ts)
    (hsink : g.sinkStates settings layout = .ok sink) :
    ∃ A, g.fullAutomaton settings = .ok A := by
  obtain ⟨alphabet, halphabet, hatoms⟩ := h.exists_sorted
  have houtlines : (heads ++ sink).map State.outline = g.outlines settings := by
    rw [List.map_append, outlines_of_headStates hheads, outlines_of_sinkStates hsink, outlines]
  obtain ⟨A, hA⟩ : ∃ A, Automaton.make (heads ++ sink) ts alphabet = .ok A := by
    refine Automaton.exists_make ?_ (fun q hq => ?_) hatoms
    · have hkeys := h.nodup_keys_outlines
      rwa [← houtlines, List.map_map] at hkeys
    · exact h.outlines_atoms q.outline (houtlines ▸ List.mem_map_of_mem hq)
  exact ⟨A, Result.bind_eq_ok.2 ⟨layout, Result.mapError_eq_ok.2 hlayout,
    Result.bind_eq_ok.2 ⟨heads, hheads,
    Result.bind_eq_ok.2 ⟨(), Result.mapError_eq_ok.2 h.requireAtoms_sink,
    Result.bind_eq_ok.2 ⟨ts, hts,
    Result.bind_eq_ok.2 ⟨sink, hsink,
    Result.bind_eq_ok.2 ⟨alphabet, Result.mapError_eq_ok.2 halphabet,
      Result.mapError_eq_ok.2 hA⟩⟩⟩⟩⟩⟩⟩

lemma headState_eq_error {e : ConversionError} (hhead : head ∈ g.nonTerminals)
    (he : g.headState layout head i = .error e) :
    ∃ e', layout.slot i = .error e' ∧ e = .layout e' := by
  cases hx : layout.slot i with
  | ok x =>
    obtain ⟨q, hq⟩ := h.exists_headState hhead hx
    cases hq.symm.trans he
  | error e' =>
    rw [headState, Name.atomKey_eq_ok (h.heads_atoms head hhead), hx] at he
    exact ⟨e', rfl, (Except.error.inj he).symm⟩

lemma sinkStates_eq_error {e : ConversionError} (he : g.sinkStates settings layout = .error e) :
    ∃ e', layout.slotAfter g.nonTerminals.length = .error e' ∧ e = .layout e' := by
  rw [sinkStates] at he
  split at he
  · cases hx : layout.slotAfter g.nonTerminals.length with
    | ok x =>
      obtain ⟨q, hq⟩ := h.exists_sinkState hx
      rw [hq] at he
      cases he
    | error e' =>
      rw [sinkState, hx] at he
      exact ⟨e', rfl, (Except.error.inj he).symm⟩
  · cases he

theorem fullAutomaton_cases :
    (∃ A, g.fullAutomaton settings = .ok A) ∨
      (∃ e, g.Misplaces settings e ∧ g.fullAutomaton settings = .error (.layout e)) ∨
      ∃ i head p e, g.steps[i]? = some (head, p) ∧
        g.stepTransition settings head p i = .error e ∧ g.fullAutomaton settings = .error e := by
  cases hf : g.fullAutomaton settings with
  | ok A => exact .inl ⟨A, rfl⟩
  | error e =>
    right
    rcases Result.bind_eq_error.1 hf with he | ⟨layout, hlayout, hrest⟩
    · obtain ⟨e', he', rfl⟩ := Result.mapError_eq_error.1 he
      exact .inl ⟨e', .inl he', rfl⟩
    have hlayout := Result.mapError_eq_ok.1 hlayout
    rcases Result.bind_eq_error.1 hrest with he | ⟨heads, hheads, hrest⟩
    · obtain ⟨⟨head, i⟩, hi, he⟩ := Result.mapM_eq_error he
      obtain ⟨e', he', rfl⟩ := h.headState_eq_error (List.fst_mem_of_mem_zipIdx hi) he
      have hlt : i < g.nonTerminals.length := by simpa using List.snd_lt_of_mem_zipIdx hi
      exact .inl ⟨e', .inr ⟨layout, hlayout, .inl ⟨i, hlt, he'⟩⟩, rfl⟩
    rcases Result.bind_eq_error.1 hrest with he | ⟨_, _, hrest⟩
    · rw [h.requireAtoms_sink] at he
      cases he
    rcases Result.bind_eq_error.1 hrest with he | ⟨ts, hts, hrest⟩
    · obtain ⟨⟨⟨head, p⟩, i⟩, hi, he⟩ := Result.mapM_eq_error he
      exact .inr ⟨i, head, p, e, List.mk_mem_zipIdx_iff_getElem?.1 hi, he, rfl⟩
    rcases Result.bind_eq_error.1 hrest with he | ⟨sink, hsink, _⟩
    · obtain ⟨e', he', rfl⟩ := h.sinkStates_eq_error he
      exact .inl ⟨e', .inr ⟨layout, hlayout, .inr he'⟩, rfl⟩
    · obtain ⟨A, hA⟩ := h.exists_fullAutomaton hlayout hheads hts hsink
      cases hA.symm.trans hf

lemma toAutomaton_eq_ok {A : Automaton} (hA : g.fullAutomaton settings = .ok A)
    (hstart : g.isNonTerminal g.start.key = true) :
    g.toAutomaton settings = .ok (A.restrict (A.reachableFrom g.start.key)) := by
  have hkey := Name.atomKey_eq_ok (h.isAtom_of_isNonTerminal hstart)
  refine Result.bind_eq_ok.2 ⟨A, hA, Result.bind_eq_ok.2
    ⟨g.start.key, Result.mapError_eq_ok.2 hkey, ?_⟩⟩
  have hmem := (describes_fullAutomaton hA).start_reachable hstart
  split
  · next he => simp [he] at hmem
  · rfl

end Named

lemma WellNamed.not_misplaces (h : g.WellNamed settings) (e : LayoutError) :
    ¬ g.Misplaces settings e := by
  obtain ⟨layout, hlayout, hfits⟩ := h.layout
  rintro (he | ⟨layout', hlayout', ⟨i, _, he⟩ | he⟩)
  · cases hlayout.symm.trans he
  all_goals obtain rfl := Except.ok.inj (hlayout.symm.trans hlayout')
  · obtain ⟨x, hx⟩ := hfits.slot i
    cases hx.symm.trans he
  · obtain ⟨x, hx⟩ := hfits.slotAfter g.nonTerminals.length
    cases hx.symm.trans he

namespace Convertible

variable (h : g.Convertible settings)

include h

lemma exists_toAutomaton (hstart : g.isNonTerminal g.start.key = true) :
    ∃ A, g.fullAutomaton settings = .ok A ∧
      g.toAutomaton settings = .ok (A.restrict (A.reachableFrom g.start.key)) := by
  rcases h.fullAutomaton_cases with ⟨A, hA⟩ | ⟨e, he, _⟩ | ⟨i, head, p, e, hi, he, _⟩
  · exact ⟨A, hA, h.toAutomaton_eq_ok hA hstart⟩
  · exact absurd he (h.not_misplaces e)
  · obtain ⟨arc, harc, hsymbol⟩ := h.arcs _ (List.mem_of_getElem? hi)
    obtain ⟨t, ht⟩ := h.exists_stepTransition harc hsymbol
    cases ht.symm.trans he

end Convertible

end Grammar

end DfaWorkbench
