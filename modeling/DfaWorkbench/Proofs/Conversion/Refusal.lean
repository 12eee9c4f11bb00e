import Mathlib.Tactic.Common
import DfaWorkbench.Proofs.Automaton.Worded
import DfaWorkbench.Proofs.Conversion.Diagnosis
import DfaWorkbench.Proofs.Conversion.Outcomes
import DfaWorkbench.Proofs.Grammar.RoundTrip

/-! Grammars that were read from texts. An automaton is only refused to them for a production that
is not right-linear; all names in it are texts, and its states stand at pairs of floats. -/

namespace DfaWorkbench.Grammar

variable {g : Grammar} {settings : Settings} {head : Name} {p : Production} {i : ℕ}
  {M : Automaton} {rules : List Rule} {start : String}

def Spelled (g : Grammar) : Prop :=
  ∀ step ∈ g.steps, ∃ cs : List Char, step.2 = .ofChars cs ∧ ∀ c ∈ cs, c ∉ emptyWordSigns

lemma toAutomaton_cases (h : g.WellNamed settings) (hspelled : g.Spelled)
    (hstart : g.isNonTerminal g.start.key = true) :
    (∃ M, g.toAutomaton settings = .ok M) ∨
      ∃ head p, (head, p) ∈ g.steps ∧ g.arc? p = none ∧
        g.toAutomaton settings = .error (.unsupported head p) := by
  have hchars : ∀ step ∈ g.steps, ∃ cs, step.2 = .ofChars cs :=
    fun step hstep => (hspelled step hstep).imp fun cs hcs => hcs.1
  rcases h.toAutomaton_cases hstart hchars with
    hM | ⟨e, he, _⟩ | herror | ⟨i, head, p, arc, hi, harc, hsymbol, _⟩
  · exact .inl hM
  · exact absurd he (h.not_misplaces e)
  · exact .inr herror
  · obtain ⟨cs, hcs, hsigns⟩ := hspelled _ (List.mem_of_getElem? hi)
    obtain rfl : p = .ofChars cs := hcs
    exact absurd hsymbol (hsigns _ (symbol_mem_of_arc? harc))

section Full

variable {A : Automaton} (h : g.fullAutomaton settings = .ok A)

include h

lemma id_eq_label {q : State} (hq : q ∈ A.states) : q.id = q.label := by
  obtain ⟨hstates, _⟩ := of_fullAutomaton_eq_ok h
  have ho : q.outline ∈ g.outlines settings := hstates ▸ List.mem_map_of_mem hq
  have houtlines : ∀ o ∈ g.outlines settings, o.1 = o.2.1 := by
    intro o ho
    rcases List.mem_append.1 ho with ho | ho
    · obtain ⟨head, _, rfl⟩ := List.mem_map.1 ho
      rfl
    · split at ho
      · rw [List.mem_singleton.1 ho]
      · cases ho
  exact houtlines q.outline ho

lemma id_of_mem_transitions {t : Transition} (ht : t ∈ A.transitions) : t.id.isText = true := by
  obtain ⟨_, hids, _⟩ := of_fullAutomaton_eq_ok h
  have hid : t.id ∈ A.transitions.map Transition.id := List.mem_map_of_mem ht
  rw [hids] at hid
  obtain ⟨i, _, hi⟩ := List.mem_map.1 hid
  rw [← hi]
  rfl

end Full

section Texts

variable (hheads : ∀ n ∈ g.nonTerminals, n.isText = true)
  (hterminals : ∀ a ∈ g.terminals, a.isText = true) (hsink : settings.sinkId.isText = true)

include hheads

lemma isText_of_isNonTerminal {n : Name} (hn : g.isNonTerminal n.key = true) :
    n.isText = true := by
  obtain ⟨head, hhead, hk⟩ := isNonTerminal_iff.1 hn
  obtain ⟨s, rfl⟩ := Name.exists_text (hheads head hhead)
  rw [Name.eq_text_of_key hk.symm]
  rfl

include hterminals hsink

lemma worded_fullAutomaton {A : Automaton} (h : g.fullAutomaton settings = .ok A) :
    A.Worded := by
  have hlabels : ∀ q ∈ A.states, q.label.isText = true := by
    intro q hq
    rcases label_of_mem_states h hq with hlabel | hlabel
    · exact hheads _ hlabel
    · rw [hlabel]
      exact isText_sinkId hsink
  refine ⟨fun q hq => id_eq_label h hq ▸ hlabels q hq, hlabels, fun t ht => ?_, fun a ha => ?_⟩
  · obtain ⟨⟨head, p⟩, hstep, arc, harc, hsource, -, htarget⟩ :=
      (describes_fullAutomaton h).isTransitionOf t ht
    refine ⟨id_of_mem_transitions h ht, hsource ▸ hheads _ (mem_steps.1 hstep).1, ?_⟩
    rw [htarget]
    cases arc with
    | stop a => exact isText_sinkId hsink
    | go a next => exact isText_of_isNonTerminal hheads (isNonTerminal_of_arc? harc)
  · obtain ⟨-, -, -, alphabet, hsorted, halphabet⟩ := of_fullAutomaton_eq_ok h
    rw [halphabet] at ha
    exact hterminals a ((Name.perm_of_sorted hsorted).mem_iff.1 (Sequence.mem_of_mem_unseen ha))

lemma worded_toAutomaton (hM : g.toAutomaton settings = .ok M) : M.Worded := by
  obtain ⟨A, hA, rfl⟩ := exists_full_of_toAutomaton hM
  have hw := worded_fullAutomaton hheads hterminals hsink hA
  refine ⟨fun q hq => ?_, fun q hq => ?_, fun t ht => ?_, hw.alphabet⟩
  · exact hw.ids q (Automaton.mem_states_restrict.1 hq).1
  · exact hw.labels q (Automaton.mem_states_restrict.1 hq).1
  · exact hw.transitions t (Automaton.mem_transitions_restrict.1 ht).1

end Texts

lemma slot_default {layout : Layout} (hl : Layout.ofSettings {} = .ok layout) {x : Json} :
    (layout.slot i = .ok x → ∃ f, x = .num (.float f)) ∧
      (layout.slotAfter i = .ok x → ∃ f, x = .num (.float f)) ∧ layout.y = .num (.float 200) := by
  obtain rfl := Except.ok.inj hl
  refine ⟨fun h => ?_, fun h => ?_, rfl⟩
  · exact ⟨200 + Float.ofInt i * 200, (Except.ok.inj h).symm⟩
  · exact ⟨200 + Float.ofInt i * 200 + 200 / 2, (Except.ok.inj h).symm⟩

lemma sinkState_of_mem {layout : Layout} {qs : List State} {q : State}
    (h : g.sinkStates settings layout = .ok qs) (hq : q ∈ qs) :
    g.sinkState settings layout = .ok q := by
  rw [sinkStates] at h
  split at h
  · cases hp : g.sinkState settings layout with
    | error e => simp [hp, Except.map] at h
    | ok p =>
      obtain rfl : [p] = qs := by simpa [hp, Except.map] using h
      rw [List.mem_singleton.1 hq]
  · rw [← Except.ok.inj h] at hq
    cases hq

lemma made_of_mem_states {A : Automaton} (h : g.fullAutomaton settings = .ok A) {q : State}
    (hq : q ∈ A.states) : ∃ layout, Layout.ofSettings settings = .ok layout ∧
      ((∃ head i, g.headState layout head i = .ok q) ∨ g.sinkState settings layout = .ok q) := by
  obtain ⟨layout, hlayout, h⟩ := Result.bind_eq_ok.1 h
  obtain ⟨heads, hheads, h⟩ := Result.bind_eq_ok.1 h
  obtain ⟨_, _, h⟩ := Result.bind_eq_ok.1 h
  obtain ⟨ts, _, h⟩ := Result.bind_eq_ok.1 h
  obtain ⟨sink, hsink, h⟩ := Result.bind_eq_ok.1 h
  obtain ⟨alphabet, _, h⟩ := Result.bind_eq_ok.1 h
  obtain ⟨hstates, _⟩ := Automaton.of_make_eq_ok (Result.mapError_eq_ok.1 h)
  refine ⟨layout, Result.mapError_eq_ok.1 hlayout, ?_⟩
  rcases List.mem_append.1 (hstates ▸ hq) with hq | hq
  · obtain ⟨⟨head, i⟩, _, hhead⟩ := (Result.mapM_eq_ok hheads).2 q hq
    exact .inl ⟨head, i, hhead⟩
  · exact .inr (sinkState_of_mem hsink hq)

lemma places_fullAutomaton {A : Automaton} (h : g.fullAutomaton {} = .ok A) :
    ∀ q ∈ A.states, ∃ x y, q.position = [.num (.float x), .num (.float y)] := by
  intro q hq
  obtain ⟨layout, hdefault, ⟨head, i, hhead⟩ | hsink⟩ := made_of_mem_states h hq
  · obtain ⟨_, _, hhead⟩ := Result.bind_eq_ok.1 hhead
    obtain ⟨x, hx, hq⟩ := Result.bind_eq_ok.1 hhead
    obtain ⟨hslot, -, hy⟩ := slot_default hdefault
    obtain ⟨f, rfl⟩ := hslot (Result.mapError_eq_ok.1 hx)
    exact ⟨f, _, by
      rw [(State.of_make_eq_ok (Result.mapError_eq_ok.1 hq)).2.2.2, hy]⟩
  · obtain ⟨x, hx, hq⟩ := Result.bind_eq_ok.1 hsink
    obtain ⟨-, hslotAfter, hy⟩ := slot_default hdefault (i := g.nonTerminals.length)
    obtain ⟨f, rfl⟩ := hslotAfter (Result.mapError_eq_ok.1 hx)
    exact ⟨f, _, by
      rw [(State.of_make_eq_ok (Result.mapError_eq_ok.1 hq)).2.2.2, hy]⟩

lemma places_toAutomaton (hM : g.toAutomaton {} = .ok M) :
    ∀ q ∈ M.states, ∃ x y, q.position = [.num (.float x), .num (.float y)] := by
  obtain ⟨A, hA, rfl⟩ := exists_full_of_toAutomaton hM
  exact fun q hq => places_fullAutomaton hA q (Automaton.mem_states_restrict.1 hq).1

lemma exists_entry_of_mem_productionsFor {k : Key} (hp : p ∈ g.productionsFor k) :
    ∃ entry ∈ g.productions, p ∈ entry.2 := by
  rw [productionsFor] at hp
  cases hf : g.productions.find? (·.1.key = k) with
  | none => simp [hf] at hp
  | some entry => exact ⟨entry, List.mem_of_find?_eq_some hf, by simpa [hf] using hp⟩

lemma ne_of_mem_nonTerminalsOf (hheads : ∀ r ∈ rules, r.head ≠ "") {s : String}
    (hs : s ∈ nonTerminalsOf rules) : s ≠ "" := by
  rintro rfl
  rcases mem_nonTerminalsOf.1 hs with ⟨r, hr, hhead⟩ | ⟨c, _, _, hc⟩
  · exact hheads r hr hhead
  · have hlength := congrArg String.length hc
    simp at hlength

lemma named_assembled (hheads : ∀ r ∈ rules, r.head ≠ "") (hatom : settings.sinkId.isAtom = true)
    (hne : settings.sinkId.isEmpty = false) : (assembled start rules).Named settings where
  heads_atoms := by simp [assembled]
  heads_ne := by
    intro head hhead
    obtain ⟨s, hs, rfl⟩ := List.mem_map.1 hhead
    exact Name.isEmpty_text (ne_of_mem_nonTerminalsOf hheads hs)
  heads_nodup := by
    have hkey : Name.key ∘ Name.text = Key.text := rfl
    rw [assembled, List.map_map, hkey]
    exact (nodup_nonTerminalsOf rules).map fun _ _ h => Key.text.inj h
  sink_atom := hatom
  sink_ne := hne
  terminals_texts := by
    intro a ha
    obtain ⟨c, _, rfl⟩ := List.mem_map.1 ha
    rfl

lemma start_assembled (hstart : start ∈ nonTerminalsOf rules) :
    (assembled start rules).isNonTerminal (assembled start rules).start.key = true :=
  isNonTerminal_iff.2 ⟨_, List.mem_map_of_mem hstart, rfl⟩

lemma exists_alternative_of_mem_steps (hstep : (head, p) ∈ (assembled start rules).steps) :
    ∃ r ∈ rules, ∃ cs ∈ r.alternatives, cs ≠ [] ∧ p = .ofChars cs := by
  obtain ⟨-, hp, hne⟩ := mem_steps.1 hstep
  obtain ⟨entry, hentry, hp⟩ := exists_entry_of_mem_productionsFor hp
  rw [productions_assembled] at hentry
  obtain ⟨r, hr, rfl⟩ := List.mem_map.1 hentry
  obtain ⟨cs, hcs, rfl⟩ := List.mem_map.1 hp
  obtain ⟨s, hs, _, hcs⟩ := (mem_alternatives_merged hr).1 hcs
  refine ⟨s, hs, cs, hcs, ?_, rfl⟩
  rintro rfl
  cases hne

section Rules

variable (hreadable : ∀ r ∈ rules, r.Readable)

include hreadable

lemma wellNamed_assembled : (assembled start rules).WellNamed {} where
  toNamed := named_assembled (fun r hr he => (hreadable r hr).head_ne (by rw [he]; rfl)) rfl rfl
  layout := Layout.fits_default

lemma spelled_assembled : (assembled start rules).Spelled := by
  rintro ⟨head, p⟩ hstep
  obtain ⟨r, hr, cs, hcs, _, rfl⟩ := exists_alternative_of_mem_steps hstep
  refine ⟨cs, rfl, fun c hc => ?_⟩
  obtain ⟨-, -, hepsilon, hcaret⟩ := (hreadable r hr).symbols cs hcs c hc
  simp [emptyWordSigns, hepsilon, hcaret]

end Rules

theorem toAutomaton_of_parse {text : String} (h : parse {} start text = .ok g) :
    (∃ M, g.toAutomaton {} = .ok M ∧ M.Worded ∧
      (∀ q ∈ M.states, ∃ x y, q.position = [.num (.float x), .num (.float y)]) ∧
      ∃ q, M.startStates = [q] ∧ q.id = .text (String.ofList (Text.trim start.toList))) ∨
    ∃ head p, (head, p) ∈ g.steps ∧ g.arc? p = none ∧
      g.toAutomaton {} = .error (.unsupported head p) := by
  obtain ⟨rules, hreadable, hstart, rfl⟩ := exists_rules_of_parse h
  generalize String.ofList (Text.trim start.toList) = s at hstart ⊢
  have hnamed : (assembled s rules).WellNamed {} := wellNamed_assembled hreadable
  have hnonTerminal := start_assembled hstart
  rcases toAutomaton_cases hnamed (spelled_assembled hreadable) hnonTerminal with
    ⟨M, hM⟩ | herror
  · refine .inl ⟨M, hM, worded_toAutomaton ?_ hnamed.terminals_texts rfl hM,
      places_toAutomaton hM, ?_⟩
    · intro n hn
      obtain ⟨s, _, rfl⟩ := List.mem_map.1 hn
      rfl
    · obtain ⟨A, hA, rfl⟩ := of_toAutomaton_eq_ok hM
      obtain ⟨q, hq, hk⟩ := hA.startState?_restrict hnonTerminal (hA.start_reachable hnonTerminal)
      exact ⟨q, Automaton.startStates_of_startState? hq, Name.eq_text_of_key hk⟩
  · exact .inr herror

end DfaWorkbench.Grammar
