import DfaWorkbench.Proofs.Automaton.Edit

/-! Edits without their checks. A draft is what an automaton is before anything has been checked,
and an edit is refused exactly if what it would make of a draft is no automaton. -/

namespace DfaWorkbench

structure State.Draft.Makes (d : State.Draft) (q : State) : Prop where
  id : q.id = d.id
  label : q.label = if d.label.isEmpty then d.id else d.label
  type : StateType.resolve d.type = .ok q.type
  position : d.position.entries = .ok q.position

lemma State.Draft.build_eq_ok_iff {d : State.Draft} {q : State} :
    d.build = .ok q ↔ d.Makes q := by
  constructor
  · intro h
    rw [build] at h
    split at h
    · cases h
    · obtain ⟨type, htype, h⟩ := Result.bind_eq_ok.1 h
      obtain ⟨position, hposition, h⟩ := Result.bind_eq_ok.1 h
      obtain ⟨hid, hlabel, rfl, rfl⟩ := State.make_eq_ok_iff.1 (Result.mapError_eq_ok.1 h)
      exact ⟨hid, hlabel, Result.mapError_eq_ok.1 htype, hposition⟩
  · intro h
    rw [build, if_neg (by simp [← h.id, q.id_ne])]
    exact Result.bind_eq_ok.2 ⟨q.type, Result.mapError_eq_ok.2 h.type,
      Result.bind_eq_ok.2 ⟨q.position, h.position, Result.mapError_eq_ok.2
        (State.make_eq_ok_iff.2 ⟨h.id, h.label, rfl, rfl⟩)⟩⟩

lemma State.makes_draft (q : State) : q.draft.Makes q where
  id := rfl
  label := (if_neg (by simp [draft, q.label_ne])).symm
  type := StateType.resolve_name q.type
  position := rfl

lemma Transition.Draft.build_eq_ok_iff {d : Transition.Draft} {t : Transition} :
    d.build = .ok t ↔ t.draft = d := by
  constructor
  · intro h
    obtain ⟨hid, hsource, htarget, hsymbol⟩ := Transition.of_make_eq_ok h
    rw [Transition.draft, hid, hsource, htarget, ← hsymbol]
  · rintro rfl
    exact t.make_parts

lemma State.makes_draft_iff {p q : State} : p.draft.Makes q ↔ q = p := by
  constructor
  · intro h
    have hlabel := h.label.trans (if_neg (by simp [draft, p.label_ne]))
    have htype : StateType.resolve (.str p.type.name) = .ok q.type := h.type
    rw [StateType.resolve_name] at htype
    exact eq_of_parts h.id hlabel (Except.ok.inj htype).symm (Except.ok.inj h.position).symm
  · rintro rfl
    exact q.makes_draft

lemma State.ofFields_eq_ok_iff {fs : List (String × Json)} {q : State} : State.ofFields fs = .ok q ↔
    ∃ d, State.Draft.assignAll { id := "" } fs = .ok d ∧ (Json.field? fs "id").isSome ∧
      d.Makes q := by
  rw [ofFields, Result.bind_eq_ok]
  refine exists_congr fun d => and_congr_right fun _ => ?_
  cases Json.field? fs "id" with
  | none => simp
  | some v => simp [State.Draft.build_eq_ok_iff]

lemma State.revise_eq_ok_iff {s q : State} {changes : List (String × Json)} :
    s.revise changes = .ok q ↔ ∃ d, s.draft.assignAll changes = .ok d ∧ d.Makes q := by
  simp only [revise, Result.bind_eq_ok, State.Draft.build_eq_ok_iff]

lemma Transition.revise_eq_ok_iff {t u : Transition} {changes : List (String × Json)} :
    t.revise changes = .ok u ↔
      ∃ d, changes.foldlM (fun d f => d.assign f.1 f.2) t.draft = .ok d ∧ u.draft = d := by
  simp only [revise, Result.bind_eq_ok, Result.mapError_eq_ok,
    Transition.Draft.build_eq_ok_iff]

lemma Transition.draft_injective : Function.Injective Transition.draft := by
  intro t u h
  have hbuild := Transition.Draft.build_eq_ok_iff.2 h
  rw [Transition.Draft.build_eq_ok_iff.2 rfl] at hbuild
  exact (Except.ok.inj hbuild).symm

namespace Automaton

structure Draft where
  states : List State.Draft
  transitions : List Transition.Draft
  alphabet : List Name

def draft (A : Automaton) : Draft :=
  ⟨A.states.map State.draft, A.transitions.map Transition.draft, A.alphabet⟩

def freshDrafts (source target : Name) (taken : List Key) (count : ℕ) :
    List Json → List Transition.Draft
  | [] => []
  | symbol :: symbols =>
    let n := Sequence.firstFree transitionKey taken count
    ⟨transitionName n, source, target, symbol⟩ ::
      freshDrafts source target (transitionKey n :: taken) n symbols

namespace Draft

structure Sound (D : Draft) : Prop where
  ids : ∀ d ∈ D.states, d.id.isEmpty = false ∧ d.id.isAtom = true
  ids_nodup : (D.states.map (·.id.key)).Nodup
  types : ∀ d ∈ D.states, ∃ type, StateType.resolve d.type = .ok type
  positions : ∀ d ∈ D.states, ∃ xs, d.position.entries = .ok xs
  transitions : ∀ d ∈ D.transitions, d.id.isEmpty = false ∧
    ∃ a, a ∉ emptyWordSigns ∧ d.symbol = .str (String.singleton a)
  alphabet : ∀ a ∈ D.alphabet, a.isAtom = true

structure Makes (D : Draft) (A : Automaton) : Prop where
  states : List.Forall₂ State.Draft.Makes D.states A.states
  transitions : A.transitions.map Transition.draft = D.transitions
  alphabet : A.alphabet = Sequence.distinct Name.key D.alphabet

/-- What an edit makes of a draft if none of the conditions is looked at. What is entered has to be
an edit all the same. -/
def edited (D : Draft) : Edit → Except EntryError Draft
  | .addState fields => do
    let fs ← fields.entryFields
    let d ← State.Draft.assignAll { id := "" } fs
    match Json.field? fs "id" with
    | some _ => return { D with states := D.states ++ [d] }
    | none => throw (.required "id")
  | .updateState id changes => do
    let changes ← changes.freeFields Edit.stateNames
    let key ← id.atomKey.mapError .unfitName
    if D.states.any (·.id.key = key) then
      let states ← D.states.mapM fun d => if d.id.key = key then d.assignAll changes else .ok d
      return { D with states }
    else throw (.missing id.value)
  | .removeState id => .ok { D with
      states := D.states.filter (·.id.key ≠ id.key)
      transitions := D.transitions.filter fun d =>
        d.source.key ≠ id.key ∧ d.target.key ≠ id.key }
  | .addTransitions source target symbols => do
    (Name.requireAtoms (D.transitions.map (·.id))).mapError .unfitName
    let symbols ← symbols.entries
    return { D with
      transitions := D.transitions ++
        freshDrafts source target (D.transitions.map (·.id.key)) 0 symbols
      alphabet := D.alphabet ++ symbols.map .of }
  | .updateTransition id changes => do
    let changes ← changes.freeFields Edit.transitionNames
    if D.transitions.any (·.id.key = id.key) then
      let transitions ← D.transitions.mapM fun d =>
        if d.id.key = id.key then changes.foldlM (fun d f => d.assign f.1 f.2) d else .ok d
      return { D with transitions }
    else throw (.missing id.value)
  | .removeTransition id => .ok { D with
      transitions := D.transitions.filter (·.id.key ≠ id.key) }
  | .withAlphabet symbols => do return { D with alphabet := ← symbols.names }

end Draft

variable {A B : Automaton} {D : Draft}

lemma isAtom_of_distinct {alphabet : List Name}
    (h : A.alphabet = Sequence.distinct Name.key alphabet) : ∀ a ∈ alphabet, a.isAtom = true := by
  intro a ha
  have hk := Sequence.mem_keys_distinct.2 (List.mem_map_of_mem (f := Name.key) ha)
  obtain ⟨b, hb, hk⟩ := List.mem_map.1 (h ▸ hk)
  rw [← Name.isAtom_key, ← hk, Name.isAtom_key]
  exact A.alphabet_atoms b hb

lemma make_eq_ok_iff {qs : List State} {ts : List Transition} {alphabet : List Name} :
    make qs ts alphabet = .ok B ↔ B.states = qs ∧ B.transitions = ts ∧
      B.alphabet = Sequence.distinct Name.key alphabet := by
  refine ⟨of_make_eq_ok, ?_⟩
  rintro ⟨rfl, rfl, halphabet⟩
  obtain ⟨C, hC⟩ : ∃ C, make B.states B.transitions alphabet = .ok C :=
    exists_make B.keys_nodup B.ids_atoms (isAtom_of_distinct halphabet)
  obtain ⟨hstates, htransitions, halphabet'⟩ := of_make_eq_ok hC
  rw [hC, eq_of_parts hstates htransitions (halphabet'.trans halphabet.symm)]

lemma makes_states_iff {ps qs : List State} :
    List.Forall₂ State.Draft.Makes (ps.map State.draft) qs ↔ qs = ps := by
  have hmakes : (fun p => State.Draft.Makes p.draft) = fun p q : State => q = p := by
    funext p q
    exact propext State.makes_draft_iff
  rw [List.forall₂_map_left_iff, hmakes]
  constructor
  · intro h
    exact List.forall₂_eq_eq_eq ▸ h.flip
  · rintro rfl
    exact List.forall₂_same.2 fun _ _ => rfl

lemma keys_of_makes {ds : List State.Draft} {qs : List State}
    (h : List.Forall₂ State.Draft.Makes ds qs) : ds.map (·.id.key) = qs.map State.key :=
  Sequence.map_eq_of_forall₂ (fun _ _ hdq => (congrArg Name.key hdq.id).symm) h

lemma makes_transitions_iff {ds : List Transition.Draft} {ts : List Transition} :
    List.Forall₂ (fun d t => t.draft = d) ds ts ↔ ts.map Transition.draft = ds := by
  rw [← List.forall₂_eq_eq_eq, List.forall₂_map_left_iff]
  exact ⟨List.Forall₂.flip, List.Forall₂.flip⟩

lemma draft_transitions_iff {ts us : List Transition} :
    ts.map Transition.draft = us.map Transition.draft ↔ ts = us :=
  Transition.draft_injective.list_map.eq_iff

lemma distinct_alphabet (A : Automaton) : Sequence.distinct Name.key A.alphabet = A.alphabet :=
  Sequence.distinct_of_nodup A.alphabet_nodup

lemma makes_draft_iff : A.draft.Makes B ↔ B = A := by
  constructor
  · intro h
    exact eq_of_parts (makes_states_iff.1 h.states) (draft_transitions_iff.1 h.transitions)
      (h.alphabet.trans A.distinct_alphabet)
  · rintro rfl
    exact ⟨makes_states_iff.2 rfl, rfl, B.distinct_alphabet.symm⟩

lemma draft_removeState (A : Automaton) (id : Name) :
    A.draft.edited (.removeState id) = .ok (A.removeState id.key).draft := by
  simp only [Draft.edited, draft, removeState, List.filter_map]
  rfl

lemma draft_removeTransition (A : Automaton) (id : Name) :
    A.draft.edited (.removeTransition id) = .ok (A.removeTransition id.key).draft := by
  simp only [Draft.edited, draft, removeTransition, List.filter_map]
  rfl

lemma freshTransitions_eq_ok_iff {source target : Name} {taken : List Key} {n : ℕ}
    {symbols : List Json} {new : List Transition} :
    freshTransitions source target taken n symbols = .ok new ↔
      new.map Transition.draft = freshDrafts source target taken n symbols := by
  induction symbols generalizing taken n new with
  | nil => simp [freshTransitions, freshDrafts, eq_comm]
  | cons symbol symbols ih =>
    rw [freshTransitions, freshDrafts, List.map_eq_cons_iff, Result.bind_eq_ok]
    constructor
    · rintro ⟨t, ht, h⟩
      obtain ⟨ts, hts, h⟩ := Result.bind_eq_ok.1 h
      exact ⟨t, ts, (Except.ok.inj h).symm, Transition.Draft.build_eq_ok_iff.1 ht, ih.1 hts⟩
    · rintro ⟨t, ts, rfl, ht, hts⟩
      exact ⟨t, Transition.Draft.build_eq_ok_iff.2 ht, Result.bind_eq_ok.2 ⟨ts, ih.2 hts, rfl⟩⟩

lemma addState_eq_ok_iff {q : State} : A.addState q = .ok B ↔
    B.states = A.states ++ [q] ∧ B.transitions = A.transitions ∧ B.alphabet = A.alphabet := by
  rw [addState, make_eq_ok_iff, A.distinct_alphabet]

lemma apply_addState_iff {fields : Json} : A.apply (.addState fields) = .ok B ↔
    ∃ D, A.draft.edited (.addState fields) = .ok D ∧ D.Makes B := by
  simp only [apply, Draft.edited, Result.bind_eq_ok, Result.mapError_eq_ok,
    State.ofFields_eq_ok_iff, addState_eq_ok_iff]
  constructor
  · rintro ⟨fs, hfs, q, ⟨d, hd, hid, hq⟩, hstates, htransitions, halphabet⟩
    obtain ⟨v, hv⟩ := Option.isSome_iff_exists.1 hid
    refine ⟨_, ⟨fs, hfs, d, hd, by rw [hv]; rfl⟩, ?_, ?_, ?_⟩
    · rw [hstates]
      exact List.rel_append (makes_states_iff.2 rfl) (.cons hq .nil)
    · rw [htransitions]
      rfl
    · exact halphabet.trans A.distinct_alphabet.symm
  · rintro ⟨D, ⟨fs, hfs, d, hd, hD⟩, hB⟩
    split at hD
    · next v hv =>
      obtain rfl := Except.ok.inj hD
      obtain ⟨us, vs, hstates, hus, hvs⟩ := Sequence.forall₂_append_left_iff.1 hB.states
      obtain ⟨q, _, hq, hnil, rfl⟩ := List.forall₂_cons_left_iff.1 hvs
      obtain rfl := List.forall₂_nil_left_iff.1 hnil
      obtain rfl := makes_states_iff.1 hus
      exact ⟨fs, hfs, q, ⟨d, hd, by rw [hv]; rfl, hq⟩, hstates,
        draft_transitions_iff.1 hB.transitions, hB.alphabet.trans A.distinct_alphabet⟩
    · cases hD

lemma apply_updateState_iff {id : Name} {changes : Json} :
    A.apply (.updateState id changes) = .ok B ↔
      ∃ D, A.draft.edited (.updateState id changes) = .ok D ∧ D.Makes B := by
  have hmapM {k : Key} {fs : List (String × Json)} {qs : List State} :
      (A.states.mapM fun s => if s.key = k then s.revise fs else .ok s) = .ok qs ↔
        ∃ ds, (A.states.map State.draft).mapM (fun d =>
          if d.id.key = k then d.assignAll fs else .ok d) = .ok ds ∧
          List.Forall₂ State.Draft.Makes ds qs := by
    refine Result.mapM_eq_ok_iff_exists fun s q => ?_
    change _ ↔ ∃ d, (if s.key = k then s.draft.assignAll fs else .ok s.draft) = .ok d ∧ d.Makes q
    split
    · exact State.revise_eq_ok_iff
    · simp [State.makes_draft_iff, eq_comm]
  have hknown (k : Key) : A.hasState k = A.draft.states.any (·.id.key = k) := by
    rw [Bool.eq_iff_iff, hasState, state?, List.find?_isSome, draft, List.any_map, List.any_eq_true]
    rfl
  simp only [apply, Draft.edited, updateState, Result.bind_eq_ok, hknown]
  constructor
  · rintro ⟨fs, hfs, k, hk, h⟩
    split at h
    · next hany =>
      obtain ⟨qs, hqs, h⟩ := Result.bind_eq_ok.1 h
      obtain ⟨rfl, htransitions, halphabet⟩ := make_eq_ok_iff.1 (Result.mapError_eq_ok.1 h)
      obtain ⟨ds, hds, hmakes⟩ := hmapM.1 hqs
      refine ⟨_, ⟨fs, hfs, k, hk, by rw [if_pos hany]; exact Result.bind_eq_ok.2 ⟨ds, hds, rfl⟩⟩,
        hmakes, congrArg _ htransitions, halphabet⟩
    · cases h
  · rintro ⟨D, ⟨fs, hfs, k, hk, hD⟩, hB⟩
    split at hD
    · next hany =>
      obtain ⟨ds, hds, hD⟩ := Result.bind_eq_ok.1 hD
      obtain rfl := Except.ok.inj hD
      refine ⟨fs, hfs, k, hk, ?_⟩
      rw [if_pos hany]
      exact Result.bind_eq_ok.2 ⟨B.states, hmapM.2 ⟨ds, hds, hB.states⟩, Result.mapError_eq_ok.2
        (make_eq_ok_iff.2 ⟨rfl, draft_transitions_iff.1 hB.transitions, hB.alphabet⟩)⟩
    · cases hD

lemma apply_addTransitions_iff {source target : Name} {symbols : Json} :
    A.apply (.addTransitions source target symbols) = .ok B ↔
      ∃ D, A.draft.edited (.addTransitions source target symbols) = .ok D ∧ D.Makes B := by
  have hids : A.draft.transitions.map (·.id) = A.transitions.map Transition.id := by
    simp [draft, Transition.draft]
  have htaken : A.draft.transitions.map (·.id.key) = A.transitions.map (·.id.key) := by
    simp [draft, Transition.draft]
  have hsymbols {xs : List Json} {new : List Transition}
      (h : freshTransitions source target (A.transitions.map (·.id.key)) 0 xs = .ok new) :
      (new.map fun t => Name.text t.symbolText) = xs.map .of := by
    rw [(of_freshTransitions_eq_ok h).2, List.map_map]
    rfl
  simp only [apply, Draft.edited, addTransitions, Result.bind_eq_ok, Result.mapError_eq_ok,
    hids, htaken]
  constructor
  · rintro ⟨xs, hxs, u, hu, new, hnew, h⟩
    obtain ⟨hstates, htransitions, halphabet⟩ := make_eq_ok_iff.1 h
    refine ⟨_, ⟨u, hu, xs, hxs, rfl⟩, makes_states_iff.2 hstates, ?_, ?_⟩
    · rw [htransitions, List.map_append, freshTransitions_eq_ok_iff.1 hnew]
      rfl
    · rw [halphabet, hsymbols hnew]
      rfl
  · rintro ⟨D, ⟨u, hu, xs, hxs, hD⟩, hB⟩
    obtain rfl := Except.ok.inj hD
    obtain ⟨us, new, htransitions, hus, hnew⟩ := List.map_eq_append_iff.1 hB.transitions
    obtain rfl := draft_transitions_iff.1 hus
    have hfresh := freshTransitions_eq_ok_iff.2 hnew
    refine ⟨xs, hxs, u, hu, new, hfresh,
      make_eq_ok_iff.2 ⟨makes_states_iff.1 hB.states, htransitions, ?_⟩⟩
    rw [hsymbols hfresh]
    exact hB.alphabet

lemma apply_updateTransition_iff {id : Name} {changes : Json} :
    A.apply (.updateTransition id changes) = .ok B ↔
      ∃ D, A.draft.edited (.updateTransition id changes) = .ok D ∧ D.Makes B := by
  have hmapM {fs : List (String × Json)} {ts : List Transition} :
      (A.transitions.mapM fun t => if t.id.key = id.key then t.revise fs else .ok t) = .ok ts ↔
        ∃ ds, (A.transitions.map Transition.draft).mapM (fun d =>
          if d.id.key = id.key then fs.foldlM (fun d f => d.assign f.1 f.2) d else .ok d) = .ok ds ∧
          List.Forall₂ (fun d t => t.draft = d) ds ts := by
    refine Result.mapM_eq_ok_iff_exists fun t u => ?_
    change _ ↔ ∃ d, (if t.id.key = id.key then fs.foldlM (fun d f => d.assign f.1 f.2) t.draft
      else .ok t.draft) = .ok d ∧ u.draft = d
    split
    · exact Transition.revise_eq_ok_iff
    · simp [Transition.draft_injective.eq_iff]
  have hknown : (A.transition? id.key).isSome =
      A.draft.transitions.any (·.id.key = id.key) := by
    rw [Bool.eq_iff_iff, transition?, List.find?_isSome, draft, List.any_map, List.any_eq_true]
    rfl
  simp only [apply, Draft.edited, updateTransition, Result.bind_eq_ok, hknown]
  constructor
  · rintro ⟨fs, hfs, h⟩
    split at h
    · next hany =>
      obtain ⟨ts, hts, h⟩ := Result.bind_eq_ok.1 h
      obtain rfl := Except.ok.inj h
      obtain ⟨ds, hds, hmakes⟩ := hmapM.1 hts
      refine ⟨_, ⟨fs, hfs, by rw [if_pos hany]; exact Result.bind_eq_ok.2 ⟨ds, hds, rfl⟩⟩,
        makes_states_iff.2 rfl, makes_transitions_iff.1 hmakes, A.distinct_alphabet.symm⟩
    · cases h
  · rintro ⟨D, ⟨fs, hfs, hD⟩, hB⟩
    split at hD
    · next hany =>
      obtain ⟨ds, hds, hD⟩ := Result.bind_eq_ok.1 hD
      obtain rfl := Except.ok.inj hD
      refine ⟨fs, hfs, ?_⟩
      rw [if_pos hany]
      refine Result.bind_eq_ok.2 ⟨B.transitions, hmapM.2
        ⟨ds, hds, makes_transitions_iff.2 hB.transitions⟩, ?_⟩
      exact congrArg Except.ok (eq_of_parts (makes_states_iff.1 hB.states).symm rfl
        (hB.alphabet.trans A.distinct_alphabet).symm)
    · cases hD

lemma apply_withAlphabet_iff {symbols : Json} : A.apply (.withAlphabet symbols) = .ok B ↔
    ∃ D, A.draft.edited (.withAlphabet symbols) = .ok D ∧ D.Makes B := by
  simp only [apply, Draft.edited, withAlphabet, Result.bind_eq_ok, Result.mapError_eq_ok,
    make_eq_ok_iff]
  constructor
  · rintro ⟨ns, hns, hstates, htransitions, halphabet⟩
    exact ⟨_, ⟨ns, hns, rfl⟩, makes_states_iff.2 hstates, congrArg _ htransitions, halphabet⟩
  · rintro ⟨D, ⟨ns, hns, hD⟩, hB⟩
    obtain rfl := Except.ok.inj hD
    exact ⟨ns, hns, makes_states_iff.1 hB.states, draft_transitions_iff.1 hB.transitions,
      hB.alphabet⟩

lemma apply_eq_ok_iff {e : Edit} :
    A.apply e = .ok B ↔ ∃ D, A.draft.edited e = .ok D ∧ D.Makes B := by
  cases e with
  | addState fields => exact apply_addState_iff
  | updateState id changes => exact apply_updateState_iff
  | removeState id => simp [apply, draft_removeState, makes_draft_iff, eq_comm]
  | addTransitions source target symbols => exact apply_addTransitions_iff
  | updateTransition id changes => exact apply_updateTransition_iff
  | removeTransition id => simp [apply, draft_removeTransition, makes_draft_iff, eq_comm]
  | withAlphabet symbols => exact apply_withAlphabet_iff

namespace Draft

lemma Makes.sound (h : D.Makes A) : D.Sound where
  ids d hd := by
    obtain ⟨q, hq, hdq⟩ := Sequence.exists_of_mem_left h.states d hd
    exact hdq.id ▸ ⟨q.id_ne, A.ids_atoms q hq⟩
  ids_nodup := keys_of_makes h.states ▸ A.keys_nodup
  types d hd := by
    obtain ⟨q, _, hdq⟩ := Sequence.exists_of_mem_left h.states d hd
    exact ⟨q.type, hdq.type⟩
  positions d hd := by
    obtain ⟨q, _, hdq⟩ := Sequence.exists_of_mem_left h.states d hd
    exact ⟨q.position, hdq.position⟩
  transitions := by
    rw [← h.transitions]
    exact List.forall_mem_map.2 fun t _ => ⟨t.id_ne, t.symbol, t.symbol_ne, rfl⟩
  alphabet := isAtom_of_distinct h.alphabet

lemma Sound.exists_state (h : D.Sound) : ∀ d ∈ D.states, ∃ q, d.build = .ok q := by
  intro d hd
  obtain ⟨type, htype⟩ := h.types d hd
  obtain ⟨position, hposition⟩ := h.positions d hd
  obtain ⟨q, hq⟩ : ∃ q, State.make d.id d.label type position = .ok q :=
    State.exists_make (h.ids d hd).1
  obtain ⟨hid, hlabel, rfl, rfl⟩ := State.of_make_eq_ok hq
  exact ⟨q, State.Draft.build_eq_ok_iff.2 ⟨hid, hlabel, htype, hposition⟩⟩

lemma Sound.exists_transition (h : D.Sound) : ∀ d ∈ D.transitions, ∃ t, d.build = .ok t := by
  rintro ⟨id, source, target, symbol⟩ hd
  obtain ⟨hid, a, ha, rfl⟩ := h.transitions _ hd
  exact ⟨⟨id, source, target, a, hid, ha⟩, Transition.Draft.build_eq_ok_iff.2 rfl⟩

lemma exists_makes_iff : (∃ A, D.Makes A) ↔ D.Sound := by
  refine ⟨fun ⟨A, hA⟩ => hA.sound, fun h => ?_⟩
  obtain ⟨qs, hqs⟩ := Result.exists_mapM_eq_ok h.exists_state
  obtain ⟨ts, hts⟩ := Result.exists_mapM_eq_ok h.exists_transition
  have hdrafts : ts.map Transition.draft = D.transitions := makes_transitions_iff.1
    ((Result.mapM_eq_ok_iff.1 hts).imp fun _ _ => Transition.Draft.build_eq_ok_iff.1)
  have hmakes : List.Forall₂ State.Draft.Makes D.states qs :=
    (Result.mapM_eq_ok_iff.1 hqs).imp fun _ _ => State.Draft.build_eq_ok_iff.1
  have hids : ∀ q ∈ qs, q.id.isAtom = true := by
    intro q hq
    obtain ⟨d, hd, hdq⟩ := Sequence.exists_of_mem_right hmakes q hq
    exact hdq.id ▸ (h.ids d hd).2
  obtain ⟨A, hA⟩ : ∃ A, make qs ts D.alphabet = .ok A :=
    exists_make (keys_of_makes hmakes ▸ h.ids_nodup) hids h.alphabet
  obtain ⟨rfl, rfl, halphabet⟩ := of_make_eq_ok hA
  exact ⟨A, hmakes, hdrafts, halphabet⟩

end Draft

lemma exists_apply_iff {e : Edit} :
    (∃ B, A.apply e = .ok B) ↔ ∃ D, A.draft.edited e = .ok D ∧ D.Sound := by
  simp only [apply_eq_ok_iff, ← Draft.exists_makes_iff]
  constructor
  · rintro ⟨B, D, hD, hB⟩
    exact ⟨D, hD, B, hB⟩
  · rintro ⟨D, hD, B, hB⟩
    exact ⟨B, D, hD, hB⟩

end Automaton

end DfaWorkbench
