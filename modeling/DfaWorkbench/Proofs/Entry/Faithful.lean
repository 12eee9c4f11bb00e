import DfaWorkbench.Proofs.Entry.RoundTrip

/-! Plain data that says all of an automaton. Writing an automaton gives such data, and reading it
gives an automaton of which it is the written form. -/

namespace DfaWorkbench

namespace Json

def get (v : Json) (name : String) : Json :=
  match v with
  | obj fs => fieldOr fs name null
  | _ => null

def HasFields (v : Json) (names : List String) : Prop :=
  ∃ fs, v = obj fs ∧ (fs.map Prod.fst).Perm names

inductive Reordered : Json → Json → Prop
  | refl (v : Json) : Reordered v v
  | arr {xs ys : List Json} : List.Forall₂ Reordered xs ys → Reordered (arr xs) (arr ys)
  | obj {fs gs hs : List (String × Json)} : fs.Perm gs → gs.map Prod.fst = hs.map Prod.fst →
      List.Forall₂ Reordered (gs.map Prod.snd) (hs.map Prod.snd) → Reordered (obj fs) (obj hs)

structure IsState (v : Json) : Prop where
  fields : v.HasFields ["id", "label", "type", "x", "y"]
  id_atom : (v.get "id").isAtom = true
  id_ne : (v.get "id").isEmpty = false
  label_ne : (v.get "label").isEmpty = false
  type : ∃ t, StateType.resolve (v.get "type") = .ok t

structure IsTransition (v : Json) : Prop where
  fields : v.HasFields ["id", "from", "to", "symbol"]
  id_ne : (v.get "id").isEmpty = false
  symbol : ∃ a, a ∉ emptyWordSigns ∧ v.get "symbol" = str (String.singleton a)

structure IsAutomaton (v : Json) : Prop where
  fields : v.HasFields ["states", "transitions", "alphabet"]
  states : ∃ vs, v.get "states" = arr vs ∧ (∀ q ∈ vs, q.IsState) ∧
    (vs.map fun q => (Name.of (q.get "id")).key).Nodup
  transitions : ∃ vs, v.get "transitions" = arr vs ∧ ∀ t ∈ vs, t.IsTransition
  alphabet : ∃ vs, v.get "alphabet" = arr vs ∧ (∀ a ∈ vs, a.isAtom = true) ∧
    (vs.map fun a => (Name.of a).key).Nodup

lemma Reordered.of_perm {fs gs : List (String × Json)} (h : fs.Perm gs) :
    (Json.obj fs).Reordered (.obj gs) :=
  .obj h rfl (List.forall₂_same.2 fun v _ => .refl v)

variable {v : Json} {fs : List (String × Json)} {names : List String} {name : String}

lemma field?_of_mem (hnodup : (fs.map Prod.fst).Nodup) {f : String × Json} (hf : f ∈ fs) :
    field? fs f.1 = some f.2 := by
  obtain ⟨gs, hs, rfl⟩ := List.append_of_mem hf
  refine List.lookup_eq_some_iff.2 ⟨gs, hs, rfl, fun g hg => bne_iff_ne.2 fun hgf => ?_⟩
  rw [List.map_append, List.nodup_append] at hnodup
  exact hnodup.2.2 g.1 (List.mem_map_of_mem hg) f.1 (by simp) hgf.symm

lemma need_of_names (h : (fs.map Prod.fst).Perm names) (hname : name ∈ names) :
    need fs name = .ok ((obj fs).get name) := by
  obtain ⟨f, hf, rfl⟩ := List.mem_map.1 (h.mem_iff.2 hname)
  obtain ⟨x, hx⟩ := Option.isSome_iff_exists.1
    (List.lookup_isSome_iff.2 ⟨f, hf, beq_self_eq_true f.1⟩)
  have hx' : field? fs f.1 = some x := hx
  rw [need, get, fieldOr, hx']
  rfl

lemma fieldOr_of_names (h : (fs.map Prod.fst).Perm names) (hname : name ∈ names)
    (default : Json) : fieldOr fs name default = (obj fs).get name := by
  have hneed := need_of_names h hname
  rw [need] at hneed
  split at hneed
  · next v hv =>
    rw [← Except.ok.inj hneed, fieldOr, hv]
    rfl
  · cases hneed

lemma perm_of_names (h : (fs.map Prod.fst).Perm names) (hnodup : names.Nodup) :
    fs.Perm (names.map fun name => (name, (obj fs).get name)) := by
  have hfs : fs = (fs.map Prod.fst).map fun name => (name, (obj fs).get name) := by
    rw [List.map_map]
    refine ((List.map_congr_left fun f hf => ?_).trans (List.map_id fs)).symm
    have hget : (obj fs).get f.1 = f.2 := by
      rw [get, fieldOr, field?_of_mem (h.nodup_iff.2 hnodup) hf]
      rfl
    exact Prod.ext rfl hget
  exact (List.Perm.of_eq hfs).trans (h.map _)

end Json

variable {v : Json}

lemma StateType.name_of_ofName? {s : String} {t : StateType} (h : ofName? s = some t) :
    t.name = s := by
  unfold ofName? at h
  split at h <;> cases h <;> rfl

lemma StateType.name_of_resolve {t : StateType} (h : resolve v = .ok t) : .str t.name = v := by
  cases v with
  | str s =>
    rw [resolve] at h
    split at h
    · next ht =>
      obtain rfl := Except.ok.inj h
      rw [name_of_ofName? ht]
    · cases h
  | _ => cases h

namespace Json

lemma IsState.exists_ofJson (h : v.IsState) : ∃ q, State.ofJson v = .ok q ∧
    q.key = (Name.of (v.get "id")).key ∧ q.id.isAtom = true ∧ q.isPlaced = true ∧
    v.Reordered q.toJson := by
  obtain ⟨fs, rfl, hnames⟩ := h.fields
  obtain ⟨t, ht⟩ := h.type
  have hread {name : String} (hname : name ∈ ["id", "label", "type", "x", "y"]) (default : Json) :
      fieldOr fs name default = (obj fs).get name :=
    fieldOr_of_names hnames hname default
  let q : State := ⟨.of ((obj fs).get "id"), .of ((obj fs).get "label"), t,
    [(obj fs).get "x", (obj fs).get "y"], h.id_ne, h.label_ne⟩
  refine ⟨q, ?_, rfl, h.id_atom, rfl, ?_⟩
  · refine Result.bind_eq_ok.2 ⟨fs, rfl, Result.bind_eq_ok.2 ⟨_, need_of_names hnames (by simp),
      Result.bind_eq_ok.2 ⟨t, ?_, Result.mapError_eq_ok.2 ?_⟩⟩⟩
    · rw [hread (by simp), ht]
      rfl
    · rw [hread (by simp), hread (by simp), hread (by simp)]
      exact q.make_parts
  · rw [State.toJson, StateType.name_of_resolve ht]
    exact .of_perm (perm_of_names hnames (by decide))

lemma IsTransition.exists_ofJson (h : v.IsTransition) :
    ∃ t, Transition.ofJson v = .ok t ∧ v.Reordered t.toJson := by
  obtain ⟨fs, rfl, hnames⟩ := h.fields
  obtain ⟨a, ha, hsymbol⟩ := h.symbol
  let t : Transition := ⟨.of ((obj fs).get "id"), .of ((obj fs).get "from"),
    .of ((obj fs).get "to"), a, h.id_ne, ha⟩
  have hneed {name : String} (hname : name ∈ ["id", "from", "to", "symbol"]) :
      need fs name = .ok ((obj fs).get name) :=
    need_of_names hnames hname
  refine ⟨t, ?_, ?_⟩
  · refine Result.bind_eq_ok.2 ⟨fs, rfl, Result.bind_eq_ok.2 ⟨_, hneed (by simp),
      Result.bind_eq_ok.2 ⟨_, hneed (by simp), Result.bind_eq_ok.2 ⟨_, hneed (by simp),
      Result.bind_eq_ok.2 ⟨_, hneed (by simp), Result.mapError_eq_ok.2 ?_⟩⟩⟩⟩⟩
    rw [hsymbol]
    exact t.make_parts
  · rw [Transition.toJson, Transition.symbolText, ← hsymbol]
    exact .of_perm (perm_of_names hnames (by decide))

lemma IsAutomaton.exists_ofJson (h : v.IsAutomaton) :
    ∃ A w, Automaton.ofJson v = .ok A ∧ A.toJson? = some w ∧ v.Reordered w := by
  obtain ⟨fs, rfl, hnames⟩ := h.fields
  obtain ⟨ss, hss, hstates, hkeys⟩ := h.states
  obtain ⟨us, hus, htransitions⟩ := h.transitions
  obtain ⟨as, has, hatoms, hdistinct⟩ := h.alphabet
  obtain ⟨qs, hqs, hsame⟩ :=
    Result.exists_mapM_forall₂ fun v hv => (hstates v hv).exists_ofJson
  obtain ⟨ts, hts, hsame'⟩ :=
    Result.exists_mapM_forall₂ fun v hv => (htransitions v hv).exists_ofJson
  have hids : ss.map (fun v => (Name.of (v.get "id")).key) = qs.map State.key :=
    Sequence.map_eq_of_forall₂ (fun _ _ hvq => hvq.1.symm) hsame
  have hparts : ∀ q ∈ qs, q.id.isAtom = true ∧ q.isPlaced = true :=
    Sequence.forall_of_forall₂ (fun _ _ hvq => ⟨hvq.2.1, hvq.2.2.1⟩) hsame
  obtain ⟨A, hA⟩ : ∃ A, Automaton.make qs ts (as.map Name.of) = .ok A :=
    Automaton.exists_make (hids ▸ hkeys) (fun q hq => (hparts q hq).1)
      (List.forall_mem_map.2 hatoms)
  obtain ⟨rfl, rfl, halphabet⟩ := Automaton.of_make_eq_ok hA
  have hsymbols : A.alphabet.map Name.value = as := by
    rw [halphabet, Sequence.distinct_of_nodup (by simpa using! hdistinct), List.map_map]
    exact List.map_id as
  have hread {name : String} (hname : name ∈ ["states", "transitions", "alphabet"])
      (default : Json) : fieldOr fs name default = (obj fs).get name :=
    fieldOr_of_names hnames hname default
  refine ⟨A, A.toJson, ?_, if_pos (List.all_eq_true.2 fun q hq => (hparts q hq).2), ?_⟩
  · refine Result.bind_eq_ok.2 ⟨fs, rfl, Result.bind_eq_ok.2 ⟨ss, ?_, Result.bind_eq_ok.2 ⟨_, hqs,
      Result.bind_eq_ok.2 ⟨us, ?_, Result.bind_eq_ok.2 ⟨_, hts, Result.bind_eq_ok.2
      ⟨as.map .of, ?_, Result.mapError_eq_ok.2 hA⟩⟩⟩⟩⟩⟩
    · rw [hread (by simp), hss]
      rfl
    · rw [hread (by simp), hus]
      rfl
    · rw [hread (by simp), has]
      rfl
  · refine .obj (perm_of_names hnames (by decide)) rfl ?_
    simp only [List.map_cons, List.map_nil, hss, hus, has, hsymbols, Automaton.toFields]
    refine .cons (.arr ?_) (.cons (.arr ?_) (.cons (.refl _) .nil))
    · exact List.forall₂_map_right_iff.2 (hsame.imp fun v q hvq => hvq.2.2.2)
    · exact List.forall₂_map_right_iff.2 hsame'

variable {A : Automaton}

lemma isState_toJson {q : State} (hid : q.id.isPlain = true) (hatom : q.id.isAtom = true) :
    q.toJson.IsState where
  fields := ⟨_, rfl, .refl _⟩
  id_atom := by
    rw [← Name.of_value hid] at hatom
    exact hatom
  id_ne := q.id_ne
  label_ne := q.label_ne
  type := ⟨q.type, StateType.resolve_name q.type⟩

lemma isTransition_toJson (t : Transition) : t.toJson.IsTransition where
  fields := ⟨_, rfl, .refl _⟩
  id_ne := t.id_ne
  symbol := ⟨t.symbol, t.symbol_ne, rfl⟩

lemma isAutomaton_toJson (hA : A.Plain) : A.toJson.IsAutomaton where
  fields := ⟨_, rfl, .refl _⟩
  states := by
    refine ⟨A.states.map State.toJson, rfl, List.forall_mem_map.2 fun q hq => ?_, ?_⟩
    · exact isState_toJson (hA.states q hq).1 (A.ids_atoms q hq)
    · have hkeys : (A.states.map State.toJson).map (fun v => (Name.of (v.get "id")).key) =
          A.states.map State.key := by
        rw [List.map_map]
        exact List.map_congr_left fun q hq => congrArg Name.key (Name.of_value (hA.states q hq).1)
      exact hkeys ▸ A.keys_nodup
  transitions := ⟨A.transitions.map Transition.toJson, rfl,
    List.forall_mem_map.2 fun t _ => isTransition_toJson t⟩
  alphabet := by
    have hvalue {a : Name} (ha : a ∈ A.alphabet) : Name.of a.value = a :=
      Name.of_value (hA.alphabet a ha)
    refine ⟨A.alphabet.map Name.value, rfl, List.forall_mem_map.2 fun a ha => ?_, ?_⟩
    · have hatom := A.alphabet_atoms a ha
      rw [← hvalue ha] at hatom
      exact hatom
    · rw [List.map_map]
      exact (List.map_congr_left fun a ha => congrArg Name.key (hvalue ha)) ▸ A.alphabet_nodup

end Json

namespace Automaton

/-- The plain form of an automaton is faithful. An automaton whose states have pairs for positions
is written with all of its fields, and what was written is read as this very automaton. All data
with these fields is read, and what was read is written as the same data, but for the order of
fields. -/
theorem ofJson_toJson_faithful :
    (∀ A : Automaton, A.Plain → (∀ q ∈ A.states, ∃ x y, q.position = [x, y]) →
      ∃ w, A.toJson? = some w ∧ w.IsAutomaton ∧ ofJson w = .ok A) ∧
    ∀ v : Json, v.IsAutomaton →
      ∃ A w, ofJson v = .ok A ∧ A.toJson? = some w ∧ v.Reordered w := by
  refine ⟨fun A hA hplaces => ⟨A.toJson, ?_, Json.isAutomaton_toJson hA, ?_⟩,
    fun v hv => hv.exists_ofJson⟩
  · refine if_pos (List.all_eq_true.2 fun q hq => ?_)
    obtain ⟨x, y, hxy⟩ := hplaces q hq
    rw [State.isPlaced, hxy]
    rfl
  · change ofFields A.toFields = .ok A
    exact ofFields_eq_ok hA hplaces rfl rfl rfl

def sortedEntry : Json :=
  .obj [
    ("alphabet", .arr [.str "b", .str "a"]),
    ("states", .arr [
      .obj [("id", .str "p"), ("label", .str "from here"), ("type", .str "start"),
        ("x", .num (.int 1)), ("y", .null)],
      .obj [("id", .num (.int 2)), ("label", .str "p"), ("type", .str "dead"),
        ("x", .num (.int 3)), ("y", .num (.int 4))]]),
    ("transitions", .arr [
      .obj [("from", .str "p"), ("id", .str "t"), ("symbol", .str "a"), ("to", .num (.int 2))]])]

theorem ofJson_toJson_faithful_entry :
    (∃ w, sample.toJson? = some w ∧ ofJson w = .ok sample) ∧
    ∃ A w, ofJson sortedEntry = .ok A ∧ A.toJson? = some w ∧ sortedEntry.Reordered w := by
  obtain ⟨hwritten, hread⟩ := ofJson_toJson_faithful
  have hplaces : ∀ q ∈ sample.states, ∃ x y, q.position = [x, y] := by
    simp [sample, samplePlace]
  obtain ⟨w, hw, _, hr⟩ := hwritten sample worded_sample.plain hplaces
  have hp : Json.IsState (.obj [("id", .str "p"), ("label", .str "from here"),
      ("type", .str "start"), ("x", .num (.int 1)), ("y", .null)]) :=
    ⟨⟨_, rfl, by decide⟩, rfl, rfl, rfl, .start, rfl⟩
  have hq : Json.IsState (.obj [("id", .num (.int 2)), ("label", .str "p"),
      ("type", .str "dead"), ("x", .num (.int 3)), ("y", .num (.int 4))]) :=
    ⟨⟨_, rfl, by decide⟩, rfl, rfl, rfl, .dead, rfl⟩
  have ht : Json.IsTransition (.obj [("from", .str "p"), ("id", .str "t"), ("symbol", .str "a"),
      ("to", .num (.int 2))]) :=
    ⟨⟨_, rfl, by decide⟩, rfl, 'a', by decide, rfl⟩
  refine ⟨⟨w, hw, hr⟩, hread sortedEntry ⟨⟨_, rfl, by decide⟩, ⟨_, rfl, ?_, by decide⟩,
    ⟨_, rfl, ?_⟩, ⟨_, rfl, by simp [Json.isAtom], by decide⟩⟩⟩
  · exact List.forall_mem_cons.2 ⟨hp, List.forall_mem_singleton.2 hq⟩
  · exact List.forall_mem_singleton.2 ht

end Automaton

end DfaWorkbench
