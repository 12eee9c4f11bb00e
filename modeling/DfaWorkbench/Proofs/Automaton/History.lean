import DfaWorkbench.Gallery
import DfaWorkbench.Proofs.Automaton.Draft
import DfaWorkbench.Proofs.Sequence.Fresh

/-! Histories of edits. All revisions keep the conditions on states, transitions and symbols, and
the ids of transitions stay distinct unless one is changed on purpose. -/

namespace DfaWorkbench.Automaton

variable {A : Automaton} {e : Edit} {es : List Edit}

lemma applyOrKeep_cases (A : Automaton) (e : Edit) :
    (∃ D, A.draft.edited e = .ok D ∧ D.Sound ∧ D.Makes (A.applyOrKeep e)) ∨
      (∀ D, A.draft.edited e = .ok D → ¬ D.Sound) ∧ A.applyOrKeep e = A := by
  rw [applyOrKeep]
  cases h : A.apply e with
  | ok B =>
    obtain ⟨D, hD, hB⟩ := apply_eq_ok_iff.1 h
    exact .inl ⟨D, hD, hB.sound, hB⟩
  | error _ =>
    refine .inr ⟨fun D hD hsound => ?_, rfl⟩
    obtain ⟨B, hB⟩ := exists_apply_iff.2 ⟨D, hD, hsound⟩
    rw [hB] at h
    cases h

namespace Draft

variable {D E : Draft}

def ids (D : Draft) : List Key :=
  D.transitions.map (·.id.key)

lemma nodup_freshDrafts {source target : Name} {symbols : List Json} {taken : List Key} {n : ℕ}
    (h : taken.Nodup) :
    (taken ++ (freshDrafts source target taken n symbols).map (·.id.key)).Nodup := by
  induction symbols generalizing taken n with
  | nil => simpa [freshDrafts] using h
  | cons symbol symbols ih =>
    have hfree := Sequence.firstFree_notMem transitionKey_injective taken n
    rw [freshDrafts, List.map_cons, List.perm_middle.nodup_iff]
    exact ih (List.nodup_cons.2 ⟨hfree, h⟩)

lemma nodup_ids_edited (h : D.ids.Nodup) (hE : D.edited e = .ok E)
    (he : ∀ id changes, e ≠ .updateTransition id changes) : E.ids.Nodup := by
  cases e with
  | addState fields =>
    obtain ⟨fs, _, hE⟩ := Result.bind_eq_ok.1 hE
    obtain ⟨d, _, hE⟩ := Result.bind_eq_ok.1 hE
    split at hE
    · exact Except.ok.inj hE ▸ h
    · cases hE
  | updateState id changes =>
    obtain ⟨fs, _, hE⟩ := Result.bind_eq_ok.1 hE
    obtain ⟨k, _, hE⟩ := Result.bind_eq_ok.1 hE
    split at hE
    · obtain ⟨ds, _, hE⟩ := Result.bind_eq_ok.1 hE
      exact Except.ok.inj hE ▸ h
    · cases hE
  | removeState id =>
    obtain rfl := Except.ok.inj hE
    exact h.sublist (List.filter_sublist.map _)
  | addTransitions source target symbols =>
    obtain ⟨_, _, hE⟩ := Result.bind_eq_ok.1 hE
    obtain ⟨xs, _, hE⟩ := Result.bind_eq_ok.1 hE
    obtain rfl := Except.ok.inj hE
    rw [ids, List.map_append]
    exact nodup_freshDrafts h
  | updateTransition id changes => exact absurd rfl (he id changes)
  | removeTransition id =>
    obtain rfl := Except.ok.inj hE
    exact h.sublist (List.filter_sublist.map _)
  | withAlphabet symbols =>
    obtain ⟨ns, _, hE⟩ := Result.bind_eq_ok.1 hE
    exact Except.ok.inj hE ▸ h

end Draft

def transitionIds (A : Automaton) : List Key :=
  A.transitions.map (·.id.key)

lemma ids_of_makes {D : Draft} (h : D.Makes A) : D.ids = A.transitionIds := by
  rw [Draft.ids, ← h.transitions, List.map_map]
  rfl

/-- No change of a transition along a history gives it another id. -/
def KeepsIds (A : Automaton) : List Edit → Prop
  | [] => True
  | e :: es =>
    (∀ id changes, e = .updateTransition id changes →
      (A.applyOrKeep e).transitionIds = A.transitionIds) ∧ (A.applyOrKeep e).KeepsIds es

lemma nodup_transitionIds_applyOrKeep (h : A.transitionIds.Nodup)
    (he : ∀ id changes, e = .updateTransition id changes →
      (A.applyOrKeep e).transitionIds = A.transitionIds) :
    (A.applyOrKeep e).transitionIds.Nodup := by
  by_cases hupdate : ∃ id changes, e = .updateTransition id changes
  · obtain ⟨id, changes, hupdate⟩ := hupdate
    exact he id changes hupdate ▸ h
  · rcases A.applyOrKeep_cases e with ⟨D, hD, _, hmakes⟩ | ⟨_, hkept⟩
    · rw [← ids_of_makes hmakes]
      refine Draft.nodup_ids_edited ?_ hD fun id changes hid => hupdate ⟨id, changes, hid⟩
      exact (ids_of_makes (makes_draft_iff.2 rfl)).symm ▸ h
    · exact hkept.symm ▸ h

lemma nodup_transitionIds_applyAll (h : A.transitionIds.Nodup) (hes : A.KeepsIds es) :
    (A.applyAll es).transitionIds.Nodup := by
  induction es generalizing A with
  | nil => exact h
  | cons e es ih => exact ih (nodup_transitionIds_applyOrKeep h hes.1) hes.2

lemma id_of_assign {d d' : Transition.Draft} {name : String} {v : Json}
    (h : d.assign name v = .ok d') : d'.id = d.id ∨ name = "id" ∧ d'.id = .of v := by
  unfold Transition.Draft.assign at h
  split at h
  · exact .inr ⟨rfl, Except.ok.inj h ▸ rfl⟩
  · exact .inl (Except.ok.inj h ▸ rfl)
  · exact .inl (Except.ok.inj h ▸ rfl)
  · exact .inl (Except.ok.inj h ▸ rfl)
  · cases h

lemma key_of_assigned {k : Key} {d d' : Transition.Draft} {fs : List (String × Json)}
    (hfs : ∀ v, ("id", v) ∈ fs → (Name.of v).key = k) (hd : d.id.key = k)
    (h : fs.foldlM (fun d f => d.assign f.1 f.2) d = .ok d') : d'.id.key = k := by
  induction fs generalizing d with
  | nil => exact Except.ok.inj h ▸ hd
  | cons f fs ih =>
    obtain ⟨d₁, hd₁, h⟩ := Result.bind_eq_ok.1 h
    refine ih (fun v hv => hfs v (List.mem_cons_of_mem _ hv)) ?_ h
    rcases id_of_assign hd₁ with hid | ⟨hname, hid⟩
    · rw [hid, hd]
    · rw [hid]
      exact hfs f.2 (hname ▸ List.mem_cons_self)

lemma eq_obj_of_freeFields {taken : List String} {v : Json} {fs : List (String × Json)}
    (h : v.freeFields taken = .ok fs) : v = .obj fs := by
  obtain ⟨gs, hgs, h⟩ := Result.bind_eq_ok.1 h
  split at h
  · cases h
  · obtain rfl := Except.ok.inj h
    cases v with
    | obj fs => exact congrArg Json.obj (Except.ok.inj hgs)
    | _ => cases hgs

lemma transitionIds_of_updateTransition {id : Name} {changes : Json}
    (h : ∀ fs v, changes = .obj fs → ("id", v) ∈ fs → (Name.of v).key = id.key) :
    (A.applyOrKeep (.updateTransition id changes)).transitionIds = A.transitionIds := by
  rcases A.applyOrKeep_cases (.updateTransition id changes) with ⟨D, hD, _, hmakes⟩ | ⟨_, hkept⟩
  · rw [← ids_of_makes hmakes]
    obtain ⟨fs, hfs, hD⟩ := Result.bind_eq_ok.1 hD
    have hfs' : ∀ v, ("id", v) ∈ fs → (Name.of v).key = id.key :=
      fun v => h fs v (eq_obj_of_freeFields hfs)
    split at hD
    · obtain ⟨ds, hds, hD⟩ := Result.bind_eq_ok.1 hD
      obtain rfl := Except.ok.inj hD
      rw [← ids_of_makes (makes_draft_iff.2 (Eq.refl A))]
      refine Result.map_eq_of_mapM hds fun d d' hdd' => ?_
      split at hdd'
      · next hk => exact (key_of_assigned hfs' hk hdd').trans hk.symm
      · exact Except.ok.inj hdd' ▸ rfl
    · cases hD
  · rw [hkept]

lemma keepsIds_of_entered (h : ∀ id fs v, .updateTransition id (.obj fs) ∈ es → ("id", v) ∈ fs →
    (Name.of v).key = id.key) : A.KeepsIds es := by
  induction es generalizing A with
  | nil => trivial
  | cons e es ih =>
    refine ⟨fun id changes he => ?_, ih fun id fs v hmem => h id fs v (List.mem_cons_of_mem _ hmem)⟩
    subst he
    refine transitionIds_of_updateTransition fun fs v hchanges => ?_
    exact h id fs v (hchanges ▸ List.mem_cons_self)

lemma applyAll_concat (A : Automaton) (es : List Edit) (e : Edit) :
    A.applyAll (es ++ [e]) = (A.applyAll es).applyOrKeep e := by
  rw [applyAll, List.foldl_concat]
  rfl

/-- Each revision has distinct ids that are not empty, labels that are not empty, distinct symbols,
and transitions with an id on one input symbol. The next revision is what the edit makes if nothing
is checked, provided that this keeps the conditions; otherwise the revision stays. The ids of
transitions stay distinct if no change of a transition gives it another id. -/
theorem conditions_of_history (A : Automaton) (es : List Edit) :
    ((A.applyAll es).states.map State.key).Nodup ∧
    (∀ q ∈ (A.applyAll es).states, q.id.isEmpty = false ∧ q.label.isEmpty = false) ∧
    ((A.applyAll es).alphabet.map Name.key).Nodup ∧
    (∀ t ∈ (A.applyAll es).transitions, t.id.isEmpty = false ∧
      ∃ a, a ≠ 'ε' ∧ a ≠ '^' ∧ t.symbolText = String.singleton a) ∧
    (∀ e, (∃ D, (A.applyAll es).draft.edited e = .ok D ∧ D.Sound ∧
        D.Makes (A.applyAll (es ++ [e]))) ∨
      (∀ D, (A.applyAll es).draft.edited e = .ok D → ¬ D.Sound) ∧
        A.applyAll (es ++ [e]) = A.applyAll es) ∧
    ((A.transitions.map (·.id.key)).Nodup → A.KeepsIds es →
      ((A.applyAll es).transitions.map (·.id.key)).Nodup) := by
  refine ⟨(A.applyAll es).keys_nodup, fun q _ => ⟨q.id_ne, q.label_ne⟩,
    (A.applyAll es).alphabet_nodup, fun t _ => ?_, fun e => ?_, nodup_transitionIds_applyAll⟩
  · have hsymbol := t.symbol_ne
    rw [emptyWordSigns, List.mem_cons, List.mem_singleton, not_or] at hsymbol
    exact ⟨t.id_ne, t.symbol, hsymbol.1, hsymbol.2, rfl⟩
  · rw [applyAll_concat]
    exact (A.applyAll es).applyOrKeep_cases e

def sampleHistory : List Edit :=
  [.removeTransition "t0",
    .addTransitions "q0" "q1" (.arr [.str "a", .str "c"]),
    .updateTransition "t1" (.obj [("target", .str "q0"), ("id", .str "t1")]),
    .addState (.obj [("id", .str "q2"), ("label", .str "end")])]

theorem conditions_of_history_sample :
    ((sample.applyAll sampleHistory).transitions.map (·.id.key)).Nodup ∧
    (sample.applyAll sampleHistory).states.length = 3 ∧
    (sample.applyAll sampleHistory).transitions.length = 7 := by
  obtain ⟨_, _, _, _, _, hids⟩ := conditions_of_history sample sampleHistory
  refine ⟨hids (by decide) (keepsIds_of_entered fun id fs v hmem hv => ?_), rfl, rfl⟩
  obtain ⟨rfl, rfl⟩ : id = "t1" ∧ fs = [("target", .str "q0"), ("id", .str "t1")] := by
    simpa [sampleHistory] using hmem
  obtain rfl : v = .str "t1" := by simpa using hv
  rfl

end DfaWorkbench.Automaton
