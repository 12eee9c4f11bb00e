import DfaWorkbench.Automaton.Lookup
import DfaWorkbench.Proofs.Automaton.History
import DfaWorkbench.Proofs.Automaton.Lookup

/-! Lookups by names in all revisions of an automaton, compared with plain scans of its lists. -/

namespace DfaWorkbench

variable {A : Automaton} {D E : Automaton.Draft} {d : Transition.Draft} {e : Edit} {es : List Edit}
  {s a : Name} {ts : List Transition} {q : State}

def Edit.EntersSource (n : Name) : Edit → Prop
  | .addTransitions source _ _ => source = n
  | .updateTransition _ changes => ∃ fs v, changes = .obj fs ∧ ("source", v) ∈ fs ∧ .of v = n
  | _ => False

namespace Automaton

namespace Draft

lemma source_of_mem_freshDrafts {source target : Name} {taken : List Key} {n : ℕ}
    {symbols : List Json} (hd : d ∈ freshDrafts source target taken n symbols) :
    d.source = source := by
  induction symbols generalizing taken n with
  | nil => cases hd
  | cons symbol symbols ih =>
    rcases List.mem_cons.1 hd with rfl | hd
    · rfl
    · exact ih hd

lemma source_of_assign {d' : Transition.Draft} {name : String} {v : Json}
    (h : d.assign name v = .ok d') :
    d'.source = d.source ∨ name = "source" ∧ d'.source = .of v := by
  unfold Transition.Draft.assign at h
  split at h
  · exact .inl (Except.ok.inj h ▸ rfl)
  · exact .inr ⟨rfl, Except.ok.inj h ▸ rfl⟩
  · exact .inl (Except.ok.inj h ▸ rfl)
  · exact .inl (Except.ok.inj h ▸ rfl)
  · cases h

lemma source_of_assigned {d' : Transition.Draft} {fs : List (String × Json)}
    (h : fs.foldlM (fun d f => d.assign f.1 f.2) d = .ok d') :
    d'.source = d.source ∨ ∃ v, ("source", v) ∈ fs ∧ .of v = d'.source := by
  induction fs generalizing d with
  | nil => exact .inl (Except.ok.inj h ▸ rfl)
  | cons f fs ih =>
    obtain ⟨d₁, hd₁, h⟩ := Result.bind_eq_ok.1 h
    rcases ih h with hsource | ⟨v, hv, hsource⟩
    · rcases source_of_assign hd₁ with hkept | ⟨hname, hset⟩
      · exact .inl (hsource.trans hkept)
      · exact .inr ⟨f.2, hname ▸ List.mem_cons_self, (hsource.trans hset).symm⟩
    · exact .inr ⟨v, List.mem_cons_of_mem _ hv, hsource⟩

lemma source_of_edited (hE : D.edited e = .ok E) (hd : d ∈ E.transitions) :
    (∃ c ∈ D.transitions, c.source = d.source) ∨ e.EntersSource d.source := by
  cases e with
  | addState fields =>
    obtain ⟨fs, _, hE⟩ := Result.bind_eq_ok.1 hE
    obtain ⟨_, _, hE⟩ := Result.bind_eq_ok.1 hE
    split at hE
    · obtain rfl := Except.ok.inj hE
      exact .inl ⟨d, hd, rfl⟩
    · cases hE
  | updateState id changes =>
    obtain ⟨fs, _, hE⟩ := Result.bind_eq_ok.1 hE
    obtain ⟨k, _, hE⟩ := Result.bind_eq_ok.1 hE
    split at hE
    · obtain ⟨ds, _, hE⟩ := Result.bind_eq_ok.1 hE
      obtain rfl := Except.ok.inj hE
      exact .inl ⟨d, hd, rfl⟩
    · cases hE
  | removeState id =>
    obtain rfl := Except.ok.inj hE
    exact .inl ⟨d, (List.mem_filter.1 hd).1, rfl⟩
  | addTransitions source target symbols =>
    obtain ⟨_, _, hE⟩ := Result.bind_eq_ok.1 hE
    obtain ⟨xs, _, hE⟩ := Result.bind_eq_ok.1 hE
    obtain rfl := Except.ok.inj hE
    rcases List.mem_append.1 hd with hd | hd
    · exact .inl ⟨d, hd, rfl⟩
    · exact .inr (source_of_mem_freshDrafts hd).symm
  | updateTransition id changes =>
    obtain ⟨fs, hfs, hE⟩ := Result.bind_eq_ok.1 hE
    split at hE
    · obtain ⟨ds, hds, hE⟩ := Result.bind_eq_ok.1 hE
      obtain rfl := Except.ok.inj hE
      obtain ⟨c, hc, hcd⟩ := (Result.mapM_eq_ok hds).2 d hd
      split at hcd
      · rcases source_of_assigned hcd with hsource | ⟨v, hv, hsource⟩
        · exact .inl ⟨c, hc, hsource.symm⟩
        · exact .inr ⟨fs, v, eq_obj_of_freeFields hfs, hv, hsource⟩
      · obtain rfl := Except.ok.inj hcd
        exact .inl ⟨c, hc, rfl⟩
    · cases hE
  | removeTransition id =>
    obtain rfl := Except.ok.inj hE
    exact .inl ⟨d, (List.mem_filter.1 hd).1, rfl⟩
  | withAlphabet symbols =>
    obtain ⟨ns, _, hE⟩ := Result.bind_eq_ok.1 hE
    obtain rfl := Except.ok.inj hE
    exact .inl ⟨d, hd, rfl⟩

end Draft

def Indexed (A : Automaton) : Prop :=
  ∀ t ∈ A.transitions, t.source.isAtom = true

lemma indexed_applyOrKeep (h : A.Indexed) (he : ∀ n, e.EntersSource n → n.isAtom = true) :
    (A.applyOrKeep e).Indexed := by
  rcases A.applyOrKeep_cases e with ⟨D, hD, _, hmakes⟩ | ⟨_, hkept⟩
  · intro t ht
    have hd : t.draft ∈ D.transitions := hmakes.transitions ▸ List.mem_map_of_mem ht
    rcases Draft.source_of_edited hD hd with ⟨c, hc, hsource⟩ | hentered
    · obtain ⟨u, hu, rfl⟩ := List.mem_map.1 hc
      have hkept : u.source = t.source := hsource
      exact hkept ▸ h u hu
    · exact he _ hentered
  · exact hkept.symm ▸ h

lemma indexed_applyAll (h : A.Indexed)
    (hes : ∀ e ∈ es, ∀ n, e.EntersSource n → n.isAtom = true) : (A.applyAll es).Indexed := by
  induction es generalizing A with
  | nil => exact h
  | cons e es ih =>
    rw [List.forall_mem_cons] at hes
    exact ih (indexed_applyOrKeep h hes.1) hes.2

lemma indexed_iff : Name.requireAtoms (A.transitions.map Transition.source) = .ok () ↔
    A.Indexed := by
  rw [Name.requireAtoms_eq_ok_iff, List.forall_mem_map]
  rfl

lemma findTransitionsFrom_eq_ok_iff : A.findTransitionsFrom s = .ok ts ↔
    A.Indexed ∧ s.isAtom = true ∧ ts = A.transitions.filter fun t => t.source.key = s.key := by
  rw [← members_bySource, ← indexed_iff]
  constructor
  · intro h
    obtain ⟨_, hindexed, h⟩ := Result.bind_eq_ok.1 h
    obtain ⟨k, hk, h⟩ := Result.bind_eq_ok.1 h
    obtain ⟨hs, rfl⟩ := Name.atomKey_eq_ok_iff.1 hk
    exact ⟨hindexed, hs, (Except.ok.inj h).symm⟩
  · rintro ⟨hindexed, hs, rfl⟩
    exact Result.bind_eq_ok.2 ⟨(), hindexed,
      Result.bind_eq_ok.2 ⟨s.key, Name.atomKey_eq_ok hs, rfl⟩⟩

lemma findTransitionsOn_eq_ok_iff : A.findTransitionsOn s a = .ok ts ↔
    A.Indexed ∧ s.isAtom = true ∧ a.isAtom = true ∧
      ts = A.transitions.filter fun t => t.source.key = s.key && t.symbolKey = a.key := by
  rw [← members_bySourceAndSymbol, ← indexed_iff]
  constructor
  · intro h
    obtain ⟨_, hindexed, h⟩ := Result.bind_eq_ok.1 h
    obtain ⟨k, hk, h⟩ := Result.bind_eq_ok.1 h
    obtain ⟨j, hj, h⟩ := Result.bind_eq_ok.1 h
    obtain ⟨hs, rfl⟩ := Name.atomKey_eq_ok_iff.1 hk
    obtain ⟨ha, rfl⟩ := Name.atomKey_eq_ok_iff.1 hj
    exact ⟨hindexed, hs, ha, (Except.ok.inj h).symm⟩
  · rintro ⟨hindexed, hs, ha, rfl⟩
    exact Result.bind_eq_ok.2 ⟨(), hindexed,
      Result.bind_eq_ok.2 ⟨s.key, Name.atomKey_eq_ok hs,
      Result.bind_eq_ok.2 ⟨a.key, Name.atomKey_eq_ok ha, rfl⟩⟩⟩

lemma findState_eq_ok_iff {found : Option State} :
    A.findState s = .ok found ↔ s.isAtom = true ∧ A.state? s.key = found := by
  constructor
  · intro h
    obtain ⟨k, hk, h⟩ := Result.bind_eq_ok.1 h
    obtain ⟨hs, rfl⟩ := Name.atomKey_eq_ok_iff.1 hk
    exact ⟨hs, Except.ok.inj h⟩
  · rintro ⟨hs, rfl⟩
    exact Result.bind_eq_ok.2 ⟨s.key, Name.atomKey_eq_ok hs, rfl⟩

lemma findState_eq_some_iff :
    A.findState s = .ok (some q) ↔ q ∈ A.states ∧ q.key = s.key := by
  rw [findState_eq_ok_iff, state?_eq_some_iff, and_iff_right_iff_imp]
  exact fun ⟨hq, hk⟩ => Name.isAtom_of_key_eq hk (A.ids_atoms q hq)

lemma exists_findState_iff :
    (∃ q, A.findState s = .ok (some q)) ↔ ∃! q, q ∈ A.states ∧ q.key = s.key := by
  simp only [findState_eq_some_iff]
  constructor
  · rintro ⟨q, hq, hk⟩
    exact ⟨q, ⟨hq, hk⟩, fun p ⟨hp, hpk⟩ => eq_of_key_eq hp hq (hpk.trans hk.symm)⟩
  · exact ExistsUnique.exists

lemma findState_eq_none_iff :
    A.findState s = .ok none ↔ s.isAtom = true ∧ ∀ q ∈ A.states, q.key ≠ s.key := by
  rw [findState_eq_ok_iff, state?, List.find?_eq_none]
  simp

/-- In each revision, what is looked up is what a scan of the lists finds, in their order and with
repetitions, and a state is found if there is exactly one of that id. Transitions can be looked up
if all sources can be, which is so as long as no source is entered that cannot. -/
theorem lookups_of_history (A : Automaton) (es : List Edit) (s a : Name) :
    (∀ ts, (A.applyAll es).findTransitionsOn s a = .ok ts ↔
      (A.applyAll es).Indexed ∧ s.isAtom = true ∧ a.isAtom = true ∧
        ts = (A.applyAll es).transitions.filter fun t =>
          t.source.key = s.key && t.symbolKey = a.key) ∧
    (∀ ts, (A.applyAll es).findTransitionsFrom s = .ok ts ↔
      (A.applyAll es).Indexed ∧ s.isAtom = true ∧
        ts = (A.applyAll es).transitions.filter fun t => t.source.key = s.key) ∧
    (∀ ts, (A.applyAll es).findTransitionsFrom s = .ok ts → a.isAtom = true →
      (A.applyAll es).findTransitionsOn s a = .ok (ts.filter (·.symbolKey = a.key))) ∧
    (∀ q, (A.applyAll es).findState s = .ok (some q) ↔
      q ∈ (A.applyAll es).states ∧ q.key = s.key) ∧
    ((∃ q, (A.applyAll es).findState s = .ok (some q)) ↔
      ∃! q, q ∈ (A.applyAll es).states ∧ q.key = s.key) ∧
    ((A.applyAll es).findState s = .ok none ↔
      s.isAtom = true ∧ ∀ q ∈ (A.applyAll es).states, q.key ≠ s.key) ∧
    (A.Indexed → (∀ e ∈ es, ∀ n, e.EntersSource n → n.isAtom = true) →
      (A.applyAll es).Indexed) := by
  refine ⟨fun ts => findTransitionsOn_eq_ok_iff, fun ts => findTransitionsFrom_eq_ok_iff,
    fun ts hts ha => ?_, fun q => findState_eq_some_iff, exists_findState_iff,
    findState_eq_none_iff, indexed_applyAll⟩
  obtain ⟨hindexed, hs, rfl⟩ := findTransitionsFrom_eq_ok_iff.1 hts
  refine findTransitionsOn_eq_ok_iff.2 ⟨hindexed, hs, ha, ?_⟩
  rw [List.filter_filter]
  exact List.filter_congr fun t _ => Bool.and_comm _ _

theorem lookups_of_history_sample :
    (∃ ts, (sample.applyAll sampleHistory).findTransitionsOn "q0" "a" = .ok ts ∧
      ts.map (·.id.key) = [.text "t0"]) ∧
    ∃ q, (sample.applyAll sampleHistory).findState "q2" = .ok (some q) ∧ q.isAccept = true := by
  obtain ⟨hon, _, _, _, _, _, hindexed⟩ := lookups_of_history sample sampleHistory "q0" "a"
  obtain ⟨_, _, _, hstate, _⟩ := lookups_of_history sample sampleHistory "q2" "a"
  have hentered : ∀ e ∈ sampleHistory, ∀ n, e.EntersSource n → n.isAtom = true := by
    intro e he n hn
    simp only [sampleHistory, List.mem_cons, List.not_mem_nil, or_false] at he
    rcases he with rfl | rfl | rfl | rfl
    · cases hn
    · obtain rfl : "q0" = n := hn
      rfl
    · obtain ⟨fs, v, hfs, hv, _⟩ := hn
      obtain rfl := Json.obj.inj hfs
      simp at hv
    · cases hn
  have hall : ∀ t ∈ sample.transitions, t.source.isAtom = true := by decide
  refine ⟨⟨_, (hon _).2 ⟨hindexed hall hentered, rfl, rfl, rfl⟩, rfl⟩, ?_⟩
  exact ⟨_, (hstate _).2 ⟨List.mem_of_getElem? (i := 2) rfl, rfl⟩, rfl⟩

end Automaton

end DfaWorkbench
