import DfaWorkbench.Automaton.Edit
import DfaWorkbench.Proofs.Automaton.Lookup
import DfaWorkbench.Proofs.Automaton.Parts
import DfaWorkbench.Proofs.Name
import DfaWorkbench.Proofs.Result

namespace DfaWorkbench

variable {id source target : Name} {symbol value : Json} {t : Transition} {q s : State}
  {A B : Automaton} {alphabet : List Name}

lemma State.id_of_build {d : State.Draft} (h : d.build = .ok q) : q.id = d.id := by
  rw [State.Draft.build] at h
  split at h
  · cases h
  · obtain ⟨type, _, h⟩ := Result.bind_eq_ok.1 h
    obtain ⟨position, _, h⟩ := Result.bind_eq_ok.1 h
    exact (State.make_eq_ok_iff.1 (Result.mapError_eq_ok.1 h)).1

namespace Transition

lemma of_make_eq_ok (h : make id source target symbol = .ok t) :
    t.id = id ∧ t.source = source ∧ t.target = target ∧ symbol = .str t.symbolText := by
  cases symbol with
  | str s =>
    simp only [make] at h
    split at h
    · cases h
    · split at h
      · next c hc =>
        obtain ⟨hid, hmove⟩ := of_ofChar_eq_ok h
        rw [move, Prod.mk.injEq, Prod.mk.injEq] at hmove
        obtain ⟨hsource, rfl, htarget⟩ := hmove
        have hs : s = String.singleton t.symbol := String.toList_injective (by simp [hc])
        exact ⟨hid, hsource, htarget, by rw [hs, symbolText]⟩
      · cases h
  | _ =>
    simp only [make] at h
    split at h <;> cases h

lemma revise_target (t : Transition) (value : Json) :
    t.revise [("target", value)] = .ok { t with target := .of value } := by
  have hmake := ({ t with target := .of value } : Transition).make_parts
  rw [revise, List.foldlM_cons]
  exact Result.mapError_eq_ok.2 hmake

end Transition

namespace Automaton

lemma exists_addState (hq : q.id.isAtom = true) (hfresh : A.hasState q.key = false) :
    ∃ B, A.addState q = .ok B ∧ B.states = A.states ++ [q] ∧ B.transitions = A.transitions := by
  have hkeys : ((A.states ++ [q]).map State.key).Nodup := by
    rw [List.map_append, List.map_singleton, ← List.concat_eq_append]
    refine A.keys_nodup.concat fun hmem => ?_
    rw [hasState_iff.2 (List.mem_map.1 hmem)] at hfresh
    cases hfresh
  have hatoms : ∀ p ∈ A.states ++ [q], p.id.isAtom = true := by
    intro p hp
    rcases List.mem_append.1 hp with hp | hp
    · exact A.ids_atoms p hp
    · obtain rfl := List.mem_singleton.1 hp
      exact hq
  obtain ⟨B, hB⟩ : ∃ B, make (A.states ++ [q]) A.transitions A.alphabet = .ok B :=
    exists_make hkeys hatoms A.alphabet_atoms
  obtain ⟨hstates, htransitions, _⟩ := of_make_eq_ok hB
  exact ⟨B, hB, hstates, htransitions⟩

lemma of_updateState_eq_ok {revise : State → Except EntryError State}
    (h : A.updateState id revise = .ok B) : ∃ s ∈ A.states, s.key = id.key ∧
      ∃ r, revise s = .ok r ∧ B.transitions = A.transitions ∧
        B.states = A.states.map fun q => if q.key = id.key then r else q := by
  obtain ⟨k, hk, h⟩ := Result.bind_eq_ok.1 h
  obtain rfl := Name.key_of_atomKey (Result.mapError_eq_ok.1 hk)
  split at h
  · next hid =>
    obtain ⟨qs, hqs, h⟩ := Result.bind_eq_ok.1 h
    obtain ⟨hstates, htransitions, _⟩ := of_make_eq_ok (Result.mapError_eq_ok.1 h)
    obtain ⟨s, hs, hsk⟩ := hasState_iff.1 hid
    obtain ⟨r, _, hr⟩ := (Result.mapM_eq_ok hqs).1 s hs
    rw [if_pos hsk] at hr
    have hall : ∀ q ∈ A.states, (if q.key = id.key then revise q else .ok q) =
        .ok (if q.key = id.key then r else q) := by
      intro q hq
      split
      · next hqk => rw [eq_of_key_eq hq hs (hqk.trans hsk.symm), hr]
      · rfl
    rw [Result.mapM_of_forall hall] at hqs
    exact ⟨s, hs, hsk, r, hr, htransitions, hstates.trans (Except.ok.inj hqs).symm⟩
  · cases h

lemma of_freshTransitions_eq_ok {taken : List Key} {n : ℕ} {symbols : List Json}
    {new : List Transition} (h : freshTransitions source target taken n symbols = .ok new) :
    (∀ t ∈ new, t.source = source ∧ t.target = target) ∧
      symbols = new.map fun t => .str t.symbolText := by
  induction symbols generalizing taken n new with
  | nil =>
    obtain rfl := Except.ok.inj h
    simp
  | cons symbol symbols ih =>
    obtain ⟨t, ht, h⟩ := Result.bind_eq_ok.1 h
    obtain ⟨ts, hts, h⟩ := Result.bind_eq_ok.1 h
    obtain rfl := Except.ok.inj h
    obtain ⟨_, hsource, htarget, hsymbol⟩ := Transition.of_make_eq_ok ht
    obtain ⟨hends, hsymbols⟩ := ih hts
    refine ⟨List.forall_mem_cons.2 ⟨⟨hsource, htarget⟩, hends⟩, ?_⟩
    rw [List.map_cons, ← hsymbol, ← hsymbols]

lemma of_addTransitions_eq_ok {symbols : List Json}
    (h : A.addTransitions source target symbols = .ok B) : B.states = A.states ∧
      ∃ new, B.transitions = A.transitions ++ new ∧
        (∀ t ∈ new, t.source = source ∧ t.target = target) ∧
        symbols = new.map fun t => .str t.symbolText := by
  obtain ⟨_, _, h⟩ := Result.bind_eq_ok.1 h
  obtain ⟨new, hnew, h⟩ := Result.bind_eq_ok.1 h
  obtain ⟨hstates, htransitions, _⟩ := of_make_eq_ok h
  exact ⟨hstates, new, htransitions, of_freshTransitions_eq_ok hnew⟩

lemma of_updateTransition_target
    (h : A.updateTransition id (·.revise [("target", value)]) = .ok B) :
    (∃ t ∈ A.transitions, t.id.key = id.key) ∧ B.states = A.states ∧
      B.transitions = A.transitions.map fun t =>
        if t.id.key = id.key then { t with target := .of value } else t := by
  rw [updateTransition] at h
  split at h
  · next hid =>
    obtain ⟨ts, hts, h⟩ := Result.bind_eq_ok.1 h
    obtain rfl := Except.ok.inj h
    have hall : ∀ t ∈ A.transitions,
        (if t.id.key = id.key then t.revise [("target", value)] else .ok t) =
          .ok (if t.id.key = id.key then { t with target := .of value } else t) := by
      intro t _
      split
      · exact t.revise_target value
      · rfl
    rw [Result.mapM_of_forall hall] at hts
    exact ⟨by simpa [transition?] using hid, rfl, (Except.ok.inj hts).symm⟩
  · cases h

lemma exists_withAlphabet (h : ∀ a ∈ alphabet, a.isAtom = true) :
    ∃ B, A.withAlphabet alphabet = .ok B := by
  exact exists_make A.keys_nodup A.ids_atoms h

end Automaton

end DfaWorkbench
