import DfaWorkbench.Proofs.Name
import DfaWorkbench.Proofs.Simulation.Visits

/-! Runs get stuck where transitions are missing, and the warnings tell where that is. -/

namespace DfaWorkbench.Automaton

open Diagnostic

variable {A : Automaton} {q s : State} {word : List Char} {a : Char} {k : Key}

lemma stuckSymbol_atEnd : (Simulator.atEnd A s word).stuckSymbol = some a ↔
    word[(A.movesFrom s word).length]? = some a := by
  have hle := A.length_movesFrom_le s word
  rw [Simulator.atEnd]
  split
  · rfl
  · next hl =>
    rw [List.getElem?_eq_none (by omega)]
    simp [Simulator.along]

lemma exists_stuck_iff (hA : A.isReady = true) :
    (∃ word t, A.simulate word = .ok t ∧ t.stuckSymbol = some a) ↔
      ∃ q ∈ A.states, q.key ∈ A.reachable ∧ A.leaving q.key a = [] := by
  obtain ⟨s, hs⟩ := Simulator.startState?_of_isReady hA
  have h := isReady_iff_deterministic.1 hA
  have hmem := startState_mem hs
  have hnone {p : State} : A.next? p a = none ↔ A.leaving p.key a = [] := by
    rw [h.next?_eq_none_iff, firstOn?_eq_head?, List.head?_eq_none_iff]
  simp only [simulate_of_isReady hA hs, Except.ok.injEq, exists_eq_left', stuckSymbol_atEnd]
  constructor
  · rintro ⟨word, hsymbol⟩
    have hl : (A.movesFrom s word).length < word.length := (List.getElem?_eq_some_iff.1 hsymbol).1
    obtain ⟨b, hb, hnext⟩ := movesFrom_stuck hl
    obtain rfl := Option.some.inj (hsymbol.symm.trans hb)
    exact ⟨_, lastFrom_mem hmem List.prefix_rfl,
      (mem_reachable_iff hs).2 (chain_lastFrom hmem List.prefix_rfl), hnone.1 hnext⟩
  · rintro ⟨q, hq, hreach, hleaving⟩
    obtain ⟨word, hlength, hlast⟩ := h.exists_moves_of_chain ((mem_reachable_iff hs).1 hreach)
    obtain rfl := eq_of_key_eq (lastFrom_mem hmem List.prefix_rfl) hq hlast
    have hmoves : A.movesFrom s (word ++ [a]) = A.movesFrom s word := by
      rw [movesFrom_append hlength]
      simp [movesFrom, hnone.2 hleaving]
    exact ⟨word ++ [a], by simp [hmoves, hlength]⟩

lemma exists_unreachable_iff (hA : A.isReady = true) :
    (∃ d ∈ A.validate, d.kind = .unreachable ∧ k ∈ d.affected.map Name.key) ↔
      ∃ q ∈ A.states, q.key = k ∧ q.key ∉ A.reachable := by
  have hmem (ids : List Name) : (∃ d ∈ A.validate, d.kind = .unreachable ∧ d.affected = ids) ↔
      ∃ q ∈ A.states, q.key ∉ A.reachable ∧ [q.id] = ids := by
    have h := congrArg (ids ∈ ·) (@affected_reachabilityDiagnostics A)
    simpa [← filter_unreachable_validate, unreachableStates_of_isReady hA, and_assoc] using h
  constructor
  · rintro ⟨d, hd, hkind, hk⟩
    obtain ⟨q, hq, hreach, hids⟩ := (hmem d.affected).1 ⟨d, hd, hkind, rfl⟩
    rw [← hids] at hk
    exact ⟨q, hq, (List.mem_singleton.1 hk).symm, hreach⟩
  · rintro ⟨q, hq, rfl, hreach⟩
    obtain ⟨d, hd, hkind, hids⟩ := (hmem [q.id]).2 ⟨q, hq, hreach, rfl⟩
    exact ⟨d, hd, hkind, by simp [hids, State.key]⟩

theorem gets_stuck_iff_reported (A : Automaton) (hA : A.isReady = true)
    (hsymbols : ∀ n ∈ A.alphabet, ∃ c, n = Name.ofChar c) :
    (∃ word s a, A.simulate word = .ok s ∧ s.stuckSymbol = some a ∧ Name.ofChar a ∈ A.alphabet) ↔
      ∃ ds, A.validated = .ok ds ∧ ∃ d ∈ ds, ∃ id, d.kind = .missingTransition ∧
        d.affected = [id] ∧ ∀ e ∈ ds, e.kind = .unreachable → id.key ∉ e.affected.map Name.key := by
  have hreach {q : State} (hq : q ∈ A.states) :
      (∀ e ∈ A.validate, e.kind = .unreachable → q.key ∉ e.affected.map Name.key) ↔
        q.key ∈ A.reachable := by
    have hnamed := not_congr (exists_unreachable_iff (k := q.key) hA)
    push Not at hnamed
    refine hnamed.trans ⟨fun h => h q hq rfl, fun h p hp hk => ?_⟩
    rwa [hk]
  simp only [validated_of_isReady hA, Except.ok.injEq, exists_eq_left']
  constructor
  · rintro ⟨word, s, a, hs, hstuck, ha⟩
    obtain ⟨q, hq, hk, hleaving⟩ := (exists_stuck_iff hA).1 ⟨word, s, hs, hstuck⟩
    have hnone : A.transitionsOn q.key (Name.ofChar a).key = [] :=
      (A.members_on_char q.key a).trans hleaving
    obtain ⟨hd, hkind⟩ := mem_validate_missing.2 ⟨q, hq, _, ha, hnone, rfl⟩
    exact ⟨_, hd, q.id, hkind, rfl, (hreach hq).2 hk⟩
  · rintro ⟨d, hd, id, hkind, hid, hnamed⟩
    obtain ⟨q, hq, n, hn, hnone, rfl⟩ := mem_validate_missing.1 ⟨hd, hkind⟩
    obtain rfl : q.id = id := List.singleton_inj.1 hid
    obtain ⟨c, rfl⟩ := hsymbols n hn
    have hleaving : A.leaving q.key c = [] := (A.members_on_char q.key c).symm.trans hnone
    obtain ⟨word, s, hs, hstuck⟩ := (exists_stuck_iff hA).2 ⟨q, hq, (hreach hq).1 hnamed, hleaving⟩
    exact ⟨word, s, c, hs, hstuck, hn⟩

theorem gets_stuck_stranded : stranded.isReady = true ∧
    (∀ n ∈ stranded.alphabet, ∃ c, n = Name.ofChar c) ∧
    ∃ ds, stranded.validated = .ok ds ∧ ∃ d ∈ ds, ∃ id, d.kind = .missingTransition ∧
      d.affected = [id] ∧ ∀ e ∈ ds, e.kind = .unreachable → id.key ∉ e.affected.map Name.key := by
  have hready : stranded.isReady = true := by decide
  have hsymbols : ∀ n ∈ stranded.alphabet, ∃ c, n = Name.ofChar c :=
    List.forall_mem_cons.2 ⟨⟨'0', rfl⟩, List.forall_mem_singleton.2 ⟨'1', rfl⟩⟩
  refine ⟨hready, hsymbols, ?_⟩
  rw [← gets_stuck_iff_reported stranded hready hsymbols]
  exact ⟨['1'], _, '1', rfl, rfl, List.mem_cons_of_mem _ List.mem_cons_self⟩

end DfaWorkbench.Automaton
