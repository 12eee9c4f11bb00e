import DfaWorkbench.Proofs.Simulation.Partiality

/-! Longer words. The run of a word goes the way that the run of any beginning of it goes, and ends
there if that one gets stuck. -/

namespace DfaWorkbench

namespace Simulator

variable {A : Automaton} {q : State} {u v word : List Char} {ms : List Move}

inductive Steps : ℕ → Simulator → Simulator → Prop
  | zero (s : Simulator) : Steps 0 s s
  | succ {n : ℕ} {s t r : Simulator} : Steps n s t → t.step = .ok r → Steps (n + 1) s r

lemma steps_along (hp : ms <+: A.movesFrom q word) :
    Steps ms.length (along A q word []) (along A q word ms) := by
  induction ms using List.reverseRecOn with
  | nil => exact .zero _
  | append_singleton ms m ih =>
    rw [List.length_append, List.length_singleton]
    apply Steps.succ
    · exact ih ((List.prefix_append ms [m]).trans hp)
    · exact step_along hp

lemma path_extends (h : A.movesFrom q u <+: A.movesFrom q word) :
    (atEnd A q u).path <+: (atEnd A q word).path := by
  have hpath (w : List Char) :
      (atEnd A q w).path = q.label :: (A.movesFrom q w).map (·.target.label) := by
    rw [atEnd]
    split <;> rfl
  rw [hpath, hpath, List.cons_prefix_cons]
  exact ⟨rfl, h.map _⟩

lemma history_extends (h : A.movesFrom q u <+: A.movesFrom q word) :
    (atEnd A q u).history <+: (atEnd A q word).history := by
  have hhistory (w : List Char) : (atEnd A q w).history =
      (A.movesFrom q w).map fun m => (m.source.label, m.symbol, m.target.label) := by
    rw [atEnd]
    split <;> rfl
  rw [hhistory, hhistory]
  exact h.map _

lemma atEnd_append_of_stuck (hl : (A.movesFrom q u).length < u.length) (v : List Char) :
    atEnd A q (u ++ v) = { atEnd A q u with input := u ++ v } := by
  have hmoves := Automaton.movesFrom_append_of_stuck hl v
  have hl' : (A.movesFrom q (u ++ v)).length < (u ++ v).length := by
    rw [hmoves, List.length_append]
    omega
  rw [atEnd, if_pos hl', atEnd, if_pos hl, stuckAt, stuckAt, hmoves, List.getElem?_append_left hl]
  rfl

lemma along_append (hl : (A.movesFrom q u).length = u.length) (hv : v ≠ []) :
    along A q (u ++ v) (A.movesFrom q u) =
      { atEnd A q u with input := u ++ v, status := .running } := by
  have hpos := List.length_pos_of_ne_nil hv
  have hlt : (A.movesFrom q u).length < (u ++ v).length := by
    rw [List.length_append]
    omega
  rw [atEnd, if_neg (by omega), along, if_pos hlt]
  rfl

lemma stuckSymbol_atEnd_eq_none_iff :
    (atEnd A q word).stuckSymbol = none ↔ (A.movesFrom q word).length = word.length := by
  have hle := A.length_movesFrom_le q word
  have hsymbol : (atEnd A q word).stuckSymbol = word[(A.movesFrom q word).length]? :=
    Option.ext fun a => Automaton.stuckSymbol_atEnd
  rw [hsymbol, List.getElem?_eq_none_iff]
  omega

end Simulator

namespace Automaton

open Simulator

/-- If the run of a word gets stuck, that of a longer word gets stuck at the same place and differs
in nothing but its input. Otherwise it goes on where the shorter run has ended: as many steps as the
shorter word has symbols lead there, and the simulator is still running if there are more. -/
theorem simulate_append (A : Automaton) (hA : A.isReady = true) (u v : List Char) :
    ∃ s t, A.simulate u = .ok s ∧ A.simulate (u ++ v) = .ok t ∧
      (s.stuckSymbol ≠ none → t.status = .rejected ∧ t = { s with input := u ++ v }) ∧
      (s.stuckSymbol = none → s.path <+: t.path ∧ s.history <+: t.history ∧
        (v ≠ [] → ∀ input, wordOf input = .ok (u ++ v) → ∃ r, start A input = .ok r ∧
          Steps u.length r { s with input := u ++ v, status := .running })) := by
  obtain ⟨q, hq⟩ := startState?_of_isReady hA
  have hle := A.length_movesFrom_le q u
  refine ⟨_, _, simulate_of_isReady hA hq u, simulate_of_isReady hA hq (u ++ v), ?_, ?_⟩
  · intro hstuck
    rw [ne_eq, stuckSymbol_atEnd_eq_none_iff] at hstuck
    have hl : (A.movesFrom q u).length < u.length := by omega
    rw [atEnd_append_of_stuck hl, atEnd, if_pos hl]
    exact ⟨rfl, rfl⟩
  · intro hstuck
    rw [stuckSymbol_atEnd_eq_none_iff] at hstuck
    have hmoves := movesFrom_append hstuck v
    have hbegins : A.movesFrom q u <+: A.movesFrom q (u ++ v) := hmoves ▸ List.prefix_append _ _
    refine ⟨path_extends hbegins, history_extends hbegins, fun hv input hinput => ?_⟩
    refine ⟨along A q (u ++ v) [], ?_, ?_⟩
    · rw [start, hinput]
      exact begin_of_isReady hA hq (u ++ v)
    · rw [← along_append hstuck hv, ← hstuck]
      exact steps_along hbegins

theorem simulate_append_stranded : stranded.isReady = true ∧
    (∃ s t, stranded.simulate ['0', '1'] = .ok s ∧ stranded.simulate ['0', '1', '0'] = .ok t ∧
      s.stuckSymbol = some '1' ∧ t = { s with input := ['0', '1', '0'] }) ∧
    ∃ s r, stranded.simulate ['0'] = .ok s ∧ s.stuckSymbol = none ∧
      start stranded (.str "01") = .ok r ∧
        Steps 1 r { s with input := ['0', '1'], status := .running } := by
  have hready : stranded.isReady = true := by decide
  refine ⟨hready, ?_, ?_⟩
  · obtain ⟨s, t, hs, ht, hstuck, _⟩ := simulate_append stranded hready ['0', '1'] ['0']
    have hsymbol : s.stuckSymbol = some '1' := by
      obtain rfl := Except.ok.inj hs
      rfl
    exact ⟨s, t, hs, ht, hsymbol, (hstuck (by simp [hsymbol])).2⟩
  · obtain ⟨s, _, hs, _, _, hruns⟩ := simulate_append stranded hready ['0'] ['1']
    have hsymbol : s.stuckSymbol = none := by
      obtain rfl := Except.ok.inj hs
      rfl
    obtain ⟨_, _, hsteps⟩ := hruns hsymbol
    obtain ⟨r, hr, hsteps⟩ := hsteps (List.cons_ne_nil _ _) (.str "01") rfl
    exact ⟨s, r, hs, hsymbol, hr, hsteps⟩

end Automaton

end DfaWorkbench
