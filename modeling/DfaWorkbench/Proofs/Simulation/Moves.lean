import DfaWorkbench.Proofs.Simulation.Acceptance

/-! The moves of a word: each one takes a transition on its symbol from where the one before it
ended, and they break off only at a symbol that leads nowhere. -/

namespace DfaWorkbench

variable {A : Automaton} {q : State} {word : List Char} {ms : List Move} {m : Move}

namespace Move

lemma lastFrom_append (q : State) (ms : List Move) (m : Move) :
    lastFrom q (ms ++ [m]) = m.target := by
  induction ms generalizing q with
  | nil => rfl
  | cons m₀ ms ih => exact ih m₀.target

lemma getElem?_length_lastFrom (q : State) (ms : List Move) :
    (q :: ms.map Move.target)[ms.length]? = some (lastFrom q ms) := by
  induction ms generalizing q with
  | nil => rfl
  | cons m ms ih => exact ih m.target

end Move

namespace Automaton

lemma movesFrom_eq_cons (h : A.movesFrom q word = m :: ms) :
    ∃ w, word = m.symbol :: w ∧ m.source = q ∧ A.next? q m.symbol = some m.target ∧
      A.movesFrom m.target w = ms := by
  cases word with
  | nil => simp [movesFrom] at h
  | cons a w =>
    rw [movesFrom] at h
    cases hn : A.next? q a with
    | none => simp [hn] at h
    | some p =>
      rw [hn, List.cons.injEq] at h
      obtain ⟨rfl, hms⟩ := h
      exact ⟨w, rfl, rfl, hn, hms⟩

lemma movesFrom_getElem? (hp : ms <+: A.movesFrom q word) {i : ℕ} (hi : ms[i]? = some m) :
    (q :: ms.map Move.target)[i]? = some m.source ∧ word[i]? = some m.symbol ∧
      A.next? m.source m.symbol = some m.target := by
  induction ms generalizing q word i with
  | nil => simp at hi
  | cons m₀ ms ih =>
    obtain ⟨rest, hrest⟩ := hp
    obtain ⟨w, rfl, rfl, hn, hms⟩ := movesFrom_eq_cons hrest.symm
    cases i with
    | zero =>
      obtain rfl : m₀ = m := by simpa using hi
      exact ⟨rfl, rfl, hn⟩
    | succ i => exact ih ⟨rest, hms.symm⟩ hi

lemma movesFrom_concat (hp : ms ++ [m] <+: A.movesFrom q word) :
    m.source = Move.lastFrom q ms ∧ word[ms.length]? = some m.symbol ∧
      A.next? (Move.lastFrom q ms) m.symbol = some m.target := by
  obtain ⟨hsource, hsymbol, hnext⟩ :=
    movesFrom_getElem? hp (i := ms.length) (m := m) (by simp)
  have hlast : m.source = Move.lastFrom q ms := by
    rw [List.map_append, ← List.cons_append, List.getElem?_append_left (by simp),
      Move.getElem?_length_lastFrom] at hsource
    exact (Option.some.inj hsource).symm
  exact ⟨hlast, hsymbol, hlast ▸ hnext⟩

lemma length_movesFrom_le (A : Automaton) (q : State) (word : List Char) :
    (A.movesFrom q word).length ≤ word.length := by
  induction word generalizing q with
  | nil => simp [movesFrom]
  | cons a word ih =>
    rw [movesFrom]
    cases A.next? q a with
    | none => simp
    | some p => simpa using ih p

lemma movesFrom_singleton {a : Char} {p : State} (h : A.next? q a = some p) :
    A.movesFrom q [a] = [⟨q, a, p⟩] := by
  simp [movesFrom, h]

lemma movesFrom_append {u : List Char} (h : (A.movesFrom q u).length = u.length) (v : List Char) :
    A.movesFrom q (u ++ v) =
      A.movesFrom q u ++ A.movesFrom (Move.lastFrom q (A.movesFrom q u)) v := by
  induction u generalizing q with
  | nil => rfl
  | cons a u ih =>
    rw [movesFrom] at h
    cases hn : A.next? q a with
    | none => simp [hn] at h
    | some p =>
      simp only [hn, List.length_cons, Nat.add_right_cancel_iff] at h
      rw [List.cons_append, movesFrom, movesFrom, hn]
      exact congrArg (⟨q, a, p⟩ :: ·) (ih h)

lemma movesFrom_append_of_stuck {u : List Char} (h : (A.movesFrom q u).length < u.length)
    (v : List Char) : A.movesFrom q (u ++ v) = A.movesFrom q u := by
  induction u generalizing q with
  | nil => simp at h
  | cons a u ih =>
    rw [movesFrom] at h
    rw [List.cons_append, movesFrom, movesFrom]
    cases hn : A.next? q a with
    | none => rfl
    | some p =>
      simp only [hn, List.length_cons, Nat.add_lt_add_iff_right] at h
      exact congrArg (⟨q, a, p⟩ :: ·) (ih h)

lemma movesFrom_stuck (h : (A.movesFrom q word).length < word.length) :
    ∃ a, word[(A.movesFrom q word).length]? = some a ∧
      A.next? (Move.lastFrom q (A.movesFrom q word)) a = none := by
  induction word generalizing q with
  | nil => simp at h
  | cons a word ih =>
    rw [movesFrom] at h ⊢
    cases hn : A.next? q a with
    | none => exact ⟨a, rfl, hn⟩
    | some p =>
      simp only [hn, List.length_cons, Nat.add_lt_add_iff_right] at h
      exact ih h

lemma visited_mem (hq : q ∈ A.states) (hp : ms <+: A.movesFrom q word) :
    ∀ p ∈ q :: ms.map Move.target, p ∈ A.states := by
  intro p hmem
  rcases List.mem_cons.1 hmem with rfl | hmem
  · exact hq
  · obtain ⟨m, hm, rfl⟩ := List.mem_map.1 hmem
    obtain ⟨i, hi⟩ := List.mem_iff_getElem?.1 hm
    exact mem_states_of_next? (movesFrom_getElem? hp hi).2.2

lemma lastFrom_mem (hq : q ∈ A.states) (hp : ms <+: A.movesFrom q word) :
    Move.lastFrom q ms ∈ A.states :=
  visited_mem hq hp _ (List.mem_of_getElem? (Move.getElem?_length_lastFrom q ms))

end Automaton

end DfaWorkbench
