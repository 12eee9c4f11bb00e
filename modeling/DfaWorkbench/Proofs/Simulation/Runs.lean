import DfaWorkbench.Proofs.Simulation.Moves
import DfaWorkbench.Simulation.Simulator

/-! The simulator in terms of moves: what it holds after some moves of a word, what a step makes of
that, and where a run ends. -/

namespace DfaWorkbench

namespace Simulator

variable {A : Automaton} {q : State} {word : List Char} {ms : List Move}

def along (A : Automaton) (q : State) (word : List Char) (ms : List Move) : Simulator where
  status :=
    if ms.length < word.length then .running
    else if (Move.lastFrom q ms).isAccept then .accepted
    else .rejected
  automaton? := some A
  input := word
  current? := some (Move.lastFrom q ms)
  stepIndex := ms.length
  stuckSymbol := none
  path := q.label :: ms.map (·.target.label)
  history := ms.map fun m => (m.source.label, m.symbol, m.target.label)

def stuckAt (A : Automaton) (q : State) (word : List Char) : Simulator :=
  { along A q word (A.movesFrom q word) with
    status := .rejected
    stuckSymbol := word[(A.movesFrom q word).length]? }

def atEnd (A : Automaton) (q : State) (word : List Char) : Simulator :=
  if (A.movesFrom q word).length < word.length then stuckAt A q word
  else along A q word (A.movesFrom q word)

lemma isRunning_along : (along A q word ms).isRunning = true ↔ ms.length < word.length := by
  simp only [isRunning, along]
  split_ifs <;> simp_all

lemma path_along : (along A q word ms).path = (q :: ms.map Move.target).map State.label := by
  simp [along]

lemma opened_eq_along (A : Automaton) (q : State) (word : List Char) :
    opened A q word = along A q word [] := by
  cases word with
  | nil => rfl
  | cons a word => rfl

lemma begin_of_isReady (h : A.isReady = true) (hq : A.startState? = some q) (word : List Char) :
    begin A word = .ok (along A q word []) := by
  rw [begin, Automaton.validated_of_isReady h]
  simp only [Except.mapError, bind, Except.bind, Automaton.errors_eq_nil_of_isReady h, hq,
    opened_eq_along]
  rfl

lemma begin_error_of_not_isReady (h : A.isReady = false) (word : List Char) :
    ∃ e, begin A word = .error e ∧ e.isFault = false := by
  rw [begin]
  cases hv : A.validated with
  | error e => exact ⟨.unfitName e, rfl, rfl⟩
  | ok ds =>
    obtain rfl := Automaton.eq_validate_of_validated hv
    simp only [Except.mapError, bind, Except.bind]
    cases he : Diagnostic.errors A.validate with
    | nil => simp [Automaton.isReady, Automaton.errors, he] at h
    | cons d ds => exact ⟨.notReady (d :: ds), rfl, rfl⟩

lemma startState?_of_isReady (h : A.isReady = true) : ∃ q, A.startState? = some q := by
  obtain ⟨q, hq⟩ := (Automaton.isReady_iff_deterministic.1 h).start
  exact ⟨q, by rw [Automaton.startState?, hq]⟩

lemma moveTo_along {m : Move} (hsource : m.source = Move.lastFrom q ms)
    (hl : ms.length < word.length) :
    (along A q word ms).moveTo (Move.lastFrom q ms) m.symbol m.target =
      along A q word (ms ++ [m]) := by
  simp only [moveTo, conclude, along, List.length_append, List.length_singleton,
    Move.lastFrom_append, List.map_append, List.map_cons, List.map_nil, hsource, List.cons_append]
  by_cases he : ms.length + 1 = word.length
  · simp [he]
  · have hlt : ms.length + 1 < word.length := by omega
    simp [he, hlt, hl]

lemma step_along {m : Move} (hp : ms ++ [m] <+: A.movesFrom q word) :
    (along A q word ms).step = .ok (along A q word (ms ++ [m])) := by
  obtain ⟨hsource, hsymbol, hnext⟩ := Automaton.movesFrom_concat hp
  obtain ⟨t, hfirst, htarget⟩ := Automaton.next?_eq_some_iff.1 hnext
  have hl : ms.length < word.length := (List.getElem?_eq_some_iff.1 hsymbol).1
  rw [step, if_pos (isRunning_along.2 hl), ← moveTo_along hsource hl]
  simp only [advance, along, hsymbol, hfirst, htarget]

lemma step_stuck (h : A.Deterministic) (hl : (A.movesFrom q word).length < word.length) :
    (along A q word (A.movesFrom q word)).step = .ok (stuckAt A q word) := by
  obtain ⟨a, hsymbol, hnext⟩ := Automaton.movesFrom_stuck hl
  rw [step, if_pos (isRunning_along.2 hl)]
  simp only [advance, along, hsymbol, h.next?_eq_none_iff.1 hnext, stuckAt, getStuck]

lemma step_cases (h : A.Deterministic) (hp : ms <+: A.movesFrom q word)
    (hl : ms.length < word.length) :
    (∃ m, ms ++ [m] <+: A.movesFrom q word ∧
      (along A q word ms).step = .ok (along A q word (ms ++ [m]))) ∨
    (ms = A.movesFrom q word ∧ (along A q word ms).step = .ok (stuckAt A q word)) := by
  obtain ⟨rest, hrest⟩ := hp
  cases rest with
  | nil =>
    obtain rfl : ms = A.movesFrom q word := by simpa using hrest
    exact .inr ⟨rfl, step_stuck h hl⟩
  | cons m rest =>
    have hp' : ms ++ [m] <+: A.movesFrom q word := ⟨rest, by simpa using hrest⟩
    exact .inl ⟨m, hp', step_along hp'⟩

lemma stepFor_of_not_running {s : Simulator} (h : s.isRunning = false) (n : ℕ) :
    s.stepFor n = .ok s := by
  cases n with
  | zero => rfl
  | succ n => simp [stepFor, h]

lemma isRunning_stuckAt : (stuckAt A q word).isRunning = false := rfl

lemma isRunning_atEnd : (atEnd A q word).isRunning = false := by
  rw [atEnd]
  split
  · rfl
  · next hl => exact Bool.eq_false_iff.2 (mt isRunning_along.1 hl)

lemma stepFor_along (h : A.Deterministic) (hp : ms <+: A.movesFrom q word) {n : ℕ}
    (hn : word.length ≤ ms.length + n) :
    (along A q word ms).stepFor n = .ok (atEnd A q word) := by
  have hle := hp.length_le
  have hmax := A.length_movesFrom_le q word
  induction n generalizing ms with
  | zero =>
    obtain rfl := hp.eq_of_length (by omega)
    rw [atEnd, if_neg (by omega)]
    rfl
  | succ n ih =>
    by_cases hl : ms.length < word.length
    · rw [stepFor, if_pos (isRunning_along.2 hl)]
      rcases step_cases h hp hl with ⟨m, hp', hstep⟩ | ⟨rfl, hstep⟩
      · rw [hstep]
        exact ih hp' (by simp; omega) hp'.length_le
      · rw [hstep, atEnd, if_pos hl]
        exact stepFor_of_not_running isRunning_stuckAt n
    · obtain rfl := hp.eq_of_length (by omega)
      rw [atEnd, if_neg hl]
      exact stepFor_of_not_running (Bool.eq_false_iff.2 (mt isRunning_along.1 hl)) _

lemma run_along (h : A.Deterministic) (hp : ms <+: A.movesFrom q word) :
    (along A q word ms).run = .ok (atEnd A q word) := by
  refine stepFor_along h hp ?_
  change word.length ≤ ms.length + (word.length - ms.length)
  omega

inductive OnRun (A : Automaton) (q : State) (word : List Char) : Simulator → Prop
  | along {ms : List Move} : ms <+: A.movesFrom q word → OnRun A q word (along A q word ms)
  | stuck : (A.movesFrom q word).length < word.length → OnRun A q word (stuckAt A q word)

variable {s t : Simulator}

lemma OnRun.step (h : A.Deterministic) (hs : OnRun A q word s) (hstep : s.step = .ok t) :
    OnRun A q word t := by
  cases hs with
  | stuck hl => cases hstep
  | @along ms hp =>
    by_cases hl : ms.length < word.length
    · rcases step_cases h hp hl with ⟨m, hp', hok⟩ | ⟨rfl, hok⟩
      · obtain rfl := Except.ok.inj (hok.symm.trans hstep)
        exact .along hp'
      · obtain rfl := Except.ok.inj (hok.symm.trans hstep)
        exact .stuck hl
    · rw [Simulator.step, if_neg (mt isRunning_along.1 hl)] at hstep
      cases hstep

lemma OnRun.stepFor (h : A.Deterministic) (hs : OnRun A q word s) {n : ℕ}
    (hn : s.stepFor n = .ok t) : OnRun A q word t := by
  induction n generalizing s with
  | zero => exact Except.ok.inj hn ▸ hs
  | succ n ih =>
    rw [Simulator.stepFor] at hn
    split at hn
    · obtain ⟨u, hstep, hn⟩ := Result.bind_eq_ok.1 hn
      exact ih (hs.step h hstep) hn
    · exact Except.ok.inj hn ▸ hs

lemma OnRun.exists_moves (hs : OnRun A q word s) :
    ∃ ms, ms <+: A.movesFrom q word ∧ s.current? = some (Move.lastFrom q ms) := by
  cases hs with
  | along hp => exact ⟨_, hp, rfl⟩
  | stuck hl => exact ⟨_, List.prefix_rfl, rfl⟩

lemma OnRun.eq_atEnd (hs : OnRun A q word s) (hend : s.isRunning = false) :
    s = atEnd A q word := by
  cases hs with
  | stuck hl => rw [atEnd, if_pos hl]
  | @along ms hp =>
    have hl := mt isRunning_along.2 (Bool.eq_false_iff.1 hend)
    have hle := A.length_movesFrom_le q word
    obtain rfl := hp.eq_of_length_le (by omega)
    rw [atEnd, if_neg hl]

lemma OnRun.run (h : A.Deterministic) (hs : OnRun A q word s) :
    s.run = .ok (atEnd A q word) := by
  cases hs with
  | along hp => exact run_along h hp
  | stuck hl =>
    rw [Simulator.run, stepFor_of_not_running isRunning_stuckAt, atEnd, if_pos hl]

end Simulator

lemma Automaton.simulate_of_isReady {A : Automaton} {q : State} (h : A.isReady = true)
    (hq : A.startState? = some q) (word : List Char) :
    A.simulate word = .ok (Simulator.atEnd A q word) := by
  rw [simulate, Simulator.begin_of_isReady h hq word]
  exact Simulator.run_along (isReady_iff_deterministic.1 h) (List.nil_prefix)

end DfaWorkbench
