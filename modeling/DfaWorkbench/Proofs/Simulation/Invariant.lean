import DfaWorkbench.Gallery
import DfaWorkbench.Proofs.Simulation.Runs

/-! What holds of a simulator whatever has been asked of it. -/

namespace DfaWorkbench.Simulator

variable {A : Automaton} {q : State} {word : List Char} {ms : List Move} {s t : Simulator}

/-- The simulators that can arise: idle, after some moves of a word, or stuck after all of them. -/
inductive Arisen : Simulator → Prop
  | idle : Arisen idle
  | along {A : Automaton} {q : State} {word : List Char} {ms : List Move} : A.isReady = true →
      A.startState? = some q → ms <+: A.movesFrom q word → Arisen (along A q word ms)
  | stuck {A : Automaton} {q : State} {word : List Char} : A.isReady = true →
      A.startState? = some q → (A.movesFrom q word).length < word.length →
      Arisen (stuckAt A q word)

def Sound (r : Except SimulationError Simulator) : Prop :=
  match r with
  | .ok s => Arisen s
  | .error e => e.isFault = false

lemma arisen_atEnd (h : A.isReady = true) (hq : A.startState? = some q) :
    Arisen (atEnd A q word) := by
  rw [atEnd]
  split
  · next hl => exact .stuck h hq hl
  · exact .along h hq List.prefix_rfl

lemma isFault_of_symbolOf {v : Json} {e : SimulationError} (h : symbolOf v = .error e) :
    e.isFault = false := by
  unfold symbolOf at h
  split at h
  · next text =>
    split at h
    · cases h
    · exact Except.error.inj h ▸ rfl
  · exact Except.error.inj h ▸ rfl

lemma isFault_of_wordOf {v : Json} {e : SimulationError} (h : wordOf v = .error e) :
    e.isFault = false := by
  rw [wordOf] at h
  split at h
  · exact Except.error.inj h ▸ rfl
  · obtain ⟨x, _, hx⟩ := Result.mapM_eq_error h
    exact isFault_of_symbolOf hx

lemma start_sound (A : Automaton) (input : Json) : Sound (start A input) := by
  rw [start]
  cases hw : wordOf input with
  | error e => exact isFault_of_wordOf hw
  | ok word =>
    change Sound (begin A word)
    cases hA : A.isReady with
    | true =>
      obtain ⟨q, hq⟩ := startState?_of_isReady hA
      rw [begin_of_isReady hA hq]
      exact .along hA hq List.nil_prefix
    | false =>
      obtain ⟨e, he, hf⟩ := begin_error_of_not_isReady hA word
      rw [he]
      exact hf

lemma step_sound (h : Arisen s) : Sound s.step := by
  cases h with
  | idle => exact rfl
  | @along A q word ms hA hq hp =>
    by_cases hl : ms.length < word.length
    · rcases step_cases (Automaton.isReady_iff_deterministic.1 hA) hp hl with
        ⟨m, hp', hstep⟩ | ⟨rfl, hstep⟩
      · rw [hstep]
        exact .along hA hq hp'
      · rw [hstep]
        exact .stuck hA hq hl
    · rw [step, if_neg (mt isRunning_along.1 hl)]
      exact rfl
  | stuck hA hq hl => exact rfl

lemma run_sound (h : Arisen s) : Sound s.run := by
  cases h with
  | idle => exact .idle
  | along hA hq hp =>
    rw [run_along (Automaton.isReady_iff_deterministic.1 hA) hp]
    exact arisen_atEnd hA hq
  | stuck hA hq hl =>
    rw [run, stepFor_of_not_running isRunning_stuckAt]
    exact .stuck hA hq hl

lemma Arisen.exists_run (h : Arisen s) : ∃ t, s.run = .ok t ∧ t.isRunning = false := by
  cases h with
  | idle => exact ⟨_, rfl, rfl⟩
  | along hA _ hp =>
    exact ⟨_, run_along (Automaton.isReady_iff_deterministic.1 hA) hp, isRunning_atEnd⟩
  | stuck => exact ⟨_, stepFor_of_not_running isRunning_stuckAt _, rfl⟩

lemma current?_of_arisen (h : Arisen s) : s = idle ∨ ∃ q, s.current? = some q := by
  cases h with
  | idle => exact .inl rfl
  | along => exact .inr ⟨_, rfl⟩
  | stuck => exact .inr ⟨_, rfl⟩

lemma summary_sound (h : Arisen s) : Sound (s.summary.map fun _ => s) := by
  rw [summary]
  split
  · next hf =>
    obtain rfl | ⟨q, hq⟩ := current?_of_arisen h
    · simp [isFinished, idle] at hf
    · rw [hq]
      exact h
  · exact rfl

lemma apply_sound (h : Arisen s) (op : Operation) : Sound (s.apply op) := by
  cases op with
  | start A input => exact start_sound A input
  | step => exact step_sound h
  | lockedStep => exact rfl
  | finish => exact run_sound h
  | summary => exact summary_sound h
  | reset => exact .idle

lemma arisen_applyOrKeep (h : Arisen s) (op : Operation) : Arisen (s.applyOrKeep op) := by
  have hs := apply_sound h op
  rw [applyOrKeep]
  cases hop : s.apply op with
  | ok t =>
    rw [hop] at hs
    exact hs
  | error e => exact h

lemma arisen_applyAll (h : Arisen s) (ops : List Operation) : Arisen (s.applyAll ops) := by
  induction ops generalizing s with
  | nil => exact h
  | cons op ops ih => exact ih (arisen_applyOrKeep h op)

/-- Path and history are those of the states visited over the part of the input consumed. -/
structure Follows (s : Simulator) (A : Automaton) (visited : List State) (current : State) :
    Prop where
  automaton_eq : s.automaton? = some A
  ready : A.isReady = true
  current_eq : s.current? = some current
  stepIndex_le : s.stepIndex ≤ s.input.length
  length_path : s.path.length = s.stepIndex + 1
  length_history : s.history.length = s.stepIndex
  history_eq : ∀ i < s.stepIndex, ∃ p a r, s.path[i]? = some p ∧ s.input[i]? = some a ∧
    s.path[i + 1]? = some r ∧ s.history[i]? = some (p, a, r)
  path_eq : s.path = visited.map State.label
  visited_mem : ∀ p ∈ visited, p ∈ A.states
  first : ∃ q, A.startStates = [q] ∧ visited.head? = some q
  last : visited.getLast? = some current
  moves : ∀ i < s.stepIndex, ∃ p a r, visited[i]? = some p ∧ s.input[i]? = some a ∧
    visited[i + 1]? = some r ∧
    ∃ t ∈ A.transitions, t.source.key = p.key ∧ t.symbol = a ∧ t.target.key = r.key

structure Judged (s : Simulator) (A : Automaton) (current : State) : Prop where
  not_idle : s.status ≠ .idle
  running : s.status = .running →
    s.stepIndex < s.input.length ∧ s.nextSymbol = s.input[s.stepIndex]?
  stuck_iff : s.stuckSymbol ≠ none ↔ s.status = .rejected ∧ s.stepIndex < s.input.length
  stuck : ∀ a, s.stuckSymbol = some a → s.input[s.stepIndex]? = some a ∧
    ∀ t ∈ A.transitions, ¬ (t.source.key = current.key ∧ t.symbol = a)
  finished : s.isFinished = true → s.stuckSymbol = none →
    s.stepIndex = s.input.length ∧ (s.status = .accepted ↔ current.isAccept = true)

lemma follows_along (hA : A.isReady = true) (hq : A.startState? = some q)
    (hp : ms <+: A.movesFrom q word) :
    (along A q word ms).Follows A (q :: ms.map Move.target) (Move.lastFrom q ms) where
  automaton_eq := rfl
  ready := hA
  current_eq := rfl
  stepIndex_le := Nat.le_trans hp.length_le (A.length_movesFrom_le q word)
  length_path := by simp [along]
  length_history := by simp [along]
  history_eq i hi := by
    have hm : ms[i]? = some ms[i] := List.getElem?_eq_getElem hi
    obtain ⟨hsource, hsymbol, _⟩ := Automaton.movesFrom_getElem? hp hm
    refine ⟨ms[i].source.label, ms[i].symbol, ms[i].target.label, ?_, hsymbol, ?_, ?_⟩
    · rw [path_along, List.getElem?_map, hsource]
      rfl
    · rw [path_along, List.getElem?_map, List.getElem?_cons_succ, List.getElem?_map, hm]
      rfl
    · simp [along, hm]
  path_eq := path_along
  visited_mem := Automaton.visited_mem (Automaton.startState_mem hq) hp
  first := ⟨q, Automaton.startStates_of_startState? hq, rfl⟩
  last := by
    rw [List.getLast?_eq_getElem?]
    simpa using Move.getElem?_length_lastFrom q ms
  moves i hi := by
    have hm : ms[i]? = some ms[i] := List.getElem?_eq_getElem hi
    obtain ⟨hsource, hsymbol, hnext⟩ := Automaton.movesFrom_getElem? hp hm
    obtain ⟨t, hfirst, htarget⟩ := Automaton.next?_eq_some_iff.1 hnext
    obtain ⟨ht, hts, hta⟩ := Automaton.mem_of_firstOn? hfirst
    exact ⟨_, _, _, hsource, hsymbol, by simp [hm], t, ht, hts, hta,
      (Automaton.state?_eq_some_iff.1 htarget).2.symm⟩

lemma judged_along (hp : ms <+: A.movesFrom q word) :
    (along A q word ms).Judged A (Move.lastFrom q ms) := by
  have hle : ms.length ≤ word.length := Nat.le_trans hp.length_le (A.length_movesFrom_le q word)
  by_cases hl : ms.length < word.length
  · constructor <;> simp [along, isFinished, nextSymbol, isRunning, hl]
  · have he : ms.length = word.length := by omega
    cases ha : (Move.lastFrom q ms).isAccept <;>
      constructor <;> simp [along, isFinished, ha, he]

lemma follows_stuckAt (hA : A.isReady = true) (hq : A.startState? = some q) :
    (stuckAt A q word).Follows A (q :: (A.movesFrom q word).map Move.target)
      (Move.lastFrom q (A.movesFrom q word)) := by
  have h : (along A q word (A.movesFrom q word)).Follows A _ _ :=
    follows_along hA hq List.prefix_rfl
  exact { h with }

lemma judged_stuckAt (hA : A.isReady = true) (hl : (A.movesFrom q word).length < word.length) :
    (stuckAt A q word).Judged A (Move.lastFrom q (A.movesFrom q word)) := by
  obtain ⟨a, hsymbol, hnext⟩ := Automaton.movesFrom_stuck hl
  have hd := Automaton.isReady_iff_deterministic.1 hA
  have hnone := Automaton.firstOn?_eq_none_iff.1 (hd.next?_eq_none_iff.1 hnext)
  constructor
  · simp [stuckAt]
  · simp [stuckAt]
  · simp [stuckAt, along, hl]
  · intro b hb
    obtain rfl : a = b := by simpa [stuckAt, hsymbol] using hb
    exact ⟨hsymbol, hnone⟩
  · simp [stuckAt, hsymbol]

/-- Whatever has been asked of a simulator, and whether or not it was refused, the simulator is
idle, or its fields are those of a run of a ready automaton. No operation on it ends in a fault. -/
theorem applyAll_invariant (ops : List Operation) :
    (idle.applyAll ops = idle ∨ ∃ A visited current,
      (idle.applyAll ops).Follows A visited current ∧ (idle.applyAll ops).Judged A current) ∧
    ∀ op e, (idle.applyAll ops).apply op = .error e → e.isFault = false := by
  have h := arisen_applyAll .idle ops
  constructor
  · generalize idle.applyAll ops = s at h
    cases h with
    | idle => exact .inl rfl
    | along hA hq hp => exact .inr ⟨_, _, _, follows_along hA hq hp, judged_along hp⟩
    | stuck hA hq hl => exact .inr ⟨_, _, _, follows_stuckAt hA hq, judged_stuckAt hA hl⟩
  · intro op e he
    have hs := apply_sound h op
    rw [he] at hs
    exact hs

end DfaWorkbench.Simulator
