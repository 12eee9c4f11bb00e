import DfaWorkbench.Proofs.Validation.Readiness
import DfaWorkbench.Simulation.Branching

/-! Acceptance from an id, by branches and, in a deterministic automaton, by the moves of a word. -/

namespace DfaWorkbench.Automaton

variable {A : Automaton} {q : State}

def AcceptsFrom (A : Automaton) (id : Key) : List Char → Prop
  | [] => ∃ q ∈ A.acceptStates, q.key = id
  | a :: word => ∃ t ∈ A.transitions, t.source.key = id ∧ t.symbol = a ∧
      A.AcceptsFrom t.target.key word

lemma mem_acceptStates {q : State} : q ∈ A.acceptStates ↔ q ∈ A.states ∧ q.isAccept = true :=
  List.mem_filter

lemma mem_startStates {q : State} : q ∈ A.startStates ↔ q ∈ A.states ∧ q.isStart = true :=
  List.mem_filter

lemma startStates_of_startState? (hq : A.startState? = some q) : A.startStates = [q] := by
  rw [startState?] at hq
  split at hq
  · next h => rw [h, Option.some.inj hq]
  · cases hq

lemma startState_mem (hq : A.startState? = some q) : q ∈ A.states := by
  have h : q ∈ A.startStates := by simp [startStates_of_startState? hq]
  exact (mem_startStates.1 h).1

lemma mem_branchStep {ids : List Key} {a : Char} {id : Key} :
    id ∈ A.branchStep ids a ↔
      ∃ t ∈ A.transitions, t.source.key ∈ ids ∧ t.symbol = a ∧ t.target.key = id := by
  simp [branchStep, and_assoc]

lemma anyAccepts_branchesFrom (ids : List Key) (word : List Char) :
    A.anyAccepts (A.branchesFrom ids word) = true ↔ ∃ id ∈ ids, A.AcceptsFrom id word := by
  induction word generalizing ids with
  | nil =>
    simp only [branchesFrom, List.foldl_nil, anyAccepts, AcceptsFrom, List.any_eq_true]
    constructor
    · rintro ⟨q, hq, hid⟩
      exact ⟨q.key, of_decide_eq_true hid, q, hq, rfl⟩
    · rintro ⟨_, hid, q, hq, rfl⟩
      exact ⟨q, hq, decide_eq_true hid⟩
  | cons a word ih =>
    change A.anyAccepts (A.branchesFrom (A.branchStep ids a) word) = true ↔ _
    rw [ih]
    constructor
    · rintro ⟨_, hid, hacc⟩
      obtain ⟨t, ht, hs, ha, rfl⟩ := mem_branchStep.1 hid
      exact ⟨t.source.key, hs, t, ht, rfl, ha, hacc⟩
    · rintro ⟨_, hid, t, ht, rfl, ha, hacc⟩
      exact ⟨t.target.key, mem_branchStep.2 ⟨t, ht, hid, ha, rfl⟩, hacc⟩

lemma acceptsByBranches_iff (word : List Char) :
    A.acceptsByBranches word = true ↔ ∃ q ∈ A.startStates, A.AcceptsFrom q.key word := by
  rw [acceptsByBranches, anyAccepts_branchesFrom]
  constructor
  · rintro ⟨_, hid, hacc⟩
    obtain ⟨q, hq, rfl⟩ := List.mem_map.1 hid
    exact ⟨q, hq, hacc⟩
  · rintro ⟨q, hq, hacc⟩
    exact ⟨q.key, List.mem_map_of_mem hq, hacc⟩

lemma Deterministic.target_known (h : A.Deterministic) {t : Transition} (ht : t ∈ A.transitions) :
    ∃ p, A.state? t.target.key = some p := by
  obtain ⟨_, p, hp, hk⟩ := joins_iff.1 (h.joined t ht)
  exact ⟨p, state?_eq_some_iff.2 ⟨hp, hk⟩⟩

lemma firstOn?_eq_none_iff {id : Key} {a : Char} :
    A.firstOn? id a = none ↔ ∀ t ∈ A.transitions, ¬ (t.source.key = id ∧ t.symbol = a) := by
  simp [firstOn?]

lemma mem_of_firstOn? {id : Key} {a : Char} {t : Transition} (h : A.firstOn? id a = some t) :
    t ∈ A.transitions ∧ t.source.key = id ∧ t.symbol = a := by
  rw [firstOn?_eq_head?] at h
  exact A.mem_leaving.1 (List.mem_of_head? h)

lemma Deterministic.firstOn?_eq_some_iff (h : A.Deterministic) {id : Key} {a : Char}
    {t : Transition} :
    A.firstOn? id a = some t ↔ t ∈ A.transitions ∧ t.source.key = id ∧ t.symbol = a := by
  refine ⟨mem_of_firstOn?, fun ht => ?_⟩
  have hm := A.mem_leaving.2 ht
  have hl := h.length_leaving_le_one id a
  rw [firstOn?_eq_head?]
  rcases hts : A.leaving id a with _ | ⟨u, _ | ⟨v, ts⟩⟩
  · simp [hts] at hm
  · simp_all
  · simp [hts] at hl

lemma Deterministic.next?_eq_none_iff (h : A.Deterministic) {q : State} {a : Char} :
    A.next? q a = none ↔ A.firstOn? q.key a = none := by
  cases ht : A.firstOn? q.key a with
  | none => simp [next?, ht]
  | some t =>
    obtain ⟨p, hp⟩ := h.target_known (mem_of_firstOn? ht).1
    simp [next?, ht, hp]

lemma next?_eq_some_iff {q p : State} {a : Char} : A.next? q a = some p ↔
    ∃ t, A.firstOn? q.key a = some t ∧ A.state? t.target.key = some p := by
  simp [next?, Option.bind_eq_some_iff]

lemma mem_states_of_next? {q p : State} {a : Char} (h : A.next? q a = some p) : p ∈ A.states := by
  obtain ⟨t, _, hp⟩ := next?_eq_some_iff.1 h
  exact (state?_eq_some_iff.1 hp).1

lemma Deterministic.acceptsFrom_cons (h : A.Deterministic) (q : State) (a : Char)
    (word : List Char) :
    A.AcceptsFrom q.key (a :: word) ↔ ∃ p, A.next? q a = some p ∧ A.AcceptsFrom p.key word := by
  rw [AcceptsFrom]
  constructor
  · rintro ⟨t, ht, hs, ha, hacc⟩
    obtain ⟨p, hp⟩ := h.target_known ht
    refine ⟨p, next?_eq_some_iff.2 ⟨t, h.firstOn?_eq_some_iff.2 ⟨ht, hs, ha⟩, hp⟩, ?_⟩
    rwa [(state?_eq_some_iff.1 hp).2]
  · rintro ⟨p, hn, hacc⟩
    obtain ⟨t, hf, hp⟩ := next?_eq_some_iff.1 hn
    obtain ⟨ht, hs, ha⟩ := mem_of_firstOn? hf
    refine ⟨t, ht, hs, ha, ?_⟩
    rwa [← (state?_eq_some_iff.1 hp).2]

lemma Deterministic.acceptsFrom_target (h : A.Deterministic) {t : Transition}
    (ht : t ∈ A.transitions) (word : List Char) :
    A.AcceptsFrom t.source.key (t.symbol :: word) ↔ A.AcceptsFrom t.target.key word := by
  constructor
  · rintro ⟨u, hu, hs, ha, hacc⟩
    have hfirst := h.firstOn?_eq_some_iff.2 ⟨hu, hs, ha⟩
    rw [h.firstOn?_eq_some_iff.2 ⟨ht, rfl, rfl⟩] at hfirst
    rwa [Option.some.inj hfirst]
  · intro hacc
    exact ⟨t, ht, rfl, rfl, hacc⟩

lemma Deterministic.acceptsFrom_iff (h : A.Deterministic) {q : State} (hq : q ∈ A.states)
    (word : List Char) :
    A.AcceptsFrom q.key word ↔ (A.movesFrom q word).length = word.length ∧
      (Move.lastFrom q (A.movesFrom q word)).isAccept = true := by
  induction word generalizing q with
  | nil =>
    simp only [AcceptsFrom, movesFrom, List.length_nil, Move.lastFrom, true_and]
    constructor
    · rintro ⟨p, hp, hk⟩
      obtain ⟨hp, ha⟩ := mem_acceptStates.1 hp
      rwa [← eq_of_key_eq hp hq hk]
    · intro ha
      exact ⟨q, mem_acceptStates.2 ⟨hq, ha⟩, rfl⟩
  | cons a word ih =>
    rw [h.acceptsFrom_cons, movesFrom]
    cases hn : A.next? q a with
    | none => simp
    | some p => simp [ih (mem_states_of_next? hn), Move.lastFrom]

end DfaWorkbench.Automaton
