import Mathlib.Data.List.Chain
import Mathlib.Data.List.Induction
import DfaWorkbench.Proofs.Automaton.Reachability
import DfaWorkbench.Proofs.Name
import DfaWorkbench.Proofs.Result

/-! The search as a loop that looks at one transition after another, with no bound on its rounds: it
ends, and what it has seen by then are the ids at the ends of paths. -/

namespace DfaWorkbench.Automaton

variable {A : Automaton} {s p q : Key} {seen queue ids : List Key} {work : List Key × List Key}

/-- The ids that have been seen and those that wait, once the target of a transition has joined both
unless it has been seen or is no state. -/
def lookAt (A : Automaton) (work : List Key × List Key) (t : Transition) : List Key × List Key :=
  if t.target.key ∈ work.1 ∨ A.hasState t.target.key = false then work
  else (work.1 ++ [t.target.key], work.2 ++ [t.target.key])

/-- As long as an id waits, all transitions that leave it are looked at; then the loop ends with the
ids that have been seen. -/
inductive Finds (A : Automaton) : List Key × List Key → List Key → Prop
  | done {seen : List Key} : Finds A (seen, []) seen
  | round {seen queue ids : List Key} {q : Key} :
      Finds A ((A.transitionsFrom q).foldl A.lookAt (seen, queue)) ids →
      Finds A (seen, q :: queue) ids

lemma foldl_lookAt (ts : List Transition) (seen queue : List Key) :
    ts.foldl A.lookAt (seen, queue) =
      (seen ++ ((ts.map (·.target.key)).filter fun p => p ∉ seen && A.hasState p).eraseDups,
        queue ++ ((ts.map (·.target.key)).filter fun p => p ∉ seen && A.hasState p).eraseDups) := by
  induction ts generalizing seen queue with
  | nil => simp
  | cons t ts ih =>
    rw [List.foldl_cons, lookAt, List.map_cons, List.filter_cons]
    by_cases h : t.target.key ∈ seen ∨ A.hasState t.target.key = false
    · have hskip : (decide (t.target.key ∉ seen) && A.hasState t.target.key) = false := by
        rcases h with h | h <;> simp [h]
      rw [if_pos h, hskip, if_neg Bool.false_ne_true, ih]
    · have hnew : (decide (t.target.key ∉ seen) && A.hasState t.target.key) = true := by
        simpa [not_or] using h
      -- What is new after `t` is what was new before it, but for the target of `t` itself.
      have hlater : (ts.map (·.target.key)).filter
            (fun p => p ∉ seen ++ [t.target.key] && A.hasState p) =
          ((ts.map (·.target.key)).filter fun p => p ∉ seen && A.hasState p).filter
            (!· == t.target.key) := by
        rw [List.filter_filter]
        refine List.filter_congr fun p _ => ?_
        by_cases hp : p = t.target.key <;> simp [hp]
      rw [if_neg h, if_pos hnew, ih, hlater, List.eraseDups_cons]
      simp

lemma foldl_lookAt_transitionsFrom (seen queue : List Key) :
    (A.transitionsFrom q).foldl A.lookAt (seen, queue) =
      (seen ++ A.unseenTargets A.bySource seen q, queue ++ A.unseenTargets A.bySource seen q) :=
  foldl_lookAt ..

lemma Finds.unique {ids' : List Key} (h : A.Finds work ids) (h' : A.Finds work ids') :
    ids = ids' := by
  induction h with
  | done => cases h'; rfl
  | round _ ih => cases h' with | round h' => exact ih h'

lemma Searched.finds (h : A.Searched s seen queue) {rounds : ℕ}
    (hr : A.states.length + queue.length ≤ rounds + seen.length) :
    A.Finds (seen, queue) (A.explore A.bySource rounds seen queue) := by
  induction rounds generalizing seen queue with
  | zero =>
    -- As many ids have been seen as there are states, so none waits.
    have hle := h.length_le
    obtain rfl : queue = [] := List.eq_nil_of_length_eq_zero (by omega)
    exact .done
  | succ rounds ih =>
    cases queue with
    | nil => exact .done
    | cons q queue =>
      refine .round ?_
      rw [foldl_lookAt_transitionsFrom]
      refine ih h.next ?_
      simp only [List.length_cons, List.length_append] at hr ⊢
      omega

lemma finds_iff (h : A.hasState s = true) :
    A.Finds ([s], [s]) ids ↔ ids = A.reachableFrom s := by
  have hfinds : A.Finds ([s], [s]) (A.reachableFrom s) := by
    rw [reachableFrom, if_pos h]
    exact (searched_start h).finds (by simp)
  exact ⟨fun hids => hids.unique hfinds, fun he => he ▸ hfinds⟩

structure IsPath (A : Automaton) (ids : List Key) : Prop where
  states : ∀ p ∈ ids, ∃ r ∈ A.states, r.key = p
  joined : ids.IsChain fun p q => ∃ t ∈ A.transitions, t.source.key = p ∧ t.target.key = q

lemma isPath_concat : A.IsPath (ids ++ [q]) ↔ A.IsPath ids ∧ A.hasState q = true ∧
    ∀ p ∈ ids.getLast?, ∃ t ∈ A.transitions, t.source.key = p ∧ t.target.key = q := by
  have hchain := @List.isChain_append Key
    (fun p q => ∃ t ∈ A.transitions, t.source.key = p ∧ t.target.key = q) ids [q]
  rw [hasState_iff]
  constructor
  · rintro ⟨hstates, hjoined⟩
    rw [List.forall_mem_append] at hstates
    obtain ⟨hjoined, _, hlast⟩ := hchain.1 hjoined
    exact ⟨⟨hstates.1, hjoined⟩, hstates.2 q (List.mem_singleton_self q),
      fun p hp => hlast p hp q rfl⟩
  · rintro ⟨⟨hstates, hjoined⟩, hq, hlast⟩
    refine ⟨List.forall_mem_append.2 ⟨hstates, List.forall_mem_singleton.2 hq⟩, hchain.2
      ⟨hjoined, .singleton q, fun p hp r hr => ?_⟩⟩
    obtain rfl : q = r := by simpa using hr
    exact hlast p hp

lemma Chain.exists_path (h : A.Chain s q) :
    ∃ ids, A.IsPath ids ∧ ids.head? = some s ∧ ids.getLast? = some q := by
  induction h with
  | here h =>
    exact ⟨[s], ⟨List.forall_mem_singleton.2 (hasState_iff.1 h), .singleton s⟩, rfl, rfl⟩
  | @step p t _ ht hsource hknown ih =>
    obtain ⟨ids, hpath, hhead, hlast⟩ := ih
    refine ⟨ids ++ [t.target.key], isPath_concat.2 ⟨hpath, hknown, fun r hr => ?_⟩, ?_, by simp⟩
    · obtain rfl : p = r := Option.some.inj (hlast.symm.trans hr)
      exact ⟨t, ht, hsource, rfl⟩
    · rw [List.head?_append, hhead, Option.some_or]

lemma IsPath.chain (h : A.IsPath ids) (hhead : ids.head? = some s)
    (hlast : ids.getLast? = some q) : A.Chain s q := by
  induction ids using List.reverseRecOn generalizing q with
  | nil => cases hhead
  | append_singleton ids r ih =>
    obtain rfl : r = q := by simpa using hlast
    obtain ⟨hids, hknown, hjoined⟩ := isPath_concat.1 h
    cases hl : ids.getLast? with
    | none =>
      obtain rfl := List.getLast?_eq_none_iff.1 hl
      obtain rfl : r = s := by simpa using hhead
      exact .here hknown
    | some p =>
      have hne : ids ≠ [] := by rintro rfl; cases hl
      rw [List.head?_append_of_ne_nil ids hne] at hhead
      obtain ⟨t, ht, hsource, rfl⟩ := hjoined p hl
      exact (ih hids hhead hl).step ht hsource hknown

lemma chain_iff_exists_path : A.Chain s q ↔
    ∃ ids, A.IsPath ids ∧ ids.head? = some s ∧ ids.getLast? = some q :=
  ⟨Chain.exists_path, fun ⟨_, h, hhead, hlast⟩ => h.chain hhead hlast⟩

lemma nodup_reachableFrom (A : Automaton) (s : Key) : (A.reachableFrom s).Nodup := by
  by_cases h : A.hasState s = true
  · exact (searched_reachableFrom h).nodup
  · rw [reachableFrom, if_neg h]
    exact List.nodup_nil

lemma reachableFrom_eq_nil_iff : A.reachableFrom s = [] ↔ A.hasState s = false := by
  constructor
  · intro h
    by_contra hs
    have hmem := (searched_reachableFrom (by simpa using hs)).start_mem
    simp [h] at hmem
  · intro h
    simp [reachableFrom, h]

def targetsOf (A : Automaton) (ids : List Key) : List Name :=
  (ids.flatMap (Sequence.members A.bySource)).map Transition.target

lemma mem_targetsOf {m : Name} : m ∈ A.targetsOf ids ↔
    ∃ t ∈ A.transitions, t.source.key ∈ ids ∧ t.target = m := by
  simp only [targetsOf, List.mem_map, List.mem_flatMap, members_bySource, List.mem_filter,
    decide_eq_true_eq]
  constructor
  · rintro ⟨t, ⟨k, hk, ht, rfl⟩, rfl⟩
    exact ⟨t, ht, hk, rfl⟩
  · rintro ⟨t, ht, hk, rfl⟩
    exact ⟨t, ⟨t.source.key, hk, ht, rfl⟩, rfl⟩

lemma mem_keys_of_mem_reachableFrom {n : Name} (h : q ∈ A.reachableFrom n.key) :
    q ∈ (n :: A.targetsOf (A.reachableFrom n.key)).map Name.key := by
  rw [List.map_cons, List.mem_cons]
  rcases (mem_reachableFrom_iff.1 h).eq_or_exists_step with rfl | ⟨t, ht, hsource, rfl⟩
  · exact .inl rfl
  · exact .inr (List.mem_map_of_mem (mem_targetsOf.2 ⟨t, ht, mem_reachableFrom_iff.2 hsource, rfl⟩))

lemma namesReachedFrom_eq {n : Name} (hn : n.isAtom = true)
    (hends : ∀ t ∈ A.transitions, t.source.isAtom = true ∧ t.target.isAtom = true) :
    A.namesReachedFrom n =
      .ok ((Sequence.distinct Name.key (n :: A.targetsOf (A.reachableFrom n.key))).filter
        (·.key ∈ A.reachableFrom n.key)) := by
  have hsources : Name.requireAtoms (A.transitions.map Transition.source) = .ok () :=
    Name.requireAtoms_of_isAtom (List.forall_mem_map.2 fun t ht => (hends t ht).1)
  have htargets : Name.requireAtoms (A.targetsOf (A.reachableFrom n.key)) = .ok () := by
    refine Name.requireAtoms_of_isAtom fun m hm => ?_
    obtain ⟨t, ht, _, rfl⟩ := mem_targetsOf.1 hm
    exact (hends t ht).2
  refine Result.bind_eq_ok.2 ⟨n.key, Name.atomKey_eq_ok hn, ?_⟩
  dsimp only
  split
  · next hempty =>
    simp [List.isEmpty_iff.1 hempty]
    rfl
  · exact Result.bind_eq_ok.2 ⟨(), hsources, Result.bind_eq_ok.2 ⟨(), htargets, rfl⟩⟩

lemma exists_namesReachedFrom {n : Name} (hn : n.isAtom = true)
    (hends : ∀ t ∈ A.transitions, t.source.isAtom = true ∧ t.target.isAtom = true) :
    ∃ ns, A.namesReachedFrom n = .ok ns ∧ (ns.map Name.key).Perm (A.reachableFrom n.key) := by
  refine ⟨_, namesReachedFrom_eq hn hends, ?_⟩
  have hnodup := Sequence.nodup_keys_distinct Name.key
    (n :: A.targetsOf (A.reachableFrom n.key))
  refine (List.perm_ext_iff_of_nodup (hnodup.sublist (List.filter_sublist.map _))
    (nodup_reachableFrom A n.key)).2 fun q => ?_
  rw [List.mem_map]
  constructor
  · rintro ⟨m, hm, rfl⟩
    exact of_decide_eq_true (List.mem_filter.1 hm).2
  · intro hq
    obtain ⟨m, hm, rfl⟩ :=
      List.mem_map.1 (Sequence.mem_keys_distinct.2 (mem_keys_of_mem_reachableFrom hq))
    exact ⟨m, List.mem_filter.2 ⟨hm, decide_eq_true hq⟩, rfl⟩

/-- For any automaton: from the id of a state the search ends, after as many rounds as the loop
takes, with the ids at the ends of the paths from there, each of them once; from an id that is no
state it finds nothing. That is what is reported, too, as long as all ids can be looked up. -/
theorem reachableFrom_search (A : Automaton) (s : Name) :
    (A.hasState s.key = true → ∀ ids,
      A.Finds ([s.key], [s.key]) ids ↔ ids = A.reachableFrom s.key) ∧
    (A.reachableFrom s.key).Nodup ∧
    (∀ q, q ∈ A.reachableFrom s.key ↔
      ∃ ids, A.IsPath ids ∧ ids.head? = some s.key ∧ ids.getLast? = some q) ∧
    (A.reachableFrom s.key = [] ↔ ¬ ∃ r ∈ A.states, r.key = s.key) ∧
    (s.isAtom = true →
      (∀ t ∈ A.transitions, t.source.isAtom = true ∧ t.target.isAtom = true) →
      ∃ ns, A.namesReachedFrom s = .ok ns ∧ (ns.map Name.key).Perm (A.reachableFrom s.key)) := by
  refine ⟨fun h _ => finds_iff h, nodup_reachableFrom A s.key, fun q => ?_, ?_,
    fun hs hends => exists_namesReachedFrom hs hends⟩
  · rw [mem_reachableFrom_iff, chain_iff_exists_path]
  · rw [reachableFrom_eq_nil_iff, ← hasState_iff, Bool.not_eq_true]

def tangled : Automaton where
  states :=
    [⟨"hub", "hub", .start, State.origin, by decide, by decide⟩,
      ⟨"islet", "islet", .normal, State.origin, by decide, by decide⟩,
      ⟨"gate", "gate", .accept, State.origin, by decide, by decide⟩]
  transitions :=
    [⟨"astray", "hub", "gone", 'c', by decide, by decide⟩,
      ⟨"there", "hub", "gate", 'c', by decide, by decide⟩,
      ⟨"again", "hub", "gate", 'c', by decide, by decide⟩,
      ⟨"return", "gate", "hub", 'd', by decide, by decide⟩,
      ⟨"ghost", "gone", "islet", 'd', by decide, by decide⟩]
  alphabet := ["c"]
  keys_nodup := by decide
  ids_atoms := by decide
  alphabet_nodup := by decide
  alphabet_atoms := by decide

theorem reachableFrom_search_tangled :
    tangled.Finds ([.text "hub"], [.text "hub"]) [.text "hub", .text "gate"] ∧
      tangled.reachableFrom (.text "gone") = [] ∧
      ∃ ns, tangled.namesReachedFrom "hub" = .ok ns ∧
        (ns.map Name.key).Perm [.text "hub", .text "gate"] := by
  obtain ⟨hfinds, _, _, _, hnames⟩ := reachableFrom_search tangled "hub"
  obtain ⟨_, _, _, hnone, _⟩ := reachableFrom_search tangled "gone"
  have hreached : tangled.reachableFrom (.text "hub") = [.text "hub", .text "gate"] := by decide
  refine ⟨(hfinds (by decide) _).2 hreached.symm, hnone.2 (by decide), ?_⟩
  obtain ⟨ns, hns, hperm⟩ := hnames rfl (by decide)
  exact ⟨ns, hns, hperm.trans (by rw [Name.key_text, hreached])⟩

end DfaWorkbench.Automaton
