import DfaWorkbench.Diagram.Dot
import DfaWorkbench.Proofs.Sequence.Image
import DfaWorkbench.Proofs.Validation.Worded

/-! The edges of a diagram: one for all transitions between the same two states, and one that points
at each start state. -/

namespace DfaWorkbench

variable {A : Automaton} {d : Diagram} {p q : State} {t : Transition}

def Transition.isBetween (t : Transition) (p q : State) : Bool :=
  t.source.key = p.key && t.target.key = q.key

namespace Automaton

def between (A : Automaton) (p q : State) : List Transition :=
  A.transitions.filter (·.isBetween p q)

def withoutDangling (A : Automaton) : Automaton :=
  { A with transitions := A.transitions.filter A.joins }

lemma isBetween_iff :
    t.isBetween p q = true ↔ t.source.key = p.key ∧ t.target.key = q.key := by
  simp [Transition.isBetween]

lemma joins_and_ends (hp : p ∈ A.states) (hq : q ∈ A.states) (t : Transition) :
    (A.joins t && (t.source.key, t.target.key) == (p.key, q.key)) = t.isBetween p q := by
  rw [Bool.eq_iff_iff, Bool.and_eq_true, beq_iff_eq, Prod.mk.injEq, isBetween_iff]
  refine and_iff_right_of_imp fun ⟨hsource, htarget⟩ => ?_
  rw [joins_iff]
  exact ⟨⟨p, hp, hsource.symm⟩, q, hq, htarget.symm⟩

end Automaton

namespace Diagram

open Automaton

structure Paired (A : Automaton) (pairs : List (State × State)) : Prop where
  keys : pairs.map (fun x => (x.1.key, x.2.key)) = (bundles A).map Prod.fst
  states : ∀ x ∈ pairs, x.1 ∈ A.states ∧ x.2 ∈ A.states

lemma exists_paired (A : Automaton) : ∃ pairs, Paired A pairs := by
  have hstates : ∀ ends ∈ (bundles A).map Prod.fst, ∃ x : State × State,
      (x.1.key, x.2.key) = ends ∧ x.1 ∈ A.states ∧ x.2 ∈ A.states := by
    intro ends hends
    obtain ⟨t, ht, rfl⟩ := Sequence.mem_keys_groupedBy.1 hends
    obtain ⟨⟨p, hp, hpk⟩, q, hq, hqk⟩ := joins_iff.1 (List.mem_filter.1 ht).2
    exact ⟨(p, q), by rw [hpk, hqk], hp, hq⟩
  obtain ⟨pairs, hkeys, hmem⟩ := Sequence.exists_map_eq hstates
  exact ⟨pairs, hkeys, hmem⟩

namespace Paired

variable {pairs : List (State × State)} (h : Paired A pairs)

include h

lemma nodup : pairs.Nodup := by
  apply List.Nodup.of_map fun x => (x.1.key, x.2.key)
  rw [h.keys]
  exact Sequence.nodup_keys_groupedBy _ _

lemma mem_iff : (p, q) ∈ pairs ↔
    p ∈ A.states ∧ q ∈ A.states ∧ ∃ t ∈ A.transitions, t.isBetween p q = true := by
  constructor
  · intro hmem
    obtain ⟨hp, hq⟩ := h.states _ hmem
    have hkey : (p.key, q.key) ∈ (bundles A).map Prod.fst :=
      h.keys ▸ List.mem_map_of_mem (f := fun x : State × State => (x.1.key, x.2.key)) hmem
    obtain ⟨t, ht, he⟩ := Sequence.mem_keys_groupedBy.1 hkey
    exact ⟨hp, hq, t, (List.mem_filter.1 ht).1, isBetween_iff.2 (Prod.mk.inj he)⟩
  · rintro ⟨hp, hq, t, ht, hbetween⟩
    rw [← joins_and_ends hp hq, Bool.and_eq_true, beq_iff_eq] at hbetween
    have hkey : (p.key, q.key) ∈ pairs.map fun x => (x.1.key, x.2.key) := by
      rw [h.keys]
      exact Sequence.mem_keys_groupedBy.2 ⟨t, List.mem_filter.2 ⟨ht, hbetween.1⟩, hbetween.2⟩
    obtain ⟨⟨p', q'⟩, hmem, he⟩ := List.mem_map.1 hkey
    obtain ⟨hp', hq'⟩ := h.states _ hmem
    obtain ⟨hpk, hqk⟩ := Prod.mk.inj he
    obtain rfl : p' = p := eq_of_key_eq hp' hp hpk
    obtain rfl : q' = q := eq_of_key_eq hq' hq hqk
    exact hmem

lemma bundles_eq : bundles A = pairs.map fun x => ((x.1.key, x.2.key), A.between x.1 x.2) := by
  have hkeys := h.keys
  rw [bundles, Sequence.keys_groupedBy] at hkeys
  rw [bundles, Sequence.groupedBy_eq, ← hkeys, List.map_map]
  refine List.map_congr_left fun x hx => ?_
  obtain ⟨hp, hq⟩ := h.states x hx
  refine Prod.ext rfl ?_
  change (A.transitions.filter A.joins).filter _ = A.transitions.filter _
  rw [List.filter_filter]
  refine List.filter_congr fun t _ => ?_
  rw [← joins_and_ends hp hq, Bool.and_comm]
  exact congrArg (A.joins t && ·) BEq.comm

lemma pairwise : pairs.Pairwise fun x y =>
    A.transitions.findIdx (·.isBetween x.1 x.2) < A.transitions.findIdx (·.isBetween y.1 y.2) := by
  have hkeys := Sequence.pairwise_findIdx_keys (fun t : Transition => (t.source.key, t.target.key))
    A.joins A.transitions
  rw [← Sequence.keys_groupedBy] at hkeys
  change ((bundles A).map Prod.fst).Pairwise _ at hkeys
  rw [← h.keys, List.pairwise_map] at hkeys
  refine hkeys.imp_of_mem fun {x y} hx hy hlt => ?_
  obtain ⟨hxp, hxq⟩ := h.states x hx
  obtain ⟨hyp, hyq⟩ := h.states y hy
  simpa only [joins_and_ends hxp hxq, joins_and_ends hyp hyq] using hlt

lemma flatMap_between_perm : (pairs.flatMap fun x => A.between x.1 x.2).Perm
    (A.transitions.filter A.joins) := by
  have hperm : ((bundles A).flatMap Prod.snd).Perm (A.transitions.filter A.joins) :=
    Sequence.flatMap_groupedBy_perm _ _
  rwa [h.bundles_eq, List.flatMap_map] at hperm

end Paired

def Statement.edge? : Statement → Option Edge
  | .node _ => none
  | .edge e => some e

def edges (d : Diagram) : List Edge :=
  d.statements.filterMap Statement.edge?

def pointers (d : Diagram) : List Edge :=
  d.automaton.startStates.zipIdx.map fun (q, i) => { tail := pointerName i, head := q.id.shown }

def edgeBetween (d : Diagram) (p q : State) : Edge where
  tail := p.id.shown
  head := q.id.shown
  label := some (", ".intercalate ((d.automaton.between p q).map Transition.symbolText))
  red := (d.automaton.between p q).any (·.id.key ∈ d.marks.highlight)

lemma edges_eq (d : Diagram) : d.edges = d.pointers ++ d.bundleEdges := by
  have hnodes : (d.automaton.states.map fun q => Statement.node (stateNode d.marks q)).filterMap
      Statement.edge? = [] := by
    rw [List.filterMap_map]
    exact List.filterMap_eq_nil_iff.2 fun _ _ => rfl
  have hpointers : (d.automaton.startStates.zipIdx.flatMap fun (q, i) => pointer q i).filterMap
      Statement.edge? = d.pointers := by
    rw [List.filterMap_flatMap, pointers, List.map_eq_flatMap]
    rfl
  have hbundles : (d.bundleEdges.map Statement.edge).filterMap Statement.edge? =
      d.bundleEdges := by
    rw [List.filterMap_map]
    exact List.filterMap_some
  rw [edges, statements, List.filterMap_append, List.filterMap_append, hnodes, hpointers,
    hbundles, List.nil_append]

lemma key_of_worded (h : A.Worded) (hq : q ∈ A.states) : q.key = .text q.id.shown := by
  obtain ⟨s, hs⟩ := Name.exists_text (h.ids q hq)
  rw [State.key, hs]
  rfl

lemma nodup_shown (h : A.Worded) : (A.states.map fun q => q.id.shown).Nodup := by
  have hkeys : A.states.map State.key = (A.states.map fun q => q.id.shown).map Key.text := by
    rw [List.map_map]
    exact List.map_congr_left fun q hq => key_of_worded h hq
  apply List.Nodup.of_map Key.text
  rw [← hkeys]
  exact A.keys_nodup

lemma bundleEdges_eq (h : d.automaton.Worded) {pairs : List (State × State)}
    (hpairs : Paired d.automaton pairs) :
    d.bundleEdges = pairs.map fun x => d.edgeBetween x.1 x.2 := by
  rw [bundleEdges, hpairs.bundles_eq, List.map_map]
  refine List.map_congr_left fun x hx => ?_
  obtain ⟨hp, hq⟩ := hpairs.states x hx
  simp only [Function.comp_apply, bundleEdge, edgeBetween, key_of_worded h hp, key_of_worded h hq,
    Key.shown]

lemma heads_pointers (d : Diagram) :
    d.pointers.map Edge.head = d.automaton.startStates.map fun q => q.id.shown := by
  have hheads : d.pointers.map Edge.head =
      (d.automaton.startStates.zipIdx.map Prod.fst).map fun q => q.id.shown := by
    rw [pointers, List.map_map, List.map_map]
    rfl
  rwa [List.zipIdx_map_fst] at hheads

lemma nodup_heads_pointers (h : d.automaton.Worded) : (d.pointers.map Edge.head).Nodup := by
  rw [heads_pointers]
  exact (nodup_shown h).sublist (List.filter_sublist.map _)

lemma count_pointers (h : d.automaton.Worded) (hq : q ∈ d.automaton.startStates) :
    (d.pointers.map Edge.head).count q.id.shown = 1 := by
  apply List.count_eq_one_of_mem (nodup_heads_pointers h)
  rw [heads_pointers]
  exact List.mem_map_of_mem (f := fun q : State => q.id.shown) hq

lemma bundles_withoutDangling (A : Automaton) : bundles A.withoutDangling = bundles A := by
  change Sequence.groupedBy _ ((A.transitions.filter A.joins).filter A.joins) =
    Sequence.groupedBy _ (A.transitions.filter A.joins)
  rw [List.filter_filter]
  simp only [Bool.and_self]

lemma statements_withoutDangling (d : Diagram) :
    { d with automaton := d.automaton.withoutDangling }.statements = d.statements := by
  rw [statements, statements, bundleEdges, bundleEdges, bundles_withoutDangling]
  rfl

lemma written_of_worded (h : d.automaton.Worded) : d.written = .ok d.source := by
  have htexts : Name.requireTexts (d.automaton.states.map State.id ++
      d.automaton.states.map State.label) = .ok () := by
    refine Name.requireTexts_of_isText (List.forall_mem_append.2 ⟨?_, ?_⟩)
    · exact List.forall_mem_map.2 h.ids
    · exact List.forall_mem_map.2 h.labels
  refine Result.bind_eq_ok.2 ⟨(), htexts,
    Result.bind_eq_ok.2 ⟨(), h.requireAtoms_sources,
    Result.bind_eq_ok.2 ⟨(), h.requireAtoms_targets, Result.bind_eq_ok.2 ⟨(), ?_, rfl⟩⟩⟩⟩
  refine Name.requireAtoms_of_isText fun n hn => ?_
  obtain ⟨⟨ends, ts⟩, hmem, hn⟩ := List.mem_flatMap.1 hn
  obtain ⟨t, ht, rfl⟩ := List.mem_map.1 hn
  have hts := (List.takeWhile_sublist _).subset ht
  obtain ⟨_, rfl⟩ := Sequence.mem_groupedBy.1 hmem
  exact (h.transitions t (List.mem_filter.1 (List.mem_filter.1 hts).1).1).1

/-- A diagram over texts is always drawn. Besides the pointers it has one edge for each pair of
states with a transition from the one to the other. The edges stand in the order in which such
transitions first occur, and together they hold each transition between states once. Transitions
that dangle draw nothing, and one pointer leads to each start state. -/
theorem edges_of_worded (d : Diagram) (h : d.automaton.Worded) :
    d.written = .ok d.source ∧
    (∃ pairs : List (State × State),
      d.edges = d.pointers ++ pairs.map (fun x => d.edgeBetween x.1 x.2) ∧
      pairs.Nodup ∧
      (∀ p q, (p, q) ∈ pairs ↔ p ∈ d.automaton.states ∧ q ∈ d.automaton.states ∧
        ∃ t ∈ d.automaton.transitions, t.isBetween p q = true) ∧
      (pairs.Pairwise fun x y => d.automaton.transitions.findIdx (·.isBetween x.1 x.2) <
        d.automaton.transitions.findIdx (·.isBetween y.1 y.2)) ∧
      (pairs.flatMap fun x => d.automaton.between x.1 x.2).Perm
        (d.automaton.transitions.filter d.automaton.joins)) ∧
    { d with automaton := d.automaton.withoutDangling }.statements = d.statements ∧
    ∀ q ∈ d.automaton.startStates, (d.pointers.map Edge.head).count q.id.shown = 1 := by
  obtain ⟨pairs, hpairs⟩ := exists_paired d.automaton
  refine ⟨written_of_worded h, ⟨pairs, ?_, hpairs.nodup, fun p q => hpairs.mem_iff,
    hpairs.pairwise, hpairs.flatMap_between_perm⟩, statements_withoutDangling d,
    fun q hq => count_pointers h hq⟩
  rw [edges_eq, bundleEdges_eq h hpairs]

def inner : State := ⟨"inner", "inner", .start, State.origin, by decide, by decide⟩

def outer : State := ⟨"outer", "outer", .accept, State.origin, by decide, by decide⟩

def doubled : Diagram where
  automaton := {
    states := [inner, outer]
    transitions :=
      [⟨"leak", "inner", "gone", 'v', by decide, by decide⟩,
        ⟨"pipe", "inner", "outer", 'w', by decide, by decide⟩,
        ⟨"drain", "outer", "inner", 'v', by decide, by decide⟩,
        ⟨"pipe", "inner", "outer", 'v', by decide, by decide⟩,
        ⟨"spare", "inner", "outer", 'w', by decide, by decide⟩,
        ⟨"seep", "gone", "outer", 'v', by decide, by decide⟩]
    alphabet := ["v", "w"]
    keys_nodup := by decide
    ids_atoms := by decide
    alphabet_nodup := by decide
    alphabet_atoms := by decide }
  title := "Doubled"
  marks := { highlight := [.text "pipe", .text "leak"] }

theorem edges_of_worded_doubled :
    doubled.written = .ok doubled.source ∧
      (⟨"inner", "outer", some "w, v, w", true⟩ : Edge) ∈ doubled.edges ∧
      (⟨"outer", "inner", some "v", false⟩ : Edge) ∈ doubled.edges ∧
      (doubled.pointers.map Edge.head).count "inner" = 1 := by
  have hworded : doubled.automaton.Worded := by constructor <;> decide
  obtain ⟨hwritten, ⟨pairs, hedges, _, hpairs, _⟩, _, hpointers⟩ := edges_of_worded doubled hworded
  have hdrawn {p q : State} (h : (p, q) ∈ pairs) : doubled.edgeBetween p q ∈ doubled.edges := by
    rw [hedges]
    exact List.mem_append_right _ (List.mem_map_of_mem h)
  have hinner : inner ∈ doubled.automaton.states := .head _
  have houter : outer ∈ doubled.automaton.states := .tail _ (.head _)
  refine ⟨hwritten, ?_, ?_, hpointers inner (List.mem_filter.2 ⟨hinner, rfl⟩)⟩
  · exact hdrawn ((hpairs inner outer).2 ⟨hinner, houter, by decide⟩)
  · exact hdrawn ((hpairs outer inner).2 ⟨houter, hinner, by decide⟩)

end Diagram

end DfaWorkbench
