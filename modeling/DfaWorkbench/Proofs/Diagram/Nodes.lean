import Mathlib.Data.List.Nodup
import Mathlib.Data.List.TakeWhile
import DfaWorkbench.Proofs.Diagram.Edges
import DfaWorkbench.Proofs.Sequence.Fresh
import DfaWorkbench.Proofs.Text.Cut

/-! The nodes of a diagram: one for each state and one that points at each start state. The end of
an edge is read as the name of a node up to its first colon. -/

namespace DfaWorkbench

variable {d : Diagram} {q : State}

namespace Automaton

def HasEdge (A : Automaton) (q : State) : Prop :=
  q ∈ A.startStates ∨
    ∃ p ∈ A.states, ∃ t ∈ A.transitions, t.isBetween q p = true ∨ t.isBetween p q = true

end Automaton

namespace Diagram

open Automaton

def stem (s : String) : String :=
  String.ofList (s.toList.takeWhile (· ≠ ':'))

lemma node_ofId (s : String) : (EdgeEnd.ofId s).node = stem s := by
  have hbefore : (splitColon s.toList).1 = s.toList.takeWhile (· ≠ ':') := by
    rw [splitColon]
    cases hcut : Text.cutAt [':'] s.toList with
    | none =>
      have hcolon := Text.cutAt_char_eq_none_iff.1 hcut
      refine (List.takeWhile_eq_self_iff.2 fun c hc => ?_).symm
      exact decide_eq_true (ne_of_mem_of_not_mem hc hcolon)
    | some sides =>
      have hcolon := Text.notMem_of_cutAt_char hcut
      have hbefore : ∀ c ∈ sides.1, decide (c ≠ ':') = true :=
        fun c hc => decide_eq_true (ne_of_mem_of_not_mem hc hcolon)
      rw [Text.eq_append_of_cutAt hcut, List.append_assoc, List.takeWhile_append_of_pos hbefore]
      simp
  exact congrArg String.ofList hbefore

lemma stem_eq_self_iff {s : String} : stem s = s ↔ ':' ∉ s.toList := by
  have hlist : stem s = s ↔ s.toList.takeWhile (· ≠ ':') = s.toList := by
    rw [stem, ← String.toList_inj, String.toList_ofList]
  rw [hlist, List.takeWhile_eq_self_iff]
  simp only [decide_eq_true_eq, List.forall_mem_ne']

lemma colon_notMem_pointerName (i : ℕ) : ':' ∉ (pointerName i).toList := by
  have hname : ':' ∉ "__start".toList := by decide
  have hdigits : ':' ∉ i.repr.toList := by
    rw [Nat.toList_repr]
    intro hmem
    have hdigit := Nat.isDigit_of_mem_toDigits (by decide) (by decide) hmem
    exact absurd hdigit (by decide)
  rw [pointerName, String.toList_append, List.mem_append, not_or]
  exact ⟨hname, hdigits⟩

lemma tails_pointers (d : Diagram) : d.pointers.map Edge.tail =
    (List.range d.automaton.startStates.length).map pointerName := by
  have hindices : d.pointers.map Edge.tail =
      (d.automaton.startStates.zipIdx.map Prod.snd).map pointerName := by
    rw [pointers, List.map_map, List.map_map]
    rfl
  rw [hindices, List.zipIdx_map_snd, List.range_eq_range']

lemma forall_pointers_iff {P : String → Prop} : (∀ e ∈ d.pointers, P e.tail ∧ P e.head) ↔
    (∀ i < d.automaton.startStates.length, P (pointerName i)) ∧
      ∀ q ∈ d.automaton.startStates, P q.id.shown := by
  rw [← List.forall_mem_map (f := fun q : State => q.id.shown), ← heads_pointers,
    List.forall_mem_map]
  simp only [← List.mem_range]
  rw [← List.forall_mem_map (f := pointerName), ← tails_pointers, List.forall_mem_map,
    forall₂_and]

lemma forall_ends_iff (h : d.automaton.Worded) {P : String → Prop} :
    (∀ e ∈ d.edges, P e.tail ∧ P e.head) ↔
      (∀ i < d.automaton.startStates.length, P (pointerName i)) ∧
        ∀ q ∈ d.automaton.states, d.automaton.HasEdge q → P q.id.shown := by
  obtain ⟨pairs, hpairs⟩ := exists_paired d.automaton
  rw [edges_eq, bundleEdges_eq h hpairs, List.forall_mem_append, forall_pointers_iff,
    List.forall_mem_map, and_assoc]
  refine and_congr_right fun _ => ⟨?_, ?_⟩
  · rintro ⟨hstarts, hjoined⟩ q hq (hstart | ⟨p, hp, t, ht, hbetween | hbetween⟩)
    · exact hstarts q hstart
    · exact (hjoined (q, p) (hpairs.mem_iff.2 ⟨hq, hp, t, ht, hbetween⟩)).1
    · exact (hjoined (p, q) (hpairs.mem_iff.2 ⟨hp, hq, t, ht, hbetween⟩)).2
  · refine fun hstates => ⟨fun q hq => hstates q (List.mem_filter.1 hq).1 (.inl hq), ?_⟩
    rintro ⟨p, q⟩ hmem
    obtain ⟨hp, hq, t, ht, hbetween⟩ := hpairs.mem_iff.1 hmem
    exact ⟨hstates p hp (.inr ⟨q, hq, t, ht, .inl hbetween⟩),
      hstates q hq (.inr ⟨p, hp, t, ht, .inr hbetween⟩)⟩

def Statement.node? : Statement → Option Node
  | .node n => some n
  | .edge _ => none

def nodes (d : Diagram) : List Node :=
  d.statements.filterMap Statement.node?

def declared (d : Diagram) : List String :=
  d.nodes.map Node.id

def pointerNode (index : ℕ) : Node where
  id := pointerName index
  label := ""
  shape := .invisible

lemma nodes_eq (d : Diagram) : d.nodes = d.automaton.states.map (stateNode d.marks) ++
    (List.range d.automaton.startStates.length).map pointerNode := by
  have hstates : (d.automaton.states.map fun q => Statement.node (stateNode d.marks q)).filterMap
      Statement.node? = d.automaton.states.map (stateNode d.marks) := by
    rw [List.filterMap_map]
    exact congrFun List.filterMap_eq_map _
  have hbundles : (d.bundleEdges.map Statement.edge).filterMap Statement.node? = [] := by
    rw [List.filterMap_map]
    exact List.filterMap_eq_nil_iff.2 fun _ _ => rfl
  rw [nodes, statements, List.filterMap_append, List.filterMap_append, hstates, hbundles,
    List.append_nil]
  refine congrArg (_ ++ ·) ?_
  rw [List.range_eq_range', ← List.zipIdx_map_snd, List.map_map, List.filterMap_flatMap,
    List.map_eq_flatMap]
  rfl

lemma declared_eq (d : Diagram) : d.declared = (d.automaton.states.map fun q => q.id.shown) ++
    (List.range d.automaton.startStates.length).map pointerName := by
  rw [declared, nodes_eq, List.map_append, List.map_map, List.map_map]
  rfl

lemma nodup_declared_iff (h : d.automaton.Worded) : d.declared.Nodup ↔
    ∀ q ∈ d.automaton.states, ∀ i < d.automaton.startStates.length,
      q.id.shown ≠ pointerName i := by
  have hpointers : ((List.range d.automaton.startStates.length).map pointerName).Nodup :=
    List.nodup_range.map (Sequence.numbered_injective "__start")
  rw [declared_eq, List.nodup_append, List.forall_mem_map]
  simp only [nodup_shown h, hpointers, true_and, List.forall_mem_map, List.mem_range]

lemma shown_mem_declared (hq : q ∈ d.automaton.states) : q.id.shown ∈ d.declared := by
  rw [declared_eq]
  exact List.mem_append_left _ (List.mem_map_of_mem (f := fun q : State => q.id.shown) hq)

lemma pointerName_mem_declared {i : ℕ} (hi : i < d.automaton.startStates.length) :
    pointerName i ∈ d.declared := by
  rw [declared_eq]
  exact List.mem_append_right _ (List.mem_map_of_mem (List.mem_range.2 hi))

/-- A diagram over texts declares a node for each state and a further one to point at each start
state. These are distinct exactly if no state has the name of a pointer. Its edges are drawn between
names that it declares, but read up to the first colon they lead to declared nodes exactly if the
part before the colon of each state with edges is the name of a node, too. -/
theorem nodes_of_worded (d : Diagram) (h : d.automaton.Worded) :
    d.written = .ok d.source ∧
    d.nodes = d.automaton.states.map (stateNode d.marks) ++
      (List.range d.automaton.startStates.length).map pointerNode ∧
    (d.declared.Nodup ↔ ∀ q ∈ d.automaton.states, ∀ i < d.automaton.startStates.length,
      q.id.shown ≠ pointerName i) ∧
    (∀ e ∈ d.edges, e.tail ∈ d.declared ∧ e.head ∈ d.declared) ∧
    ((∀ e ∈ d.edges, (EdgeEnd.ofId e.tail).node ∈ d.declared ∧
        (EdgeEnd.ofId e.head).node ∈ d.declared) ↔
      ∀ q ∈ d.automaton.states, d.automaton.HasEdge q → ':' ∈ q.id.shown.toList →
        stem q.id.shown ∈ d.declared) := by
  refine ⟨written_of_worded h, nodes_eq d, nodup_declared_iff h, ?_, ?_⟩
  · rw [forall_ends_iff h (P := (· ∈ d.declared))]
    exact ⟨fun i hi => pointerName_mem_declared hi, fun q hq _ => shown_mem_declared hq⟩
  · simp only [node_ofId]
    rw [forall_ends_iff h (P := (stem · ∈ d.declared))]
    constructor
    · exact fun ⟨_, hstates⟩ q hq hedge _ => hstates q hq hedge
    · refine fun hstems => ⟨fun i hi => ?_, fun q hq hedge => ?_⟩
      · rw [stem_eq_self_iff.2 (colon_notMem_pointerName i)]
        exact pointerName_mem_declared hi
      · by_cases hcolon : ':' ∈ q.id.shown.toList
        · exact hstems q hq hedge hcolon
        · rw [stem_eq_self_iff.2 hcolon]
          exact shown_mem_declared hq

def linked (source target : String) (hsource : source ≠ "") (htarget : target ≠ "")
    (hne : target ≠ source) : Diagram where
  automaton := {
    states :=
      [⟨target, target, .accept, State.origin, Name.isEmpty_text htarget,
          Name.isEmpty_text htarget⟩,
        ⟨source, source, .start, State.origin, Name.isEmpty_text hsource,
          Name.isEmpty_text hsource⟩]
    transitions := [⟨"lead", source, target, 'l', by decide, by decide⟩]
    alphabet := ["l"]
    keys_nodup := by simpa [State.key] using hne
    ids_atoms := by simp
    alphabet_nodup := by decide
    alphabet_atoms := by decide }
  title := "DFA"
  marks := {}

lemma worded_linked {source target : String} (hsource : source ≠ "") (htarget : target ≠ "")
    (hne : target ≠ source) : (linked source target hsource htarget hne).automaton.Worded where
  ids := by simp [linked, Name.isText]
  labels := by simp [linked, Name.isText]
  transitions := by simp [linked, Name.isText]
  alphabet := by simp [linked, Name.isText]

def looped : Diagram :=
  linked "hub" "hub:east" (by decide) (by decide) (by decide)

theorem nodes_of_worded_looped :
    looped.written = .ok looped.source ∧ looped.declared.Nodup ∧
      ∀ e ∈ looped.edges, (EdgeEnd.ofId e.tail).node ∈ looped.declared ∧
        (EdgeEnd.ofId e.head).node ∈ looped.declared := by
  obtain ⟨hwritten, _, hdistinct, _, hends⟩ := nodes_of_worded looped (worded_linked _ _ _)
  refine ⟨hwritten, hdistinct.2 (by decide), hends.2 fun q hq _ hcolon => ?_⟩
  have hstem : stem "hub:east" ∈ looped.declared := by decide
  rcases List.mem_pair.1 hq with rfl | rfl
  · exact hstem
  · exact absurd hcolon (by decide)

/-- The target has the name of a pointer, and the source has a colon in its name. -/
def misread : Diagram :=
  linked "a:b" "__start0" (by decide) (by decide) (by decide)

theorem nodes_not_distinct_misread :
    ¬ misread.declared.Nodup ∧
      ∃ e ∈ misread.edges, (EdgeEnd.ofId e.tail).node = "a" ∧
        (EdgeEnd.ofId e.tail).node ∉ misread.declared := by
  have hedges : misread.edges =
      [⟨"__start0", "a:b", none, false⟩, ⟨"a:b", "__start0", some "l", false⟩] := by decide
  refine ⟨by decide, ⟨"a:b", "__start0", some "l", false⟩, ?_, by decide, by decide⟩
  rw [hedges]
  exact List.mem_pair.2 (.inr rfl)

end Diagram

end DfaWorkbench
