import Mathlib.Data.List.Perm.Basic
import DfaWorkbench.Proofs.Sequence.Image
import DfaWorkbench.Proofs.Simulation.Pruning
import DfaWorkbench.Proofs.Validation.Checks

/-! The alphabet of an automaton is for warnings only. What an automaton does, and what is wrong
with it, depends on its states and transitions. -/

namespace DfaWorkbench

variable {A B : Automaton} {d : Diagnostic} {q : State} {a : Name} {ds : List Diagnostic}

namespace Diagnostic

def ofGraph (ds : List Diagnostic) : List Diagnostic :=
  ds.filter fun d => d.kind ≠ .missingTransition ∧ d.kind ≠ .unknownSymbol

lemma ofGraph_append (ds es : List Diagnostic) : ofGraph (ds ++ es) = ofGraph ds ++ ofGraph es :=
  List.filter_append ..

lemma ofGraph_flatMap {α : Type} (xs : List α) (f : α → List Diagnostic) :
    ofGraph (xs.flatMap f) = xs.flatMap fun x => ofGraph (f x) :=
  List.filter_flatMap

lemma ofGraph_eq_self (h : ∀ d ∈ ds, d.kind ≠ .missingTransition ∧ d.kind ≠ .unknownSymbol) :
    ofGraph ds = ds :=
  List.filter_eq_self.2 fun d hd => decide_eq_true (h d hd)

lemma errors_ofGraph (ds : List Diagnostic) : errors (ofGraph ds) = errors ds := by
  rw [errors, errors, ofGraph, List.filter_filter]
  refine List.filter_congr fun d _ => ?_
  cases d <;> rfl

lemma flatMap_listed (ds : List Diagnostic) : ds.flatMap listed = (errors ds).flatMap listed := by
  rw [errors, Sequence.flatMap_filter]
  congr 1
  funext d
  split
  · rfl
  · next h => exact Automaton.listed_eq_nil (Bool.eq_false_iff.2 h)

end Diagnostic

namespace Automaton

open Diagnostic

def choicesOn (A : Automaton) (q : State) (a : Name) : List Diagnostic :=
  let ts := A.transitionsOn q.key a.key
  if 1 < ts.length then [A.choice q a ts] else []

lemma ofGraph_declaredDiagnostics (A : Automaton) (q : State) (a : Name) :
    ofGraph (A.declaredDiagnostics A.bySourceAndSymbol q a) = A.choicesOn q a := by
  rw [declaredDiagnostics, choicesOn, transitionsOn]
  rcases Sequence.members A.bySourceAndSymbol (q.key, a.key) with _ | ⟨t, _ | ⟨u, ts⟩⟩
  · rfl
  · rfl
  · rfl

lemma ofGraph_undeclaredDiagnostics (A : Automaton) (q : State) (s : String) :
    ofGraph (A.undeclaredDiagnostics A.bySourceAndSymbol q s) = A.choicesOn q s := by
  refine ofGraph_eq_self fun d hd => ?_
  obtain ⟨_, rfl⟩ := mem_undeclaredDiagnostics.1 hd
  simp [choice, kind]

lemma ofGraph_transitionDiagnostics (A : Automaton) : ofGraph A.transitionDiagnostics =
    A.states.flatMap fun q => (A.symbolsAt q).flatMap (A.choicesOn q) := by
  rw [transitionDiagnostics, ofGraph_flatMap]
  congr 1
  funext q
  rw [ofGraph_append, ofGraph_flatMap, ofGraph_flatMap, symbolsAt, List.flatMap_append,
    List.flatMap_map]
  simp only [ofGraph_declaredDiagnostics, ofGraph_undeclaredDiagnostics]

lemma choicesOn_flatMap (A : Automaton) (q : State) (as : List Name) :
    as.flatMap (A.choicesOn q) =
      (as.filter fun a => 1 < (A.transitionsOn q.key a.key).length).map fun a =>
        A.choice q a (A.transitionsOn q.key a.key) := by
  induction as with
  | nil => rfl
  | cons a as ih =>
    rw [List.flatMap_cons, ih, choicesOn, List.filter_cons]
    by_cases h : 1 < (A.transitionsOn q.key a.key).length
    · simp [h]
    · simp [h]

lemma mem_symbolsAt {t : Transition} (ht : t ∈ A.transitionsOn q.key a.key) :
    a ∈ A.symbolsAt q := by
  rw [transitionsOn, members_bySourceAndSymbol, List.mem_filter, Bool.and_eq_true,
    decide_eq_true_eq, decide_eq_true_eq] at ht
  obtain ⟨ht, hsource, hsymbol⟩ := ht
  obtain rfl : a = Name.text t.symbolText := Name.eq_text_of_key hsymbol.symm
  by_cases hdeclared : t.symbolKey ∈ A.alphabet.map Name.key
  · obtain ⟨b, hb, hk⟩ := List.mem_map.1 hdeclared
    obtain rfl : b = Name.text t.symbolText := Name.eq_text_of_key hk
    exact List.mem_append_left _ hb
  · refine List.mem_append_right _ (List.mem_map_of_mem ?_)
    exact (A.mem_undeclaredSymbols q _).2 ⟨t, ht, hsource, decide_eq_false hdeclared, rfl⟩

lemma mem_symbolsAt_choices :
    a ∈ (A.symbolsAt q).filter (fun a => 1 < (A.transitionsOn q.key a.key).length) ↔
      1 < (A.transitionsOn q.key a.key).length := by
  rw [List.mem_filter, decide_eq_true_eq, and_iff_right_iff_imp]
  intro h
  obtain ⟨t, ht⟩ := List.exists_mem_of_length_pos (Nat.lt_of_succ_lt h)
  exact mem_symbolsAt ht

lemma ofGraph_validate (A : Automaton) : ofGraph A.validate =
    if A.states.isEmpty then [noStates]
    else
      A.startDiagnostics ++ A.acceptDiagnostics ++
        (A.states.flatMap fun q => (A.symbolsAt q).flatMap (A.choicesOn q)) ++
        A.danglingDiagnostics ++ A.reachabilityDiagnostics := by
  have hstart : ofGraph A.startDiagnostics = A.startDiagnostics := ofGraph_eq_self fun d hd => by
    rcases kind_startDiagnostics hd with h | h <;> simp [h]
  have haccept : ofGraph A.acceptDiagnostics = A.acceptDiagnostics :=
    ofGraph_eq_self fun d hd => by simp [kind_acceptDiagnostics hd]
  have hdangling : ofGraph A.danglingDiagnostics = A.danglingDiagnostics :=
    ofGraph_eq_self fun d hd => by simp [kind_danglingDiagnostics hd]
  have hsymbol : ofGraph A.symbolDiagnostics = [] :=
    List.filter_eq_nil_iff.2 fun d hd => by simp [kind_symbolDiagnostics hd]
  have hreach : ofGraph A.reachabilityDiagnostics = A.reachabilityDiagnostics :=
    ofGraph_eq_self fun d hd => by simp [kind_reachabilityDiagnostics hd]
  rw [validate]
  split
  · rfl
  · simp only [ofGraph_append, hstart, haccept, ofGraph_transitionDiagnostics, hdangling, hsymbol,
      hreach, List.append_nil]

structure SameGraph (A B : Automaton) : Prop where
  states : B.states = A.states
  transitions : B.transitions = A.transitions

namespace SameGraph

variable (h : A.SameGraph B)

include h

lemma hasState (k : Key) : B.hasState k = A.hasState k :=
  hasState_congr h.states k

lemma startState? : B.startState? = A.startState? := by
  rw [Automaton.startState?, Automaton.startState?, startStates_congr h.states]

lemma transitionsOn (k symbol : Key) : B.transitionsOn k symbol = A.transitionsOn k symbol := by
  rw [Automaton.transitionsOn, Automaton.transitionsOn, bySourceAndSymbol, bySourceAndSymbol,
    h.transitions]

lemma choice (q : State) (a : Name) (ts : List Transition) :
    B.choice q a ts = A.choice q a ts := by
  simp only [Automaton.choice, labelOf, state?, h.states]

lemma reachableFrom (s : Key) : B.reachableFrom s = A.reachableFrom s :=
  reachableFrom_congr h.hasState h.transitions (by rw [h.states]) s

lemma reachabilityDiagnostics : B.reachabilityDiagnostics = A.reachabilityDiagnostics := by
  simp only [Automaton.reachabilityDiagnostics, unreachableStates, h.startState?, h.reachableFrom,
    h.states]

lemma movesFrom (q : State) (word : List Char) : B.movesFrom q word = A.movesFrom q word := by
  have hnext (q : State) (a : Char) : B.next? q a = A.next? q a := by
    simp only [next?, firstOn?, state?, h.states, h.transitions]
  induction word generalizing q with
  | nil => rfl
  | cons a word ih => simp only [Automaton.movesFrom, hnext, ih]

lemma perm_choices : (B.states.flatMap fun q => (B.symbolsAt q).flatMap (B.choicesOn q)).Perm
    (A.states.flatMap fun q => (A.symbolsAt q).flatMap (A.choicesOn q)) := by
  rw [h.states]
  refine List.Perm.flatMap_left _ fun q _ => ?_
  rw [choicesOn_flatMap, choicesOn_flatMap]
  simp only [h.choice, h.transitionsOn]
  -- Neither list of symbols has repetitions, and each has all symbols on which there is a choice.
  refine List.Perm.map _ ((List.perm_ext_iff_of_nodup ?_ ?_).2 fun a => ?_)
  · exact (B.nodup_symbolsAt q).filter _
  · exact (A.nodup_symbolsAt q).filter _
  · have hB := mem_symbolsAt_choices (A := B) (q := q) (a := a)
    simp only [h.transitionsOn] at hB
    rw [hB, mem_symbolsAt_choices]

lemma perm_ofGraph : (ofGraph B.validate).Perm (ofGraph A.validate) := by
  have hstart : B.startDiagnostics = A.startDiagnostics := by
    rw [startDiagnostics, startDiagnostics, startStates_congr h.states]
  have haccept : B.acceptDiagnostics = A.acceptDiagnostics := by
    rw [acceptDiagnostics, acceptDiagnostics, acceptStates, acceptStates, h.states]
  have hdangling : B.danglingDiagnostics = A.danglingDiagnostics := by
    simp only [danglingDiagnostics, joins, h.hasState, h.transitions]
  rw [ofGraph_validate, ofGraph_validate, hstart, haccept, hdangling, h.reachabilityDiagnostics]
  by_cases hA : A.states.isEmpty
  · rw [if_pos hA, if_pos (h.states ▸ hA)]
  · rw [if_neg hA, if_neg (h.states ▸ hA)]
    exact ((h.perm_choices.append_left _).append_right _).append_right _

lemma perm_errors : (Diagnostic.errors B.validate).Perm (Diagnostic.errors A.validate) := by
  rw [← errors_ofGraph, ← errors_ofGraph A.validate]
  exact h.perm_ofGraph.filter _

lemma isReady : B.isReady = A.isReady :=
  h.perm_errors.isEmpty_eq

lemma filter_noAccept : B.validate.filter (·.kind = .noAccept) =
    A.validate.filter (·.kind = .noAccept) := by
  have hgraph (ds : List Diagnostic) :
      (ofGraph ds).filter (·.kind = .noAccept) = ds.filter (·.kind = .noAccept) := by
    rw [ofGraph, List.filter_filter]
    refine List.filter_congr fun d _ => ?_
    cases d <;> rfl
  have hall : A.validate.filter (·.kind = .noAccept) =
      List.replicate (A.validate.filter (·.kind = .noAccept)).length noAccept := by
    refine List.eq_replicate_iff.2 ⟨rfl, fun d hd => ?_⟩
    have hk := of_decide_eq_true (List.mem_filter.1 hd).2
    cases d with
    | noAccept => rfl
    | _ => cases hk
  have hperm := h.perm_ofGraph.filter (·.kind = .noAccept)
  rw [hgraph, hgraph, hall] at hperm
  rw [List.perm_replicate.1 hperm, ← hall]

lemma validated : B.validated = A.validated.map fun _ => B.validate := by
  -- Only errors list names.
  have hlisted : (B.validate.flatMap listed).all Name.isText =
      (A.validate.flatMap listed).all Name.isText := by
    rw [flatMap_listed, flatMap_listed A.validate]
    exact (h.perm_errors.flatMap_right _).all_eq
  simp only [Automaton.validated, Name.requireTexts, hlisted, h.states, h.transitions, h.hasState]
  split
  · rfl
  · simp only [Result.map_bind]
    rfl

lemma simulate (hA : A.isReady = true) (word : List Char) : ∃ s, A.simulate word = .ok s ∧
    B.simulate word = .ok { s with automaton? := some B } := by
  obtain ⟨q, hq⟩ := Simulator.startState?_of_isReady hA
  refine ⟨_, simulate_of_isReady hA hq word, ?_⟩
  rw [simulate_of_isReady (h.isReady.trans hA) (h.startState?.trans hq),
    Simulator.atEnd_congr (h.movesFrom q word)]

end SameGraph

/-- The alphabet is never asked what an automaton does. With another one there are the same errors,
in another order perhaps, and the same runs; only the warnings about missing transitions and
about unknown symbols may be others. -/
theorem validated_withAlphabet (A : Automaton) (symbols : List Name)
    (hsymbols : ∀ a ∈ symbols, a.isAtom = true) :
    ∃ B, A.withAlphabet symbols = .ok B ∧
      (∀ e, A.validated = .error e → B.validated = .error e) ∧
      (∀ ds, A.validated = .ok ds → ∃ es, B.validated = .ok es ∧
        (Diagnostic.errors es).Perm (Diagnostic.errors ds) ∧
        es.filter (·.kind = .noAccept) = ds.filter (·.kind = .noAccept) ∧
        es.filter (·.kind = .unreachable) = ds.filter (·.kind = .unreachable) ∧
        (es.filter fun d => d.kind ≠ .missingTransition ∧ d.kind ≠ .unknownSymbol).Perm
          (ds.filter fun d => d.kind ≠ .missingTransition ∧ d.kind ≠ .unknownSymbol)) ∧
      B.isReady = A.isReady ∧
      (∀ s, B.reachableFrom s = A.reachableFrom s) ∧ B.reachable = A.reachable ∧
      (A.isReady = true → ∀ word, ∃ s, A.simulate word = .ok s ∧
        B.simulate word = .ok { s with automaton? := some B }) := by
  obtain ⟨B, hB⟩ := exists_withAlphabet (A := A) hsymbols
  obtain ⟨hstates, htransitions, _⟩ := of_make_eq_ok hB
  have h : A.SameGraph B := ⟨hstates, htransitions⟩
  refine ⟨B, hB, fun e he => ?_, fun ds hds => ?_, h.isReady, h.reachableFrom, ?_, h.simulate⟩
  · rw [h.validated, he]
    rfl
  · obtain rfl := eq_validate_of_validated hds
    refine ⟨B.validate, ?_, h.perm_errors, h.filter_noAccept, ?_, h.perm_ofGraph⟩
    · rw [h.validated, hds]
      rfl
    · rw [filter_unreachable_validate, filter_unreachable_validate, h.reachabilityDiagnostics]
  · simp only [reachable, h.startState?, h.reachableFrom]

def torn : Automaton where
  states :=
    [⟨"fork", "fork", .startAccept, State.origin, by decide, by decide⟩,
      ⟨"lane", "lane", .normal, State.origin, by decide, by decide⟩]
  transitions :=
    [⟨"back", "fork", "fork", 'p', by decide, by decide⟩,
      ⟨"left", "fork", "lane", 'p', by decide, by decide⟩,
      ⟨"loop", "fork", "fork", 'q', by decide, by decide⟩,
      ⟨"right", "fork", "lane", 'q', by decide, by decide⟩]
  alphabet := ["p"]
  keys_nodup := by decide
  ids_atoms := by decide
  alphabet_nodup := by decide
  alphabet_atoms := by decide

theorem validated_withAlphabet_torn : ∃ B, torn.withAlphabet ["q", "r"] = .ok B ∧
    B.isReady = false ∧ B.reachable = [.text "fork", .text "lane"] ∧
    ∃ es, B.validated = .ok es ∧ (Diagnostic.errors es).length = 2 := by
  obtain ⟨B, hB, _, hvalidated, hready, _, hreachable, _⟩ :=
    validated_withAlphabet torn ["q", "r"] (by decide)
  obtain ⟨es, hes, herrors, _⟩ := hvalidated torn.validate rfl
  exact ⟨B, hB, hready, hreachable, es, hes, herrors.length_eq⟩

end Automaton

end DfaWorkbench
