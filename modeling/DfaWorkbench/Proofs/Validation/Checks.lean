import DfaWorkbench.Proofs.Name
import DfaWorkbench.Proofs.Sequence.Distinct
import DfaWorkbench.Proofs.Validation.Readiness

/-! Which symbols a state is looked at on, and which kinds of diagnostics each check of an automaton
can give. -/

namespace DfaWorkbench.Automaton

open Diagnostic

variable {A : Automaton} {d : Diagnostic}

def symbolsAt (A : Automaton) (q : State) : List Name :=
  A.alphabet ++ (A.undeclaredSymbols A.bySource q).map Name.text

lemma nodup_symbolsAt (A : Automaton) (q : State) : (A.symbolsAt q).Nodup := by
  refine List.nodup_append.2 ⟨List.Nodup.of_map _ A.alphabet_nodup,
    (Sequence.nodup_eraseDups _).map Name.text_injective, ?_⟩
  rintro a ha _ hmem rfl
  obtain ⟨s, hs, rfl⟩ := List.mem_map.1 hmem
  obtain ⟨t, _, _, hdeclared, rfl⟩ := (A.mem_undeclaredSymbols q s).1 hs
  exact of_decide_eq_false hdeclared (List.mem_map_of_mem ha)

lemma kind_startDiagnostics (h : d ∈ A.startDiagnostics) :
    d.kind = .missingStart ∨ d.kind = .multipleStart := by
  rw [startDiagnostics] at h
  split at h
  · exact .inl (List.mem_singleton.1 h ▸ rfl)
  · cases h
  · exact .inr (List.mem_singleton.1 h ▸ rfl)

lemma kind_acceptDiagnostics (h : d ∈ A.acceptDiagnostics) : d.kind = .noAccept := by
  rw [acceptDiagnostics] at h
  split at h
  · exact List.mem_singleton.1 h ▸ rfl
  · cases h

lemma mem_declaredDiagnostics {q : State} {a : Name} :
    d ∈ A.declaredDiagnostics A.bySourceAndSymbol q a ↔
      (A.transitionsOn q.key a.key = [] ∧ d = missingTransition q a) ∨
        (1 < (A.transitionsOn q.key a.key).length ∧
          d = A.choice q a (A.transitionsOn q.key a.key)) := by
  rw [declaredDiagnostics, transitionsOn]
  rcases Sequence.members A.bySourceAndSymbol (q.key, a.key) with _ | ⟨t, _ | ⟨u, ts⟩⟩
  · simp
  · simp
  · simp

lemma mem_undeclaredDiagnostics {q : State} {a : String} :
    d ∈ A.undeclaredDiagnostics A.bySourceAndSymbol q a ↔
      1 < (A.transitionsOn q.key (.text a)).length ∧
        d = A.choice q a (A.transitionsOn q.key (.text a)) := by
  rw [undeclaredDiagnostics, transitionsOn]
  split
  · next h => simp [h]
  · next h => simp [h]

lemma of_mem_transitionDiagnostics (h : d ∈ A.transitionDiagnostics) : ∃ q ∈ A.states,
    (∃ a ∈ A.alphabet, A.transitionsOn q.key a.key = [] ∧ d = missingTransition q a) ∨
      ∃ a : Name, d = A.choice q a (A.transitionsOn q.key a.key) := by
  obtain ⟨q, hq, h⟩ := List.mem_flatMap.1 h
  refine ⟨q, hq, ?_⟩
  rcases List.mem_append.1 h with h | h
  · obtain ⟨a, ha, h⟩ := List.mem_flatMap.1 h
    rcases mem_declaredDiagnostics.1 h with ⟨hnone, rfl⟩ | ⟨_, rfl⟩
    · exact .inl ⟨a, ha, hnone, rfl⟩
    · exact .inr ⟨a, rfl⟩
  · obtain ⟨a, _, h⟩ := List.mem_flatMap.1 h
    exact .inr ⟨a, (mem_undeclaredDiagnostics.1 h).2⟩

lemma kind_transitionDiagnostics (h : d ∈ A.transitionDiagnostics) :
    d.kind = .missingTransition ∨ d.kind = .nonDeterministic := by
  obtain ⟨_, _, ⟨_, _, _, rfl⟩ | ⟨_, rfl⟩⟩ := of_mem_transitionDiagnostics h
  · exact .inl rfl
  · exact .inr rfl

lemma kind_danglingDiagnostics (h : d ∈ A.danglingDiagnostics) : d.kind = .dangling := by
  rw [danglingDiagnostics] at h
  split at h
  · cases h
  · exact List.mem_singleton.1 h ▸ rfl

lemma kind_symbolDiagnostics (h : d ∈ A.symbolDiagnostics) : d.kind = .unknownSymbol := by
  obtain ⟨_, _, rfl⟩ := List.mem_map.1 h
  rfl

lemma kind_reachabilityDiagnostics (h : d ∈ A.reachabilityDiagnostics) :
    d.kind = .unreachable := by
  rw [reachabilityDiagnostics] at h
  split at h
  · obtain ⟨_, _, rfl⟩ := List.mem_map.1 h
    rfl
  · cases h

lemma startState?_of_no_states (h : A.states = []) : A.startState? = none := by
  simp [startState?, startStates, h]

lemma filter_unreachable_validate :
    A.validate.filter (·.kind = .unreachable) = A.reachabilityDiagnostics := by
  have hnone {ds : List Diagnostic} (h : ∀ d ∈ ds, d.kind ≠ .unreachable) :
      ds.filter (·.kind = .unreachable) = [] :=
    List.filter_eq_nil_iff.2 fun d hd => by simp [h d hd]
  rw [validate]
  split
  · next he =>
    rw [reachabilityDiagnostics, startState?_of_no_states (List.isEmpty_iff.1 he)]
    rfl
  · have hstart := hnone fun d (hd : d ∈ A.startDiagnostics) => by
      rcases kind_startDiagnostics hd with hk | hk <;> simp [hk]
    have haccept := hnone fun d (hd : d ∈ A.acceptDiagnostics) => by
      simp [kind_acceptDiagnostics hd]
    have htransition := hnone fun d (hd : d ∈ A.transitionDiagnostics) => by
      rcases kind_transitionDiagnostics hd with hk | hk <;> simp [hk]
    have hdangling := hnone fun d (hd : d ∈ A.danglingDiagnostics) => by
      simp [kind_danglingDiagnostics hd]
    have hsymbol := hnone fun d (hd : d ∈ A.symbolDiagnostics) => by
      simp [kind_symbolDiagnostics hd]
    have hreach : A.reachabilityDiagnostics.filter (·.kind = .unreachable) =
        A.reachabilityDiagnostics :=
      List.filter_eq_self.2 fun d hd => decide_eq_true (kind_reachabilityDiagnostics hd)
    simp only [List.filter_append, hstart, haccept, htransition, hdangling, hsymbol, hreach,
      List.nil_append]

lemma mem_validate_iff (h : A.states ≠ []) : d ∈ A.validate ↔
    d ∈ A.startDiagnostics ∨ d ∈ A.acceptDiagnostics ∨ d ∈ A.transitionDiagnostics ∨
      d ∈ A.danglingDiagnostics ∨ d ∈ A.symbolDiagnostics ∨ d ∈ A.reachabilityDiagnostics := by
  rw [validate, if_neg (by simpa using h)]
  simp only [List.mem_append, or_assoc]

lemma affected_reachabilityDiagnostics :
    A.reachabilityDiagnostics.map Diagnostic.affected =
      A.unreachableStates.map fun q => [q.id] := by
  rw [reachabilityDiagnostics, unreachableStates]
  cases A.startState? with
  | some s => simp [affected]
  | none => rfl

lemma mem_validate_missing : (d ∈ A.validate ∧ d.kind = .missingTransition) ↔
    ∃ q ∈ A.states, ∃ a ∈ A.alphabet, A.transitionsOn q.key a.key = [] ∧
      d = missingTransition q a := by
  constructor
  · rintro ⟨hd, hk⟩
    by_cases hs : A.states = []
    · rw [validate, if_pos (by simp [hs]), List.mem_singleton] at hd
      cases hd ▸ hk
    · rcases (mem_validate_iff hs).1 hd with hd | hd | hd | hd | hd | hd
      · rcases kind_startDiagnostics hd with h | h <;> cases h.symm.trans hk
      · cases (kind_acceptDiagnostics hd).symm.trans hk
      · obtain ⟨q, hq, ⟨a, ha, hnone, rfl⟩ | ⟨a, rfl⟩⟩ := of_mem_transitionDiagnostics hd
        · exact ⟨q, hq, a, ha, hnone, rfl⟩
        · cases hk
      · cases (kind_danglingDiagnostics hd).symm.trans hk
      · cases (kind_symbolDiagnostics hd).symm.trans hk
      · cases (kind_reachabilityDiagnostics hd).symm.trans hk
  · rintro ⟨q, hq, a, ha, hnone, rfl⟩
    refine ⟨?_, rfl⟩
    have hd : missingTransition q a ∈ A.transitionDiagnostics :=
      List.mem_flatMap.2 ⟨q, hq, List.mem_append_left _
        (List.mem_flatMap.2 ⟨a, ha, mem_declaredDiagnostics.2 (.inl ⟨hnone, rfl⟩)⟩)⟩
    exact (mem_validate_iff (List.ne_nil_of_mem hq)).2 (.inr (.inr (.inl hd)))

end DfaWorkbench.Automaton
