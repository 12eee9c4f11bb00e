import DfaWorkbench.Proofs.Automaton.Search
import DfaWorkbench.Proofs.Validation.Worded

/-! The list of diagnostics in full: which there are about states and symbols, about transitions
that dangle and about symbols outside the alphabet, and where they stand. -/

namespace DfaWorkbench.Automaton

open Diagnostic

variable {A : Automaton} {q : State} {a : Name} {d : Diagnostic}

def leavingOn (A : Automaton) (q : State) (a : Name) : List Transition :=
  A.transitions.filter fun t => t.source.key = q.key && t.symbolKey = a.key

def foreignSymbols (A : Automaton) (ts : List Transition) : List String :=
  ((ts.filter (!A.declares ·)).map Transition.symbolText).eraseDups

def lookups (A : Automaton) : List (State × Name) :=
  A.states.flatMap fun q =>
    (A.alphabet ++ (A.foreignSymbols (A.transitions.filter (·.source.key = q.key))).map
      Name.text).map fun a => (q, a)

def loose (A : Automaton) : List Transition :=
  A.transitions.filter fun t => !A.hasState t.source.key || !A.hasState t.target.key

/-- What is said about a state and a symbol, by the number of transitions. -/
structure Judged (A : Automaton) (q : State) (a : Name) (ds : List Diagnostic) : Prop where
  missing : (A.leavingOn q a).length = 0 → ds = [missingTransition q a]
  single : (A.leavingOn q a).length = 1 → ds = []
  ambiguous : 1 < (A.leavingOn q a).length → ds = [A.choice q a (A.leavingOn q a)]

lemma judged_declaredDiagnostics (q : State) (a : Name) :
    A.Judged q a (A.declaredDiagnostics A.bySourceAndSymbol q a) := by
  have hmembers : Sequence.members A.bySourceAndSymbol (q.key, a.key) = A.leavingOn q a :=
    members_bySourceAndSymbol A q.key a.key
  rw [declaredDiagnostics, hmembers]
  constructor
  · intro h
    rw [List.eq_nil_of_length_eq_zero h]
  · intro h
    obtain ⟨t, ht⟩ := List.length_eq_one_iff.1 h
    rw [ht]
  · intro h
    rcases hts : A.leavingOn q a with _ | ⟨t, _ | ⟨u, ts⟩⟩
    · simp [hts] at h
    · simp [hts] at h
    · rfl

lemma undeclaredDiagnostics_eq {s : String} (hs : s ∈ A.undeclaredSymbols A.bySource q) :
    A.undeclaredDiagnostics A.bySourceAndSymbol q s =
      A.declaredDiagnostics A.bySourceAndSymbol q s := by
  obtain ⟨t, ht, hsource, _, rfl⟩ := (A.mem_undeclaredSymbols q s).1 hs
  have hmem : t ∈ Sequence.members A.bySourceAndSymbol (q.key, .text t.symbolText) := by
    rw [members_bySourceAndSymbol, List.mem_filter]
    simp [ht, hsource, Transition.symbolKey]
  -- A transition is not missing on a symbol that the state is left on.
  have hne := List.ne_nil_of_mem hmem
  rw [undeclaredDiagnostics, declaredDiagnostics, Name.key_text]
  rcases hts : Sequence.members A.bySourceAndSymbol (q.key, .text t.symbolText) with
    _ | ⟨u, _ | ⟨v, us⟩⟩
  · exact absurd hts hne
  · rfl
  · simp

lemma lookups_eq :
    A.lookups = A.states.flatMap fun q => (A.symbolsAt q).map fun a => (q, a) := by
  simp only [lookups, symbolsAt, undeclaredSymbols, foreignSymbols, members_bySource]

lemma nodup_lookups (A : Automaton) : A.lookups.Nodup := by
  rw [lookups_eq, List.nodup_flatMap]
  refine ⟨fun q _ => (A.nodup_symbolsAt q).map fun _ _ h => (Prod.mk.inj h).2, ?_⟩
  refine (List.Nodup.of_map _ A.keys_nodup).imp fun hne => ?_
  rintro l hq hr
  obtain ⟨a, _, rfl⟩ := List.mem_map.1 hq
  obtain ⟨b, _, hl⟩ := List.mem_map.1 hr
  exact hne (Prod.mk.inj hl).1.symm

lemma transitionDiagnostics_eq : A.transitionDiagnostics =
    A.lookups.flatMap fun l => A.declaredDiagnostics A.bySourceAndSymbol l.1 l.2 := by
  rw [transitionDiagnostics, lookups_eq, List.flatMap_assoc]
  refine List.flatMap_congr fun q _ => ?_
  rw [List.flatMap_map, symbolsAt, List.flatMap_append, List.flatMap_map]
  exact congrArg _ (List.flatMap_congr fun s hs => undeclaredDiagnostics_eq hs)

lemma danglingDiagnostics_eq :
    A.danglingDiagnostics = if A.loose = [] then [] else [dangling A.loose] := by
  have hloose : A.transitions.filter (!A.joins ·) = A.loose :=
    List.filter_congr fun t _ => by rw [joins, Bool.not_and]
  rw [danglingDiagnostics, hloose]
  rcases A.loose with _ | ⟨t, ts⟩
  · rfl
  · rfl

lemma symbolDiagnostics_eq : A.symbolDiagnostics = (A.foreignSymbols A.transitions).map fun s =>
    unknownSymbol s (A.transitions.filter (·.symbolText = s)) := by
  rw [symbolDiagnostics, Sequence.groupedBy_eq, List.map_map, foreignSymbols]
  refine List.map_congr_left fun s hs => congrArg (unknownSymbol s) ?_
  obtain ⟨t, ht, rfl⟩ := List.mem_map.1 (List.mem_eraseDups.1 hs)
  rw [List.filter_filter]
  refine List.filter_congr fun u _ => ?_
  by_cases hu : u.symbolText = t.symbolText
  · have hdeclares : A.declares u = A.declares t := by
      rw [declares, declares, Transition.symbolKey, Transition.symbolKey, hu]
    rw [hdeclares, (List.mem_filter.1 ht).2, hu]
    simp
  · simp [hu, Ne.symm hu]

lemma affected_symbolDiagnostics_perm : (A.symbolDiagnostics.flatMap affected).Perm
    ((A.transitions.filter (!A.declares ·)).map Transition.id) := by
  have hgroups := Sequence.flatMap_groupedBy_perm Transition.symbolText
    (A.transitions.filter (!A.declares ·))
  have haffected : A.symbolDiagnostics.flatMap affected =
      ((Sequence.groupedBy Transition.symbolText
        (A.transitions.filter (!A.declares ·))).flatMap Prod.snd).map Transition.id := by
    rw [symbolDiagnostics, List.flatMap_map, List.map_flatMap]
    rfl
  rw [haffected]
  exact hgroups.map Transition.id

lemma filter_validate (h : A.states ≠ []) :
    A.validate.filter (fun d => d.kind = .missingTransition ∨ d.kind = .nonDeterministic) =
      A.transitionDiagnostics := by
  have hnone {ds : List Diagnostic}
      (h : ∀ d ∈ ds, d.kind ≠ .missingTransition ∧ d.kind ≠ .nonDeterministic) :
      ds.filter (fun d => d.kind = .missingTransition ∨ d.kind = .nonDeterministic) = [] :=
    List.filter_eq_nil_iff.2 fun d hd => by simp [h d hd]
  have hstart := hnone fun d (hd : d ∈ A.startDiagnostics) => by
    rcases kind_startDiagnostics hd with hk | hk <;> simp [hk]
  have haccept := hnone fun d (hd : d ∈ A.acceptDiagnostics) => by
    simp [kind_acceptDiagnostics hd]
  have hdangling := hnone fun d (hd : d ∈ A.danglingDiagnostics) => by
    simp [kind_danglingDiagnostics hd]
  have hsymbol := hnone fun d (hd : d ∈ A.symbolDiagnostics) => by
    simp [kind_symbolDiagnostics hd]
  have hreach := hnone fun d (hd : d ∈ A.reachabilityDiagnostics) => by
    simp [kind_reachabilityDiagnostics hd]
  have htransition : A.transitionDiagnostics.filter
      (fun d => d.kind = .missingTransition ∨ d.kind = .nonDeterministic) =
        A.transitionDiagnostics :=
    List.filter_eq_self.2 fun d hd => decide_eq_true (kind_transitionDiagnostics hd)
  rw [validate, if_neg (by simpa using h)]
  simp only [List.filter_append, hstart, haccept, htransition, hdangling, hsymbol, hreach,
    List.nil_append, List.append_nil]

/-- Of an automaton with states, the diagnostics about the start and the accept states come first.
Then each state is looked at once on each symbol of the alphabet and on each other symbol that it is
left on: a missing transition is a warning, and several ones are an error, which lists them. After
that one error lists the transitions that dangle, if there are any, and one warning for each symbol
outside the alphabet lists the transitions on it, so that each such transition is listed once. The
states that cannot be reached come last. -/
theorem validate_listing (h : A.states ≠ []) :
    ∃ front back, ∃ verdict : State → Name → List Diagnostic,
      A.validate = front ++ (A.lookups.flatMap fun l => verdict l.1 l.2) ++
        (if A.loose = [] then [] else [dangling A.loose]) ++
        ((A.foreignSymbols A.transitions).map fun s =>
          unknownSymbol s (A.transitions.filter (·.symbolText = s))) ++ back ∧
      (∀ d ∈ front, d.kind = .missingStart ∨ d.kind = .multipleStart ∨ d.kind = .noAccept) ∧
      A.lookups.Nodup ∧
      (∀ q a, A.Judged q a (verdict q a)) ∧
      A.validate.filter (fun d => d.kind = .missingTransition ∨ d.kind = .nonDeterministic) =
        (A.lookups.flatMap fun l => verdict l.1 l.2) ∧
      (((A.foreignSymbols A.transitions).map fun s =>
          unknownSymbol s (A.transitions.filter (·.symbolText = s))).flatMap affected).Perm
        ((A.transitions.filter (!A.declares ·)).map Transition.id) ∧
      (∀ d ∈ back, d.kind = .unreachable) ∧
      (A.Worded → A.validated = .ok A.validate) := by
  refine ⟨A.startDiagnostics ++ A.acceptDiagnostics, A.reachabilityDiagnostics,
    A.declaredDiagnostics A.bySourceAndSymbol, ?_, fun d hd => ?_, A.nodup_lookups,
    judged_declaredDiagnostics, ?_, ?_, fun d hd => kind_reachabilityDiagnostics hd,
    fun hworded => hworded.validated⟩
  · rw [← transitionDiagnostics_eq, ← danglingDiagnostics_eq, ← symbolDiagnostics_eq, validate,
      if_neg (by simpa using h)]
  · rcases List.mem_append.1 hd with hd | hd
    · exact (kind_startDiagnostics hd).imp_right .inl
    · exact .inr (.inr (kind_acceptDiagnostics hd))
  · rw [filter_validate h, transitionDiagnostics_eq]
  · rw [← symbolDiagnostics_eq]
    exact affected_symbolDiagnostics_perm

theorem validate_listing_tangled : tangled.states ≠ [] ∧ ∃ front back,
    tangled.validate.map (fun e => (e.kind, e.severity, e.affected.map Name.shown)) =
      front ++
        [(.nonDeterministic, .error, ["astray", "there", "again"]),
          (.missingTransition, .warning, ["islet"]), (.missingTransition, .warning, ["gate"]),
          (.dangling, .error, ["astray", "ghost"]),
          (.unknownSymbol, .warning, ["return", "ghost"])] ++ back := by
  have hstates : tangled.states ≠ [] := List.cons_ne_nil _ _
  obtain ⟨front, back, verdict, hvalidate, -, -, hjudged, -⟩ := validate_listing hstates
  let listed (e : Diagnostic) := (e.kind, e.severity, e.affected.map Name.shown)
  let c : Name := "c"
  let d : Name := "d"
  have hlookups : tangled.lookups = [(tangled.states[0], c), (tangled.states[1], c),
    (tangled.states[2], c), (tangled.states[2], d)] := rfl
  refine ⟨hstates, front.map listed, back.map listed, ?_⟩
  rw [hvalidate, hlookups]
  simp only [List.flatMap_cons, List.flatMap_nil, List.append_nil]
  rw [(hjudged tangled.states[0] c).ambiguous (by decide),
    (hjudged tangled.states[1] c).missing (by decide),
    (hjudged tangled.states[2] c).missing (by decide),
    (hjudged tangled.states[2] d).single (by decide)]
  simp only [List.map_append, List.append_assoc]
  exact congrArg (front.map listed ++ ·) rfl

end DfaWorkbench.Automaton
