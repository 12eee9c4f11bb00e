import Mathlib.Data.List.Duplicate
import DfaWorkbench.Proofs.Conversion.Convertible
import DfaWorkbench.Proofs.Conversion.Diagnosis

/-! The sink of a grammar's automaton, which takes the first of its names that is no non-terminal. A
grammar whose automaton is refused for a repeated state repeats one of its non-terminals. -/

namespace DfaWorkbench

variable {α : Type} {g : Grammar} {settings : Settings} {layout : Layout} {A M : Automaton}
  {n head : Name} {p : Production} {q : State} {qs : List State} {seen : List Key} {i : ℕ}

lemma State.make_ne_repeated {id label : Name} {type : StateType} {position : List Json} :
    State.make id label type position ≠ .error (.repeatedState n) := by
  rw [State.make]
  split
  · simp
  · split <;> simp

lemma Transition.ofChar_ne_repeated {id source target : Name} {a : Char} :
    Transition.ofChar id source target a ≠ .error (.repeatedState n) := by
  rw [Transition.ofChar]
  split
  · simp
  · split <;> simp

namespace Automaton

lemma duplicate_of_idDefect? (h : idDefect? seen qs = some (.repeatedState n)) :
    n ∈ qs.map State.id ∧ (n.key ∈ seen ∨ List.Duplicate n.key (qs.map State.key)) := by
  induction qs generalizing seen with
  | nil => cases h
  | cons q qs ih =>
    rw [idDefect?] at h
    split at h
    · split at h
      · next hs =>
        obtain rfl : q.id = n := by simpa using h
        exact ⟨List.mem_cons_self, .inl hs⟩
      · obtain ⟨hmem, hrest⟩ := ih h
        have hkey : n.key ∈ qs.map State.key := by
          obtain ⟨r, hr, rfl⟩ := List.mem_map.1 hmem
          exact List.mem_map_of_mem hr
        refine ⟨List.mem_cons_of_mem _ hmem, ?_⟩
        rcases hrest with hseen | hdup
        · rcases List.mem_cons.1 hseen with hq | hseen
          · exact .inr (hq ▸ List.Mem.duplicate_cons_self (hq ▸ hkey))
          · exact .inl hseen
        · exact .inr (hdup.duplicate_cons _)
    · simp at h

lemma duplicate_of_make {ts : List Transition} {alphabet : List Name}
    (h : Automaton.make qs ts alphabet = .error (.repeatedState n)) :
    List.Duplicate n.key (qs.map State.key) := by
  rw [Automaton.make] at h
  split at h
  · split at h
    · next d hd =>
      obtain rfl := Except.error.inj h
      exact (duplicate_of_idDefect? hd).2.resolve_left List.not_mem_nil
    · cases h
  · cases h

end Automaton

namespace ConversionError

lemma unfitName_ne_repeated {x : Except NameError α} :
    x.mapError unfitName ≠ .error (.defect (.repeatedState n)) :=
  Result.mapError_ne_error (by simp)

lemma layout_ne_repeated {x : Except LayoutError α} :
    x.mapError ConversionError.layout ≠ .error (.defect (.repeatedState n)) :=
  Result.mapError_ne_error (by simp)

lemma defect_eq_repeated {x : Except Defect α} :
    x.mapError defect = .error (.defect (.repeatedState n)) ↔ x = .error (.repeatedState n) := by
  simp [Result.mapError_eq_error]

lemma defect_ne_repeated {x : Except Defect α} (h : x ≠ .error (.repeatedState n)) :
    x.mapError defect ≠ .error (.defect (.repeatedState n)) := by
  rwa [Ne, defect_eq_repeated]

end ConversionError

namespace Grammar

open ConversionError

lemma headState_ne_repeated :
    g.headState layout head i ≠ .error (.defect (.repeatedState n)) :=
  Result.bind_ne_error unfitName_ne_repeated fun _ =>
    Result.bind_ne_error layout_ne_repeated fun _ => defect_ne_repeated State.make_ne_repeated

lemma arc_ne_repeated : g.arc head p ≠ .error (.defect (.repeatedState n)) := by
  refine Result.bind_ne_error unfitName_ne_repeated fun _ =>
    Result.bind_ne_error unfitName_ne_repeated fun _ => ?_
  split
  · exact nofun
  · exact Result.bind_ne_error unfitName_ne_repeated fun _ => nofun

lemma stepTransition_ne_repeated :
    g.stepTransition settings head p i ≠ .error (.defect (.repeatedState n)) := by
  refine Result.bind_ne_error arc_ne_repeated fun arc => ?_
  cases arc with
  | stop a => exact defect_ne_repeated Transition.ofChar_ne_repeated
  | go a next => exact defect_ne_repeated Transition.ofChar_ne_repeated

lemma sinkStates_ne_repeated :
    g.sinkStates settings layout ≠ .error (.defect (.repeatedState n)) := by
  have hsink : g.sinkState settings layout ≠ .error (.defect (.repeatedState n)) :=
    Result.bind_ne_error layout_ne_repeated fun _ => defect_ne_repeated State.make_ne_repeated
  rw [sinkStates]
  split
  · cases hq : g.sinkState settings layout with
    | ok q => simp [Except.map]
    | error e =>
      intro h
      exact hsink (hq.trans (congrArg _ (Except.error.inj h)))
  · simp

def sinkKeys (g : Grammar) (settings : Settings) : List Key :=
  if g.needsSink then [(g.sinkId settings).key] else []

lemma keys_outlines : (g.outlines settings).map (fun o => o.1.key) =
    g.nonTerminals.map Name.key ++ g.sinkKeys settings := by
  rw [outlines, sinkKeys, List.map_append, List.map_map]
  congr 1
  split <;> rfl

lemma duplicate_of_append_sinkKeys {k : Key}
    (h : List.Duplicate k (g.nonTerminals.map Name.key ++ g.sinkKeys settings)) :
    List.Duplicate k (g.nonTerminals.map Name.key) := by
  rw [List.duplicate_iff_two_le_count, List.count_append] at h
  have hone : (g.sinkKeys settings).count k ≤ 1 := by
    rw [sinkKeys]
    split
    · exact List.count_le_length
    · simp
  have hmem : k ∈ g.nonTerminals.map Name.key := List.count_pos_iff.1 (by omega)
  have hnone : (g.sinkKeys settings).count k = 0 := by
    rw [List.count_eq_zero, sinkKeys]
    split
    · simpa using key_ne_sinkId (decide_eq_true hmem)
    · exact List.not_mem_nil
  rw [List.duplicate_iff_two_le_count]
  omega

lemma duplicate_of_fullAutomaton
    (h : g.fullAutomaton settings = .error (.defect (.repeatedState n))) :
    List.Duplicate n.key (g.nonTerminals.map Name.key) := by
  -- Only the last stage, which puts all states together, can find one repeated.
  obtain ⟨layout, _, h⟩ := (Result.bind_eq_error.1 h).resolve_left layout_ne_repeated
  obtain ⟨heads, hheads, h⟩ := (Result.bind_eq_error.1 h).resolve_left
    (Result.mapM_ne_error fun _ => headState_ne_repeated)
  obtain ⟨_, _, h⟩ := (Result.bind_eq_error.1 h).resolve_left unfitName_ne_repeated
  obtain ⟨ts, _, h⟩ := (Result.bind_eq_error.1 h).resolve_left
    (Result.mapM_ne_error fun _ => stepTransition_ne_repeated)
  obtain ⟨sink, hsink, h⟩ := (Result.bind_eq_error.1 h).resolve_left sinkStates_ne_repeated
  obtain ⟨_, _, h⟩ := (Result.bind_eq_error.1 h).resolve_left unfitName_ne_repeated
  have hkeys : (heads ++ sink).map State.key = (g.outlines settings).map fun o => o.1.key := by
    rw [outlines, ← outlines_of_headStates hheads, ← outlines_of_sinkStates hsink,
      ← List.map_append, List.map_map]
    rfl
  have hdup := Automaton.duplicate_of_make (defect_eq_repeated.1 h)
  rw [hkeys, keys_outlines] at hdup
  exact duplicate_of_append_sinkKeys hdup

lemma keys_of_fullAutomaton (h : g.fullAutomaton settings = .ok A) :
    A.states.map State.key = g.nonTerminals.map Name.key ++ g.sinkKeys settings := by
  obtain ⟨hstates, _⟩ := of_fullAutomaton_eq_ok h
  rw [← keys_outlines, ← hstates, List.map_map]
  rfl

lemma source_ne_sinkId (h : g.fullAutomaton settings = .ok A) {t : Transition}
    (ht : t ∈ A.transitions) : t.source.key ≠ (g.sinkId settings).key :=
  key_ne_sinkId (isNonTerminal_source h ht)

lemma isLeast_sinkName (g : Grammar) (settings : Settings) :
    IsLeast {k | (sinkName settings.sinkId k).key ∉ g.nonTerminals.map Name.key}
      (Sequence.firstFree (fun k => (sinkName settings.sinkId k).key)
        (g.nonTerminals.map Name.key) 0) :=
  Sequence.isLeast_firstFree (sinkName_injective settings.sinkId)
    fun k hk => absurd hk k.not_lt_zero

/-- Counting through the names for the sink ends at the first one that is no non-terminal, and this
is the name of the sink. So the sink is a state besides those of the non-terminals, no transition
leaves it, and it is never the reason why an automaton is refused for a repeated state. -/
theorem sink_apart (g : Grammar) (settings : Settings) :
    (∃ n, g.sinkId settings = sinkName settings.sinkId n ∧
      IsLeast {k | (sinkName settings.sinkId k).key ∉ g.nonTerminals.map Name.key} n ∧
      ∀ m, Sequence.Seeks (fun k => (sinkName settings.sinkId k).key)
        (g.nonTerminals.map Name.key) 0 m ↔ m = n) ∧
    (∀ A, g.fullAutomaton settings = .ok A →
      A.states.map State.key = g.nonTerminals.map Name.key ++
        (if g.needsSink then [(g.sinkId settings).key] else []) ∧
      ∀ t ∈ A.transitions, t.source.key ≠ (g.sinkId settings).key) ∧
    (∀ M, g.toAutomaton settings = .ok M →
      (∀ q ∈ M.states, q.key = (g.sinkId settings).key ↔ g.isNonTerminal q.key = false) ∧
      ∀ t ∈ M.transitions, t.source.key ≠ (g.sinkId settings).key) ∧
    ∀ n, g.fullAutomaton settings = .error (.defect (.repeatedState n)) →
      List.Duplicate n.key (g.nonTerminals.map Name.key) := by
  refine ⟨⟨_, rfl, isLeast_sinkName g settings, fun m => ?_⟩,
    fun A hA => ⟨keys_of_fullAutomaton hA, fun t => source_ne_sinkId hA⟩, fun M hM => ?_,
    fun n => duplicate_of_fullAutomaton⟩
  · rw [Sequence.seeks_iff_isLeast fun k hk => absurd hk k.not_lt_zero]
    exact ⟨fun h => h.unique (isLeast_sinkName g settings),
      fun h => h ▸ isLeast_sinkName g settings⟩
  · obtain ⟨A, hA, rfl⟩ := exists_full_of_toAutomaton hM
    refine ⟨fun q hq => ⟨fun hk => ?_, fun hforeign => ?_⟩, fun t ht => ?_⟩
    · exact Bool.eq_false_iff.2 fun hn => key_ne_sinkId hn hk
    · exact (sink_of_foreign hA (Automaton.mem_states_restrict.1 hq).1 hforeign).2.1
    · exact source_ne_sinkId hA (Automaton.mem_transitions_restrict.1 ht).1

def crowded : Grammar where
  start := "S"
  nonTerminals := ["S", "qf", "qf1", "qf3"]
  terminals := ["a"]
  productions := [("S", [⟨["a"]⟩, ⟨["a", "qf"]⟩]), ("qf", [.empty]), ("qf1", [⟨["a", "S"]⟩])]

lemma convertible_crowded : crowded.Convertible {} where
  layout := Layout.fits_default
  heads_atoms := by decide
  heads_ne := by decide
  heads_nodup := by decide
  sink_atom := rfl
  sink_ne := rfl
  terminals_texts := by decide
  arcs step hstep := by
    change step ∈ [((.text "S" : Name), (⟨["a"]⟩ : Production)), (.text "S", ⟨["a", "qf"]⟩),
      (.text "qf1", ⟨["a", "S"]⟩)] at hstep
    simp only [List.mem_cons, List.not_mem_nil, or_false] at hstep
    rcases hstep with rfl | rfl | rfl
    · exact ⟨.stop 'a', rfl, by decide⟩
    · exact ⟨.go 'a' "qf", rfl, by decide⟩
    · exact ⟨.go 'a' "S", rfl, by decide⟩

theorem sink_apart_crowded : crowded.sinkId {} = "qf2" ∧
    ∃ A, crowded.fullAutomaton {} = .ok A ∧
      A.states.map State.key = [.text "S", .text "qf", .text "qf1", .text "qf3", .text "qf2"] ∧
      ∀ t ∈ A.transitions, t.source.key ≠ .text "qf2" := by
  obtain ⟨⟨n, hn, _, hseeks⟩, hfull, _⟩ := sink_apart crowded {}
  obtain rfl : 2 = n :=
    (hseeks 2).1 (.next (by decide) (.next (by decide) (.free (by decide))))
  have hid : crowded.sinkId {} = "qf2" := hn
  obtain ⟨A, hA, _⟩ := convertible_crowded.exists_toAutomaton (by decide)
  obtain ⟨hkeys, hleave⟩ := hfull A hA
  rw [hid] at hkeys hleave
  exact ⟨hid, A, hA, hkeys, hleave⟩

end Grammar

end DfaWorkbench
