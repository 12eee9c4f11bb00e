import DfaWorkbench.Gallery
import DfaWorkbench.Proofs.Automaton.Edit
import DfaWorkbench.Proofs.Simulation.Acceptance

/-! Which edits leave an automaton ready that has been ready before. -/

namespace DfaWorkbench

variable {A B : Automaton} {q r s : State} {id source target : Name} {k : Key}

namespace Automaton

lemma hasState_congr (h : B.states = A.states) (k : Key) : B.hasState k = A.hasState k := by
  rw [hasState, hasState, state?, state?, h]

lemma startStates_congr (h : B.states = A.states) : B.startStates = A.startStates := by
  rw [startStates, startStates, h]

lemma Deterministic.part (h : A.Deterministic) {p : State → Bool}
    (hstates : B.states = A.states.filter p) (htransitions : B.transitions.Sublist A.transitions)
    (hstart : ∀ q ∈ A.startStates, p q = true)
    (hends : ∀ t ∈ B.transitions, ∀ q ∈ A.states,
      q.key = t.source.key ∨ q.key = t.target.key → p q = true) : B.Deterministic where
  start := by
    obtain ⟨s, hs⟩ := h.start
    have hfilter : B.startStates = A.startStates.filter p := by
      rw [startStates, startStates, hstates, List.filter_filter, List.filter_filter]
      exact List.filter_congr fun q _ => Bool.and_comm _ _
    exact ⟨s, by rw [hfilter, List.filter_eq_self.2 hstart, hs]⟩
  joined t ht := by
    obtain ⟨⟨q, hq, hk⟩, r, hr, hrk⟩ := joins_iff.1 (h.joined t (htransitions.subset ht))
    have hmem {q : State} (hq : q ∈ A.states) (hp : p q = true) : q ∈ B.states :=
      hstates ▸ List.mem_filter.2 ⟨hq, hp⟩
    exact joins_iff.2 ⟨⟨q, hmem hq (hends t ht q hq (.inl hk)), hk⟩,
      r, hmem hr (hends t ht r hr (.inr hrk)), hrk⟩
  unambiguous := h.unambiguous.sublist htransitions

lemma isReady_of_eq (hA : A.isReady = true) (hstates : B.states = A.states)
    (htransitions : B.transitions = A.transitions) : B.isReady = true := by
  rw [isReady_iff_deterministic] at hA ⊢
  refine hA.part (p := fun _ => true) ?_ (htransitions ▸ List.Sublist.refl _) (by simp) (by simp)
  rw [hstates, List.filter_true]

lemma isReady_removeState (hA : A.isReady = true) (k : Key) :
    (A.removeState k).isReady = true ↔ A.startState?.map State.key ≠ some k := by
  rw [isReady_iff_deterministic] at hA ⊢
  obtain ⟨s, hs⟩ := hA.start
  have hkey : A.startState?.map State.key = some s.key := by rw [startState?, hs]; rfl
  rw [hkey, ne_eq, Option.some.injEq]
  constructor
  · intro h
    obtain ⟨q, hq⟩ := h.start
    have hmem : q ∈ (A.removeState k).startStates := by simp [hq]
    obtain ⟨hq, hstart⟩ := mem_startStates.1 hmem
    obtain ⟨hq, hk⟩ := List.mem_filter.1 hq
    have hqs : q ∈ A.startStates := mem_startStates.2 ⟨hq, hstart⟩
    obtain rfl : q = s := by simpa [hs] using hqs
    exact of_decide_eq_true hk
  · intro hk
    refine hA.part rfl List.filter_sublist ?_ ?_
    · intro q hq
      obtain rfl : q = s := by simpa [hs] using hq
      exact decide_eq_true hk
    · intro t ht q _ hend
      obtain ⟨_, hends⟩ := List.mem_filter.1 ht
      rw [decide_eq_true_eq] at hends ⊢
      rcases hend with hend | hend
      · exact hend ▸ hends.1
      · exact hend ▸ hends.2

lemma isReady_addState (hA : A.isReady = true) (hstates : B.states = A.states ++ [q])
    (htransitions : B.transitions = A.transitions) : B.isReady = true ↔ q.isStart = false := by
  rw [isReady_iff_deterministic] at hA ⊢
  obtain ⟨s, hs⟩ := hA.start
  have hstarts : B.startStates = s :: if q.isStart then [q] else [] := by
    rw [startStates, hstates, List.filter_append, ← startStates, hs, List.filter_singleton]
    cases q.isStart <;> rfl
  constructor
  · intro h
    obtain ⟨p, hp⟩ := h.start
    by_contra hq
    simp [hstarts, hq] at hp
  · intro hq
    have hjoined : ∀ t ∈ B.transitions, B.joins t = true := by
      intro t ht
      obtain ⟨⟨p, hp, hpk⟩, r, hr, hrk⟩ := joins_iff.1 (hA.joined t (htransitions ▸ ht))
      rw [joins_iff, hstates]
      exact ⟨⟨p, List.mem_append_left _ hp, hpk⟩, r, List.mem_append_left _ hr, hrk⟩
    exact ⟨⟨s, by simp [hstarts, hq]⟩, hjoined, htransitions ▸ hA.unambiguous⟩

lemma isReady_updateState (hA : A.isReady = true) (hs : s ∈ A.states)
    (hstates : B.states = A.states.map fun q => if q.key = s.key then r else q)
    (htransitions : B.transitions = A.transitions) :
    B.isReady = true ↔ (∃! q, q ∈ B.states ∧ q.isStart = true) ∧
      (r.key = s.key ∨
        ∀ t ∈ A.transitions, t.source.key ≠ s.key ∧ t.target.key ≠ s.key) := by
  rw [isReady_iff_deterministic] at hA ⊢
  have hknown (k : Key) : B.hasState k = true ↔ r.key = k ∨ k ≠ s.key ∧ A.hasState k = true := by
    rw [hasState_iff, hasState_iff, hstates]
    constructor
    · rintro ⟨q, hq, rfl⟩
      obtain ⟨p, hp, rfl⟩ := List.mem_map.1 hq
      split
      · exact .inl rfl
      · next hne => exact .inr ⟨hne, p, hp, rfl⟩
    · rintro (rfl | ⟨hne, p, hp, rfl⟩)
      · exact ⟨r, List.mem_map.2 ⟨s, hs, if_pos rfl⟩, rfl⟩
      · exact ⟨p, List.mem_map.2 ⟨p, hp, if_neg hne⟩, rfl⟩
  have hjoined {t : Transition} (ht : t ∈ A.transitions) : B.joins t = true ↔
      r.key = s.key ∨ t.source.key ≠ s.key ∧ t.target.key ≠ s.key := by
    have hends := joins_iff_hasState.1 (hA.joined t ht)
    rw [joins_iff_hasState, hknown, hknown]
    have hsk := hasState_iff.2 ⟨s, hs, rfl⟩
    grind
  rw [← startStates_eq_singleton_iff]
  constructor
  · intro h
    refine ⟨h.start, or_iff_not_imp_left.2 fun hne t ht => ?_⟩
    exact ((hjoined ht).1 (h.joined t (htransitions ▸ ht))).resolve_left hne
  · rintro ⟨hstart, hends⟩
    refine ⟨hstart, fun t ht => ?_, htransitions ▸ hA.unambiguous⟩
    rw [htransitions] at ht
    exact (hjoined ht).2 (hends.imp_right fun h => h t ht)

lemma isReady_removeTransition (hA : A.isReady = true) (k : Key) :
    (A.removeTransition k).isReady = true := by
  rw [isReady_iff_deterministic] at hA ⊢
  refine hA.part (p := fun _ => true) ?_ List.filter_sublist (by simp) (by simp)
  rw [List.filter_true]
  rfl

end Automaton

lemma Transition.symbolText_inj {t u : Transition} :
    t.symbolText = u.symbolText ↔ t.symbol = u.symbol :=
  String.singleton_inj

namespace Automaton

section

variable {new : List Transition} {symbols : List Json}
  (hnew : ∀ t ∈ new, t.source = source ∧ t.target = target)
  (hsymbols : symbols = new.map fun t => .str t.symbolText)

include hnew

lemma joins_new_iff : (∀ t ∈ new, A.joins t = true) ↔
    new = [] ∨ A.hasState source.key = true ∧ A.hasState target.key = true := by
  have hjoins {t : Transition} (ht : t ∈ new) : A.joins t = true ↔
      A.hasState source.key = true ∧ A.hasState target.key = true := by
    rw [joins_iff_hasState, (hnew t ht).1, (hnew t ht).2]
  cases new with
  | nil => simp
  | cons t ts =>
    rw [or_iff_right (List.cons_ne_nil t ts)]
    exact ⟨fun h => (hjoins List.mem_cons_self).1 (h t List.mem_cons_self),
      fun h u hu => (hjoins hu).2 h⟩

include hsymbols

lemma nodup_symbols_iff : symbols.Nodup ↔
    new.Pairwise fun t u => ¬ (t.source.key = u.source.key ∧ t.symbol = u.symbol) := by
  rw [hsymbols, List.Nodup, List.pairwise_map]
  refine List.Pairwise.iff_of_mem fun {t u} ht hu => ?_
  rw [(hnew t ht).1, (hnew u hu).1, ne_eq, Json.str.injEq, Transition.symbolText_inj]
  simp

lemma notMem_symbols_iff {t : Transition} :
    (t.source.key = source.key → .str t.symbolText ∉ symbols) ↔
      ∀ u ∈ new, ¬ (t.source.key = u.source.key ∧ t.symbol = u.symbol) := by
  constructor
  · rintro h u hu ⟨hs, ha⟩
    refine h (by rw [hs, (hnew u hu).1]) (hsymbols ▸ List.mem_map.2 ⟨u, hu, ?_⟩)
    rw [Transition.symbolText_inj.2 ha]
  · intro h hs hmem
    obtain ⟨u, hu, ha⟩ := List.mem_map.1 (hsymbols ▸ hmem)
    refine h u hu ⟨by rw [hs, (hnew u hu).1], ?_⟩
    exact (Transition.symbolText_inj.1 (Json.str.inj ha)).symm

lemma isReady_addTransitions (hA : A.isReady = true) (hstates : B.states = A.states)
    (htransitions : B.transitions = A.transitions ++ new) :
    B.isReady = true ↔ symbols = [] ∨
      (A.hasState source.key = true ∧ A.hasState target.key = true) ∧ symbols.Nodup ∧
        ∀ t ∈ A.transitions, t.source.key = source.key → .str t.symbolText ∉ symbols := by
  rw [isReady_iff_deterministic] at hA ⊢
  have hjoins (t : Transition) : B.joins t = A.joins t := by
    rw [joins, joins, hasState_congr hstates, hasState_congr hstates]
  have hjoined : (∀ t ∈ B.transitions, B.joins t = true) ↔
      symbols = [] ∨ A.hasState source.key = true ∧ A.hasState target.key = true := by
    simp only [htransitions, List.forall_mem_append, hjoins, and_iff_right hA.joined,
      joins_new_iff hnew, hsymbols, List.map_eq_nil_iff]
  have hunambiguous : (B.transitions.Pairwise fun t u =>
      ¬ (t.source.key = u.source.key ∧ t.symbol = u.symbol)) ↔ symbols.Nodup ∧
        ∀ t ∈ A.transitions, t.source.key = source.key → .str t.symbolText ∉ symbols := by
    simp only [htransitions, List.pairwise_append, and_iff_right hA.unambiguous,
      nodup_symbols_iff hnew hsymbols, notMem_symbols_iff hnew hsymbols]
  have hB : B.Deterministic ↔
      (symbols = [] ∨ A.hasState source.key = true ∧ A.hasState target.key = true) ∧
        symbols.Nodup ∧
          ∀ t ∈ A.transitions, t.source.key = source.key → .str t.symbolText ∉ symbols := by
    rw [← hjoined, ← hunambiguous]
    exact ⟨fun h => ⟨h.joined, h.unambiguous⟩,
      fun h => ⟨startStates_congr hstates ▸ hA.start, h.1, h.2⟩⟩
  rw [hB]
  by_cases hempty : symbols = []
  · simp [hempty]
  · simp only [hempty, false_or]

end

lemma isReady_retarget (hA : A.isReady = true) (hid : ∃ t ∈ A.transitions, t.id.key = k)
    (hstates : B.states = A.states)
    (htransitions : B.transitions = A.transitions.map fun t =>
      if t.id.key = k then { t with target := target } else t) :
    B.isReady = true ↔ A.hasState target.key = true := by
  rw [isReady_iff_deterministic] at hA ⊢
  have hjoins (t : Transition) : B.joins t = A.joins t := by
    rw [joins, joins, hasState_congr hstates, hasState_congr hstates]
  have hretarget {t : Transition} (ht : t ∈ A.transitions) :
      A.joins { t with target := target } = true ↔ A.hasState target.key = true := by
    rw [joins_iff_hasState, and_iff_right (joins_iff_hasState.1 (hA.joined t ht)).1]
  constructor
  · intro h
    obtain ⟨t, ht, hk⟩ := hid
    rw [← hretarget ht, ← hjoins]
    exact h.joined _ (htransitions ▸ List.mem_map.2 ⟨t, ht, if_pos hk⟩)
  · intro htarget
    refine ⟨startStates_congr hstates ▸ hA.start, ?_, ?_⟩
    · intro u hu
      rw [htransitions] at hu
      obtain ⟨t, ht, rfl⟩ := List.mem_map.1 hu
      rw [hjoins]
      split
      · exact (hretarget ht).2 htarget
      · exact hA.joined t ht
    · -- Sources and symbols stay as they are.
      rw [htransitions, List.pairwise_map]
      refine hA.unambiguous.imp fun {t u} htu => ?_
      split <;> split <;> exact htu

/-- What the edits make of an automaton that is ready. Taking a state out only harms if it is the
start state; taking transitions out or another alphabet never does. A new state must not be a
second start state. New transitions have to join states, on symbols that leave no choice. A state
that is changed may take another id only if no transition leads from it or to it, and a new target
of transitions has to be a state. -/
theorem isReady_after_edits (A : Automaton) (hA : A.isReady = true) :
    (∀ k, (A.removeState k).isReady = true ↔ A.startState?.map State.key ≠ some k) ∧
    (∀ k, (A.removeTransition k).isReady = true) ∧
    (∀ symbols, (∃ B, A.withAlphabet symbols = .ok B ∧ B.isReady = true) ∨
      A.withAlphabet symbols = .error (.unfitName .notAtom) ∧ ∃ a ∈ symbols, a.isAtom = false) ∧
    (∀ q : State, q.id.isAtom = true → A.hasState q.key = false →
      ∃ B, A.addState q = .ok B ∧ (B.isReady = true ↔ q.isStart = false)) ∧
    (∀ source target symbols B, A.addTransitions source target symbols = .ok B →
      (B.isReady = true ↔ symbols = [] ∨
        (A.hasState source.key = true ∧ A.hasState target.key = true) ∧ symbols.Nodup ∧
          ∀ t ∈ A.transitions, t.source.key = source.key → .str t.symbolText ∉ symbols)) ∧
    (∀ (id : Name) changes B, A.updateState id (·.revise changes) = .ok B →
      ∃ s ∈ A.states, s.key = id.key ∧ ∃ r, s.revise changes = .ok r ∧
        (B.isReady = true ↔ (∃! q, q ∈ B.states ∧ q.isStart = true) ∧
          (r.key = s.key ∨
            ∀ t ∈ A.transitions, t.source.key ≠ s.key ∧ t.target.key ≠ s.key))) ∧
    ∀ id value B, A.updateTransition id (·.revise [("target", value)]) = .ok B →
      (B.isReady = true ↔ A.hasState (Name.of value).key = true) := by
  refine ⟨isReady_removeState hA, isReady_removeTransition hA, ?_, ?_, ?_, ?_, ?_⟩
  · intro symbols
    by_cases hatoms : ∀ a ∈ symbols, a.isAtom = true
    · obtain ⟨B, hB⟩ := exists_withAlphabet (A := A) hatoms
      obtain ⟨hstates, htransitions, _⟩ := of_make_eq_ok hB
      exact .inl ⟨B, hB, isReady_of_eq hA hstates htransitions⟩
    · have hall : ¬ symbols.all Name.isAtom = true := by rwa [List.all_eq_true]
      refine .inr ⟨by rw [withAlphabet, make, dif_neg hall], ?_⟩
      simpa using hatoms
  · intro q hq hfresh
    obtain ⟨B, hB, hstates, htransitions⟩ := exists_addState hq hfresh
    exact ⟨B, hB, isReady_addState hA hstates htransitions⟩
  · intro source target symbols B hB
    obtain ⟨hstates, new, htransitions, hnew, hsymbols⟩ := of_addTransitions_eq_ok hB
    exact isReady_addTransitions hnew hsymbols hA hstates htransitions
  · intro id changes B hB
    obtain ⟨s, hs, hk, r, hr, htransitions, hstates⟩ := of_updateState_eq_ok hB
    rw [← hk] at hstates
    exact ⟨s, hs, hk, r, hr, isReady_updateState hA hs hstates htransitions⟩
  · intro id value B hB
    obtain ⟨hid, hstates, htransitions⟩ := of_updateTransition_target hB
    exact isReady_retarget hA hid hstates htransitions

theorem isReady_after_edits_sample : sample.isReady = true ∧
    (sample.removeState (.text "q1")).isReady = true ∧
    ¬ (sample.removeState (.text "q0")).isReady = true ∧
    (∃ B, sample.addTransitions "q2" "q1" [.str "c"] = .ok B ∧ B.isReady = true) ∧
    (∃ B, sample.updateState "q2" (·.revise [("id", .str "end")]) = .ok B ∧
      ¬ B.isReady = true) ∧
    ∃ B, sample.updateTransition "t0" (·.revise [("target", .str "q2")]) = .ok B ∧
      B.isReady = true := by
  have hready : sample.isReady = true := by decide
  obtain ⟨hremove, _, _, _, hadd, hupdate, htarget⟩ := isReady_after_edits sample hready
  obtain ⟨B, hB⟩ : ∃ B, sample.addTransitions "q2" "q1" [.str "c"] = .ok B := ⟨_, rfl⟩
  obtain ⟨C, hC⟩ : ∃ C, sample.updateState "q2" (·.revise [("id", .str "end")]) = .ok C :=
    ⟨_, rfl⟩
  obtain ⟨D, hD⟩ : ∃ D, sample.updateTransition "t0" (·.revise [("target", .str "q2")]) = .ok D :=
    ⟨_, rfl⟩
  refine ⟨hready, (hremove _).2 (by decide), fun h => (hremove _).1 h rfl, ⟨B, hB, ?_⟩,
    ⟨C, hC, ?_⟩, D, hD, (htarget _ _ D hD).2 (by decide)⟩
  · refine (hadd _ _ _ B hB).2 (.inr ⟨by decide, List.nodup_singleton _, ?_⟩)
    intro t ht _ hc
    have hsymbols : ∀ t ∈ sample.transitions, t.symbolText ≠ "c" := by decide
    exact hsymbols t ht (Json.str.inj (List.mem_singleton.1 hc))
  · obtain ⟨s, hs, hk, r, hr, hiff⟩ := hupdate _ _ C hC
    rw [hiff]
    rintro ⟨_, h | h⟩
    · obtain ⟨d, hd, hr⟩ := Result.bind_eq_ok.1 hr
      obtain rfl := Except.ok.inj hd
      have hne : Key.text "end" ≠ .text "q2" := by decide
      rw [hk, State.key, State.id_of_build hr] at h
      exact hne h
    · have hlast : ∃ t ∈ sample.transitions, t.target.key = s.key := by
        rw [hk]
        decide
      obtain ⟨t, ht, htarget⟩ := hlast
      exact (h t ht).2 htarget

end Automaton

end DfaWorkbench
