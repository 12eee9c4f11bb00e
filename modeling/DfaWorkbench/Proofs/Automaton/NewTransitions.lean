import DfaWorkbench.Proofs.Automaton.History

/-! New transitions. Their numbers are those of a count that goes on from one to the next, and what
is added in two parts is what is added at once. -/

namespace DfaWorkbench

variable {A C : Automaton} {source target : Name} {taken : List Key} {symbols : List Json}
  {ks new : List Transition} {v : Json} {a : Char} {n : ℕ}

def IsSymbol (v : Json) : Prop :=
  ∃ a, a ≠ 'ε' ∧ a ≠ '^' ∧ v = .str (String.singleton a)

lemma notMem_emptyWordSigns : a ∉ emptyWordSigns ↔ a ≠ 'ε' ∧ a ≠ '^' := by
  rw [emptyWordSigns, List.mem_cons, List.mem_singleton, not_or]

namespace Transition

lemma exists_make (source target : Name) {id : Name} (hid : id.isEmpty = false)
    (ha : a ∉ emptyWordSigns) : ∃ t, make id source target (.str (String.singleton a)) = .ok t := by
  obtain ⟨t, ht⟩ : ∃ t, ofChar id source target a = .ok t := exists_ofChar hid ha
  refine ⟨t, ?_⟩
  simp [make, hid, ht]

lemma make_eq_error {id : Name} (hid : id.isEmpty = false) (hv : ¬ IsSymbol v) :
    make id source target v = .error (.notOneSymbol id v) ∨
      make id source target v = .error (.emptyWordSymbol id) := by
  cases v with
  | str s =>
    cases hs : s.toList with
    | nil => exact .inl (by simp [make, hid, hs])
    | cons a as =>
      cases as with
      | nil =>
        have hsign : a ∈ emptyWordSigns := by
          by_contra ha
          obtain ⟨hε, hcaret⟩ := notMem_emptyWordSigns.1 ha
          have he : s = String.singleton a := String.toList_injective (by simp [hs])
          exact hv ⟨a, hε, hcaret, congrArg Json.str he⟩
        exact .inr (by simp [make, ofChar, hid, hs, hsign])
      | cons b as => exact .inl (by simp [make, hid, hs])
  | _ => exact .inl (by simp [make, hid])

end Transition

namespace Automaton

lemma freshTransitions_cons (source target : Name) (taken : List Key) (count : ℕ) {n : ℕ} (v : Json)
    (symbols : List Json) (hn : Sequence.firstFree transitionKey taken count = n) :
    freshTransitions source target taken count (v :: symbols) =
      Transition.make (transitionName n) source target v >>= fun t =>
        (freshTransitions source target (transitionKey n :: taken) n symbols).map (t :: ·) := by
  rw [freshTransitions, hn]
  refine bind_congr fun t => ?_
  change Except.bind (freshTransitions source target (transitionKey n :: taken) n symbols) _ = _
  cases freshTransitions source target (transitionKey n :: taken) n symbols <;> rfl

lemma exists_freshTransitions (source target : Name) (taken : List Key) (count : ℕ)
    {symbols : List Char} (h : ∀ a ∈ symbols, a ∉ emptyWordSigns) : ∃ new numbers,
      freshTransitions source target taken count
        (symbols.map fun a => .str (String.singleton a)) = .ok new ∧
      Sequence.Numbered transitionKey taken count numbers ∧
      new.map Transition.id = numbers.map (fun n => Name.text (transitionName n)) ∧
      new.map Transition.move = symbols.map fun a => (source, a, target) := by
  induction symbols generalizing taken count with
  | nil => exact ⟨[], [], rfl, .nil, rfl, rfl⟩
  | cons a symbols ih =>
    rw [List.forall_mem_cons] at h
    have hseeks := Sequence.seeks_firstFree transitionKey_injective taken count
    generalize hn : Sequence.firstFree transitionKey taken count = n at hseeks
    obtain ⟨t, ht⟩ := Transition.exists_make source target (transitionName_ne n) h.1
    obtain ⟨new, numbers, hnew, hnumbers, hids, hmoves⟩ := ih (transitionKey n :: taken) n h.2
    obtain ⟨hid, hsource, htarget, hsymbol⟩ := Transition.of_make_eq_ok ht
    have ha : a = t.symbol := String.singleton_inj.1 (Json.str.inj hsymbol)
    refine ⟨t :: new, n :: numbers, ?_, .cons hseeks hnumbers, ?_, ?_⟩
    · rw [List.map_cons, freshTransitions_cons source target taken count _ _ hn, ht, hnew]
      rfl
    · rw [List.map_cons, List.map_cons, hid, hids]
    · rw [List.map_cons, List.map_cons, hmoves, Transition.move, hsource, htarget, ha]

lemma freshTransitions_eq_error (taken : List Key) (count : ℕ) (h : ∃ v ∈ symbols, ¬ IsSymbol v) :
    ∃ n, ∃ v ∈ symbols, ¬ IsSymbol v ∧
      (freshTransitions source target taken count symbols =
          .error (.notOneSymbol (transitionName n) v) ∨
        freshTransitions source target taken count symbols =
          .error (.emptyWordSymbol (transitionName n))) := by
  induction symbols generalizing taken count with
  | nil => simp at h
  | cons v symbols ih =>
    generalize hn : Sequence.firstFree transitionKey taken count = n
    by_cases hv : IsSymbol v
    · have hrest : ∃ v ∈ symbols, ¬ IsSymbol v := by simpa [hv] using h
      obtain ⟨m, u, hu, hno, herror⟩ := ih (transitionKey n :: taken) n hrest
      obtain ⟨a, hε, hcaret, rfl⟩ := hv
      obtain ⟨t, ht⟩ := Transition.exists_make source target (transitionName_ne n)
        (notMem_emptyWordSigns.2 ⟨hε, hcaret⟩)
      have hstep {e : Defect}
          (he : freshTransitions source target (transitionKey n :: taken) n symbols = .error e) :
          freshTransitions source target taken count (.str (String.singleton a) :: symbols) =
            .error e := by
        rw [freshTransitions_cons source target taken count _ _ hn, ht, he]
        rfl
      exact ⟨m, u, List.mem_cons_of_mem _ hu, hno, herror.imp hstep hstep⟩
    · have hstep {e : Defect} (he : Transition.make (transitionName n) source target v = .error e) :
          freshTransitions source target taken count (v :: symbols) = .error e := by
        rw [freshTransitions_cons source target taken count _ _ hn, he]
        rfl
      refine ⟨n, v, List.mem_cons_self, hv, ?_⟩
      exact (Transition.make_eq_error (transitionName_ne n) hv).imp hstep hstep

lemma addTransitions_of_atoms (h : ∀ t ∈ A.transitions, t.id.isAtom = true) :
    A.addTransitions source target symbols =
      freshTransitions source target A.transitionIds 0 symbols >>= fun new =>
        make A.states (A.transitions ++ new)
          (A.alphabet ++ new.map fun t => .text t.symbolText) := by
  rw [addTransitions, Name.requireAtoms_of_isAtom (List.forall_mem_map.2 h)]
  rfl

lemma addTransitions_of_unfit (h : ¬ ∀ t ∈ A.transitions, t.id.isAtom = true) :
    A.addTransitions source target symbols = .error (.unfitName .notAtom) := by
  have hnone : ¬ (A.transitions.map Transition.id).all Name.isAtom = true := by
    rwa [List.all_eq_true, List.forall_mem_map]
  rw [addTransitions, Name.requireAtoms, if_neg hnone]
  rfl

lemma exists_make_new (A : Automaton) (ts new : List Transition) :
    ∃ B, make A.states ts (A.alphabet ++ new.map fun t => .text t.symbolText) = .ok B := by
  apply exists_make A.keys_nodup A.ids_atoms
  refine List.forall_mem_append.2 ⟨A.alphabet_atoms, List.forall_mem_map.2 fun t _ => ?_⟩
  exact Name.isAtom_text _

/-- What the new transitions on some symbols make of an automaton. -/
structure Gains (A B : Automaton) (source target : Name) (symbols : List Char)
    (new : List Transition) (numbers : List ℕ) : Prop where
  states : B.states = A.states
  transitions : B.transitions = A.transitions ++ new
  moves : new.map Transition.move = symbols.map fun a => (source, a, target)
  ids : new.map Transition.id = numbers.map fun n => Name.text (transitionName n)
  counted : Sequence.Numbered transitionKey A.transitionIds 0 numbers
  least : ∀ i n, numbers[i]? = some n → IsLeast {m | transitionKey m ∉ A.transitionIds ∧
    transitionKey m ∉ (numbers.take i).map transitionKey} n
  nodup : (new.map (·.id.key)).Nodup
  fresh : ∀ t ∈ new, t.id.key ∉ A.transitionIds
  alphabet : B.alphabet = A.alphabet ++ (symbols.eraseDups.filter fun a =>
    (Name.ofChar a).key ∉ A.alphabet.map Name.key).map Name.ofChar

lemma keys_of_ids {numbers : List ℕ}
    (h : new.map Transition.id = numbers.map fun n => Name.text (transitionName n)) :
    new.map (·.id.key) = numbers.map transitionKey := by
  have hkeys := congrArg (List.map Name.key) h
  rwa [List.map_map, List.map_map] at hkeys

lemma distinct_alphabet_append {symbols : List Char}
    (h : new.map Transition.move = symbols.map fun a => (source, a, target)) :
    Sequence.distinct Name.key (A.alphabet ++ new.map fun t => .text t.symbolText) =
      A.alphabet ++ (symbols.eraseDups.filter fun a =>
        (Name.ofChar a).key ∉ A.alphabet.map Name.key).map Name.ofChar := by
  have hsymbols : (new.map fun t => Name.text t.symbolText) = symbols.map Name.ofChar := by
    have hmoves := congrArg (List.map fun m => Name.ofChar m.2.1) h
    rwa [List.map_map, List.map_map] at hmoves
  have hinjective : Function.Injective (Name.key ∘ Name.ofChar) :=
    fun _ _ hab => String.singleton_inj.1 (Key.text.inj hab)
  rw [hsymbols, Sequence.distinct_append A.alphabet_nodup, Sequence.unseen_map hinjective]

lemma exists_gains (h : ∀ t ∈ A.transitions, t.id.isAtom = true) (source target : Name)
    {symbols : List Char} (hsymbols : ∀ a ∈ symbols, a ∉ emptyWordSigns) : ∃ B new numbers,
      A.addTransitions source target (symbols.map fun a => .str (String.singleton a)) = .ok B ∧
        A.Gains B source target symbols new numbers := by
  obtain ⟨new, numbers, hnew, hnumbers, hids, hmoves⟩ :=
    exists_freshTransitions source target A.transitionIds 0 hsymbols
  obtain ⟨B, hB⟩ := A.exists_make_new (A.transitions ++ new) new
  obtain ⟨hstates, htransitions, halphabet⟩ := of_make_eq_ok hB
  have hkeys := keys_of_ids hids
  refine ⟨B, new, numbers, ?_, hstates, htransitions, hmoves, hids, hnumbers, ?_, ?_, ?_, ?_⟩
  · rw [addTransitions_of_atoms h]
    exact Result.bind_eq_ok.2 ⟨new, hnew, hB⟩
  · exact (Sequence.numbered_iff fun k hk => absurd hk k.not_lt_zero).1 hnumbers
  · exact hkeys ▸ hnumbers.nodup
  · intro t ht
    have hmem : t.id.key ∈ numbers.map transitionKey := hkeys ▸ List.mem_map_of_mem ht
    obtain ⟨n, hn, he⟩ := List.mem_map.1 hmem
    exact he ▸ hnumbers.name_notMem n hn
  · rw [halphabet, distinct_alphabet_append hmoves]

/-- New transitions on symbols are never refused as long as the ids that there are can be looked up.
The search for their numbers ends, each with the least number whose id is unused by then; all else
stays, and the symbols that are new join the alphabet. If one of the values is no symbol, wherever
it stands, no transition is added. -/
theorem addTransitions_numbered (A : Automaton) (source target : Name) :
    ((∀ t ∈ A.transitions, t.id.isAtom = true) →
      (∀ symbols : List Char, (∀ a ∈ symbols, a ≠ 'ε' ∧ a ≠ '^') → ∃ B new numbers,
        A.addTransitions source target (symbols.map fun a => .str (String.singleton a)) = .ok B ∧
          A.Gains B source target symbols new numbers) ∧
      ∀ symbols : List Json, (∃ v ∈ symbols, ¬ IsSymbol v) → ∃ n, ∃ v ∈ symbols, ¬ IsSymbol v ∧
        (A.addTransitions source target symbols = .error (.notOneSymbol (transitionName n) v) ∨
          A.addTransitions source target symbols =
            .error (.emptyWordSymbol (transitionName n)))) ∧
    ((¬ ∀ t ∈ A.transitions, t.id.isAtom = true) → ∀ symbols,
      A.addTransitions source target symbols = .error (.unfitName .notAtom)) := by
  refine ⟨fun h => ⟨fun symbols hsymbols => ?_, fun symbols hsymbols => ?_⟩, fun h symbols => ?_⟩
  · exact exists_gains h source target fun a ha => notMem_emptyWordSigns.2 (hsymbols a ha)
  · obtain ⟨n, v, hv, hno, herror⟩ := freshTransitions_eq_error A.transitionIds 0 hsymbols
    have hstep {e : Defect}
        (he : freshTransitions source target A.transitionIds 0 symbols = .error e) :
        A.addTransitions source target symbols = .error e := by
      rw [addTransitions_of_atoms h, he]
      rfl
    exact ⟨n, v, hv, hno, herror.imp hstep hstep⟩
  · exact addTransitions_of_unfit h

def gapped : Automaton where
  states :=
    [⟨"near", "near", .start, State.origin, by decide, by decide⟩,
      ⟨"far", "far", .accept, State.origin, by decide, by decide⟩]
  transitions :=
    [⟨transitionName 0, "near", "far", 'r', transitionName_ne 0, by decide⟩,
      ⟨"t01", "far", "far", 's', by decide, by decide⟩,
      ⟨transitionName 2, "far", "near", 'r', transitionName_ne 2, by decide⟩]
  alphabet := ["l", "r"]
  keys_nodup := by decide
  ids_atoms := by decide
  alphabet_nodup := by decide
  alphabet_atoms := by decide

theorem addTransitions_numbered_gapped :
    (∀ t ∈ gapped.transitions, t.id.isAtom = true) ∧
    (∃ B new numbers, gapped.addTransitions "near" "far" [.str "s", .str "r", .str "s"] = .ok B ∧
      gapped.Gains B "near" "far" ['s', 'r', 's'] new numbers ∧ B.transitionIds = [.text "t0",
        .text "t01", .text "t2", .text "t1", .text "t3", .text "t4"]) ∧
    ∃ e, gapped.addTransitions "near" "far" [.str "s", .str "ε", .str "r"] = .error e := by
  have hatoms : ∀ t ∈ gapped.transitions, t.id.isAtom = true := by decide
  obtain ⟨hgains, herror⟩ := (addTransitions_numbered gapped "near" "far").1 hatoms
  refine ⟨hatoms, ?_, ?_⟩
  · obtain ⟨B, new, numbers, hB, h⟩ := hgains ['s', 'r', 's'] (by simp)
    refine ⟨B, new, numbers, hB, h, ?_⟩
    obtain rfl := Except.ok.inj hB
    rfl
  · have hsign : ¬ IsSymbol (.str "ε") := by
      rintro ⟨a, ha, _, he⟩
      have hsingle : String.singleton 'ε' = String.singleton a := Json.str.inj he
      exact ha (String.singleton_inj.1 hsingle).symm
    obtain ⟨_, _, _, _, h | h⟩ := herror [.str "s", .str "ε", .str "r"] ⟨_, by simp, hsign⟩
    · exact ⟨_, h⟩
    · exact ⟨_, h⟩

lemma freshTransitions_congr {taken' : List Key} {n' : ℕ} (h : ∀ k, k ∈ taken ↔ k ∈ taken')
    (hn : ∀ k < n, transitionKey k ∈ taken) (hn' : ∀ k < n', transitionKey k ∈ taken') :
    freshTransitions source target taken n symbols =
      freshTransitions source target taken' n' symbols := by
  induction symbols generalizing taken taken' n n' with
  | nil => rfl
  | cons v symbols ih =>
    have hfirst : Sequence.firstFree transitionKey taken n =
        Sequence.firstFree transitionKey taken' n' :=
      Sequence.firstFree_congr transitionKey_injective h hn hn'
    have hbelow := Sequence.mem_of_lt_firstFree transitionKey_injective hn
    have hbelow' := Sequence.mem_of_lt_firstFree transitionKey_injective hn'
    rw [freshTransitions_cons source target taken n v symbols hfirst,
      freshTransitions_cons source target taken' n' v symbols rfl]
    rw [hfirst] at hbelow
    have hrest := @ih _ _ _ _ (fun k => by rw [List.mem_cons, List.mem_cons, h]) hbelow hbelow'
    rw [hrest]

lemma isAtom_of_freshTransitions (h : freshTransitions source target taken n symbols = .ok new) :
    ∀ t ∈ new, t.id.isAtom = true := by
  induction symbols generalizing taken n new with
  | nil =>
    obtain rfl := Except.ok.inj h
    exact List.forall_mem_nil _
  | cons v symbols ih =>
    obtain ⟨t, ht, h⟩ := Result.bind_eq_ok.1 h
    obtain ⟨ts, hts, h⟩ := Result.bind_eq_ok.1 h
    obtain rfl := Except.ok.inj h
    refine List.forall_mem_cons.2 ⟨?_, ih hts⟩
    rw [(Transition.of_make_eq_ok ht).1]
    exact Name.isAtom_text _

lemma freshTransitions_append (hn : ∀ k < n, transitionKey k ∈ taken) (xs ys : List Json) :
    freshTransitions source target taken n (xs ++ ys) =
      freshTransitions source target taken n xs >>= fun ks =>
        (freshTransitions source target (taken ++ ks.map (·.id.key)) 0 ys).map (ks ++ ·) := by
  have hnone {taken : List Key} : ∀ k < 0, transitionKey k ∈ taken :=
    fun k hk => absurd hk k.not_lt_zero
  induction xs generalizing taken n with
  | nil =>
    have hcongr : freshTransitions source target taken n ys =
        freshTransitions source target (taken ++ []) 0 ys :=
      freshTransitions_congr (fun k => by rw [List.append_nil]) hn hnone
    change _ = (freshTransitions source target (taken ++ []) 0 ys).map ([] ++ ·)
    rw [← hcongr, List.nil_append]
    cases freshTransitions source target taken n ys <;> rfl
  | cons v xs ih =>
    have hbelow := Sequence.mem_of_lt_firstFree transitionKey_injective hn
    generalize hm : Sequence.firstFree transitionKey taken n = m at hbelow
    rw [List.cons_append, freshTransitions_cons source target taken n _ _ hm,
      freshTransitions_cons source target taken n _ _ hm, ih hbelow]
    cases ht : Transition.make (transitionName m) source target v with
    | error e => rfl
    | ok t =>
      cases hks : freshTransitions source target (transitionKey m :: taken) m xs with
      | error e => rfl
      | ok ks =>
        have hcongr : freshTransitions source target
              (transitionKey m :: taken ++ ks.map (·.id.key)) 0 ys =
            freshTransitions source target (taken ++ (t :: ks).map (·.id.key)) 0 ys := by
          refine freshTransitions_congr (fun k => ?_) hnone hnone
          rw [List.map_cons, (Transition.of_make_eq_ok ht).1]
          exact List.perm_middle.symm.mem_iff
        change Except.map (t :: ·) (Except.map (ks ++ ·) _) = Except.map (t :: ks ++ ·) _
        rw [hcongr]
        cases freshTransitions source target (taken ++ (t :: ks).map (·.id.key)) 0 ys <;> rfl

lemma addTransitions_of_fresh (hatoms : ∀ t ∈ A.transitions, t.id.isAtom = true)
    (hks : freshTransitions source target taken n symbols = .ok ks)
    (hC : make A.states (A.transitions ++ ks)
      (A.alphabet ++ ks.map fun t => .text t.symbolText) = .ok C) (ys : List Json) :
    C.addTransitions source target ys =
      freshTransitions source target (A.transitionIds ++ ks.map (·.id.key)) 0 ys >>= fun ms =>
        make A.states (A.transitions ++ (ks ++ ms))
          (A.alphabet ++ (ks ++ ms).map fun t => .text t.symbolText) := by
  obtain ⟨hstates, htransitions, halphabet⟩ := of_make_eq_ok hC
  have hids : C.transitionIds = A.transitionIds ++ ks.map (·.id.key) := by
    rw [transitionIds, htransitions, List.map_append]
    rfl
  have hatoms' : ∀ t ∈ C.transitions, t.id.isAtom = true := by
    rw [htransitions, List.forall_mem_append]
    exact ⟨hatoms, isAtom_of_freshTransitions hks⟩
  rw [addTransitions_of_atoms hatoms', hids]
  refine bind_congr fun ms => ?_
  obtain ⟨B, hB⟩ := A.exists_make_new (A.transitions ++ (ks ++ ms)) (ks ++ ms)
  obtain ⟨hstates', htransitions', halphabet'⟩ := of_make_eq_ok hB
  rw [hB, make_eq_ok_iff]
  refine ⟨hstates'.trans hstates.symm, ?_, ?_⟩
  · rw [htransitions', htransitions, List.append_assoc]
  · rw [halphabet', halphabet, Sequence.distinct_distinct_append, List.map_append,
      List.append_assoc]

/-- Adding transitions at once is adding some of them and then the others: both are refused alike,
or both give the same automaton. The count that goes on from the first part to the second finds the
numbers that one finds that begins anew. -/
theorem addTransitions_append (A : Automaton) (source target : Name) (xs ys : List Json) :
    A.addTransitions source target (xs ++ ys) =
      (A.addTransitions source target xs >>= fun B => B.addTransitions source target ys) ∧
    ∀ ms ns, Sequence.Numbered transitionKey A.transitionIds 0 (ms ++ ns) ↔
      Sequence.Numbered transitionKey A.transitionIds 0 ms ∧
        Sequence.Numbered transitionKey (A.transitionIds ++ ms.map transitionKey) 0 ns := by
  refine ⟨?_, fun ms ns => Sequence.numbered_append_iff⟩
  by_cases hatoms : ∀ t ∈ A.transitions, t.id.isAtom = true
  · rw [addTransitions_of_atoms hatoms, addTransitions_of_atoms hatoms,
      freshTransitions_append fun k hk => absurd hk k.not_lt_zero]
    cases hks : freshTransitions source target A.transitionIds 0 xs with
    | error e => rfl
    | ok ks =>
      -- Both sides come down to the second part, over the ids that the first part has taken.
      obtain ⟨C, hC⟩ := A.exists_make_new (A.transitions ++ ks) ks
      change _ = (make _ _ _ >>= fun B => B.addTransitions source target ys)
      rw [hC]
      change ((freshTransitions source target _ 0 ys).map (ks ++ ·) >>= _) =
        C.addTransitions source target ys
      rw [addTransitions_of_fresh hatoms hks hC]
      cases freshTransitions source target (A.transitionIds ++ ks.map (·.id.key)) 0 ys <;> rfl
  · rw [addTransitions_of_unfit hatoms, addTransitions_of_unfit hatoms]
    rfl

end Automaton

end DfaWorkbench
