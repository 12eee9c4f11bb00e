import Mathlib.Data.String.Basic
import DfaWorkbench.Proofs.Record
import DfaWorkbench.Proofs.Sequence.Assignment

/-! The bends of drawn edges. A record keeps each of them under a text made of the two ends, which
may be the text of other ends as well. -/

namespace DfaWorkbench

variable {fresh : FreshId} {A : Automaton} {r : Record} {t u : Transition} {ts : List Transition}
  {bend : Key × Key → Number}

namespace Transition

def ends (t : Transition) : Key × Key :=
  (t.source.key, t.target.key)

/-- A dash within the source of the one and a dash within the target of the other make one text of
their ends: with ends `s`, `m-r` and `s-m`, `r`, both have the key `s-m-r`. -/
def Overlaps (t u : Transition) : Prop :=
  ∃ m, u.source.shown = t.source.shown ++ "-" ++ m ∧
    t.target.shown = m ++ "-" ++ u.target.shown

end Transition

lemma Sequence.append_cons_eq_append_cons_iff {α : Type} {x : α} {as bs cs ds : List α} :
    as ++ x :: bs = cs ++ x :: ds ↔ (as = cs ∧ bs = ds) ∨
      (∃ ms, cs = as ++ x :: ms ∧ bs = ms ++ x :: ds) ∨
        ∃ ms, as = cs ++ x :: ms ∧ ds = ms ++ x :: bs := by
  rw [List.append_eq_append_iff]
  constructor
  · rintro (⟨ms, rfl, h⟩ | ⟨ms, rfl, h⟩)
    · cases ms with
      | nil => exact .inl ⟨(List.append_nil _).symm, (List.cons.inj h).2⟩
      | cons y ms =>
        obtain ⟨rfl, rfl⟩ := List.cons.inj h
        exact .inr (.inl ⟨ms, rfl, rfl⟩)
    · cases ms with
      | nil => exact .inl ⟨List.append_nil _, (List.cons.inj h).2.symm⟩
      | cons y ms =>
        obtain ⟨rfl, rfl⟩ := List.cons.inj h
        exact .inr (.inr ⟨ms, rfl, rfl⟩)
  · rintro (⟨rfl, rfl⟩ | ⟨ms, rfl, rfl⟩ | ⟨ms, rfl, rfl⟩)
    · exact .inl ⟨[], by simp, rfl⟩
    · exact .inl ⟨x :: ms, rfl, rfl⟩
    · exact .inr ⟨x :: ms, rfl, rfl⟩

lemma Text.dashed_eq_iff {a b c d : String} : a ++ "-" ++ b = c ++ "-" ++ d ↔
    (a = c ∧ b = d) ∨ (∃ m, c = a ++ "-" ++ m ∧ b = m ++ "-" ++ d) ∨
      ∃ m, a = c ++ "-" ++ m ∧ d = m ++ "-" ++ b := by
  have hdash : "-".toList = ['-'] := rfl
  have hexists {p : List Char → Prop} : (∃ m : String, p m.toList) ↔ ∃ ms, p ms :=
    ⟨fun ⟨m, hm⟩ => ⟨m.toList, hm⟩, fun ⟨ms, hms⟩ => ⟨String.ofList ms, by simpa using hms⟩⟩
  simp only [← String.toList_inj, String.toList_append, hdash, List.append_assoc,
    List.singleton_append]
  rw [Sequence.append_cons_eq_append_cons_iff]
  simp only [hexists (p := fun ms => c.toList = a.toList ++ '-' :: ms ∧
      b.toList = ms ++ '-' :: d.toList),
    hexists (p := fun ms => a.toList = c.toList ++ '-' :: ms ∧
      d.toList = ms ++ '-' :: b.toList)]

namespace Transition

lemma Overlaps.length_lt (h : t.Overlaps u) : t.source.shown.length < u.source.shown.length := by
  obtain ⟨m, hm, _⟩ := h
  have hdash : "-".length = 1 := rfl
  rw [hm, String.length_append, String.length_append, hdash]
  omega

lemma Overlaps.ends_ne (h : t.Overlaps u) (ht : t.source.isText = true)
    (hu : u.source.isText = true) : t.ends ≠ u.ends := by
  intro he
  obtain ⟨s, hs⟩ := Name.exists_text ht
  obtain ⟨s', hs'⟩ := Name.exists_text hu
  have hlt := h.length_lt
  have hkey : t.source.key = u.source.key := (Prod.mk.inj he).1
  rw [hs, hs'] at hkey hlt
  obtain rfl := Key.text.inj hkey
  exact lt_irrefl _ hlt

lemma curvatureKey_eq_iff (ht : t.source.isText = true ∧ t.target.isText = true)
    (hu : u.source.isText = true ∧ u.target.isText = true) :
    t.curvatureKey = u.curvatureKey ↔ t.ends = u.ends ∨ t.Overlaps u ∨ u.Overlaps t := by
  obtain ⟨⟨s, hs⟩, p, hp⟩ := And.intro (Name.exists_text ht.1) (Name.exists_text ht.2)
  obtain ⟨⟨s', hs'⟩, p', hp'⟩ := And.intro (Name.exists_text hu.1) (Name.exists_text hu.2)
  rw [curvatureKey, curvatureKey, Text.dashed_eq_iff, ends, ends, Overlaps, Overlaps, hs, hs', hp,
    hp']
  simp only [Name.shown_text, Name.key_text, Prod.mk.injEq, Key.text.injEq]

end Transition

namespace Record

def bendsOf (bend : Key × Key → Number) (ts : List Transition) : List (Name × Json) :=
  ts.map fun t => (.text t.curvatureKey, .num (bend t.ends))

def bend? (r : Record) (t : Transition) : Option Json :=
  Sequence.value? Name.key r.curvatures (.text t.curvatureKey)

lemma exists_make (id : Name) {name : Name} (hname : name.isEmpty = false) (description : Json)
    (A : Automaton) (curvatures : List (Name × Json)) :
    ∃ r, make id name description A curvatures = .ok r ∧ r.automaton = A ∧
      r.curvatures = Sequence.merged Name.key curvatures := by
  rw [make, dif_neg (Bool.eq_false_iff.1 hname)]
  exact ⟨_, rfl, rfl, rfl⟩

lemma exists_ofJson (hA : r.automaton.Plain)
    (hplaces : ∀ q ∈ r.automaton.states, ∃ x y, q.position = [x, y])
    (hcurvatures : ∀ c ∈ r.curvatures, c.1.isText = true) :
    ∃ s, ofJson fresh (.obj r.toFields) = .ok s ∧ s.automaton = r.automaton ∧
      s.curvatures = r.curvatures := by
  have hautomaton : Automaton.ofFields r.toFields = .ok r.automaton :=
    Automaton.ofFields_eq_ok hA hplaces rfl rfl rfl
  have hread : curvaturesOf (Json.fieldOr r.toFields "curvatures" .null) = .ok r.curvatures :=
    congrArg Except.ok (curvatures_of_fields hcurvatures)
  have hmerged : Sequence.merged Name.key r.curvatures = r.curvatures :=
    Sequence.merged_of_nodup r.keys_nodup
  have hname : (Name.of r.name.value).isEmpty = false := r.name_ne
  obtain ⟨s, hs, hsA, hcurvatures⟩ := exists_make
    (idOf fresh (Json.fieldOr r.toFields "id" .null)) hname
    (Json.fieldOr r.toFields "description" (.str "")) r.automaton r.curvatures
  have hfields : ofFields fresh r.toFields = .ok s := Result.bind_eq_ok.2 ⟨r.name.value, rfl,
    Result.bind_eq_ok.2 ⟨r.automaton, by rw [hautomaton]; rfl,
    Result.bind_eq_ok.2 ⟨r.curvatures, by rw [hread]; rfl, hs⟩⟩⟩
  exact ⟨s, hfields, hsA, hcurvatures.trans hmerged⟩

lemma bend?_congr (r : Record) (h : t.curvatureKey = u.curvatureKey) :
    r.bend? t = r.bend? u := by
  rw [bend?, bend?, h]

lemma exists_last_of_key (hends : ∀ u ∈ ts, u.curvatureKey = t.curvatureKey → u.ends = t.ends)
    (hstored : ∃ u ∈ ts, u.curvatureKey = t.curvatureKey) :
    ∃ v, (ts.filter (·.curvatureKey = t.curvatureKey)).getLast? = some v ∧ v.ends = t.ends := by
  obtain ⟨u, hu, hk⟩ := hstored
  have hmem : u ∈ ts.filter (·.curvatureKey = t.curvatureKey) :=
    List.mem_filter.2 ⟨hu, decide_eq_true hk⟩
  have hv := List.getLast?_eq_some_getLast (List.ne_nil_of_mem hmem)
  obtain ⟨hvts, hvk⟩ := List.mem_filter.1 (List.mem_of_getLast? hv)
  exact ⟨_, hv, hends _ hvts (of_decide_eq_true hvk)⟩

section Stored

variable (hA : A.Worded) (hplaces : ∀ q ∈ A.states, ∃ x y, q.position = [x, y])
  (id : Name) {name : Name} (hname : name.isEmpty = false) (description : Json)

include hA hplaces hname

lemma exists_stored (fresh : FreshId) (bend : Key × Key → Number) (ts : List Transition) :
    ∃ r s, make id name description A (bendsOf bend ts) = .ok r ∧
      ofJson fresh (.obj r.toFields) = .ok s ∧ s.automaton = A ∧
      ∀ t, s.bend? t = (ts.filter (·.curvatureKey = t.curvatureKey)).getLast?.map fun u =>
        .num (bend u.ends) := by
  obtain ⟨r, hr, rfl, hcurvatures⟩ := exists_make id hname description A (bendsOf bend ts)
  have htexts : ∀ c ∈ r.curvatures, c.1.isText = true := by
    intro c hc
    obtain ⟨e, he, hce⟩ := Sequence.exists_of_mem_merged (hcurvatures ▸ hc)
    obtain ⟨t, _, rfl⟩ := List.mem_map.1 he
    exact hce ▸ rfl
  obtain ⟨s, hs, hsA, hkept⟩ := exists_ofJson hA.plain hplaces htexts
  refine ⟨r, s, hr, hs, hsA, fun t => ?_⟩
  rw [bend?, hkept, hcurvatures, Sequence.value?_merged, bendsOf, List.filter_map,
    List.getLast?_map, Option.map_map]
  simp [Function.comp_def]

end Stored

/-- A record over texts that is stored as plain data and read again keeps, of the bends under one
key, the one that was stored last. So each transition finds the bend of its own ends, whatever the
bends are, exactly if no two transitions overlap, since those are the ones that share a key although
they have other ends. -/
theorem bends_kept_iff (fresh : FreshId) (hA : A.Worded)
    (hplaces : ∀ q ∈ A.states, ∃ x y, q.position = [x, y]) (id : Name) {name : Name}
    (hname : name.isEmpty = false) (description : Json) (ts : List Transition)
    (hts : ∀ u ∈ ts, u ∈ A.transitions)
    (hall : ∀ t ∈ A.transitions, ∃ u ∈ ts, u.ends = t.ends) :
    (∀ bend : Key × Key → Number, ∃ r s, make id name description A (bendsOf bend ts) = .ok r ∧
      ofJson fresh (.obj r.toFields) = .ok s ∧ s.automaton = A ∧
      ∀ t, s.bend? t = (ts.filter (·.curvatureKey = t.curvatureKey)).getLast?.map fun u =>
        .num (bend u.ends)) ∧
    ((∀ (bend : Key × Key → Number) (r s : Record),
      make id name description A (bendsOf bend ts) = .ok r →
        ofJson fresh (.obj r.toFields) = .ok s →
        ∀ t ∈ A.transitions, s.bend? t = some (.num (bend t.ends))) ↔
      ∀ t ∈ A.transitions, ∀ u ∈ A.transitions, ¬ t.Overlaps u) ∧
    ∀ t ∈ A.transitions, ∀ u ∈ A.transitions,
      (t.curvatureKey = u.curvatureKey ↔ t.ends = u.ends ∨ t.Overlaps u ∨ u.Overlaps t) := by
  have hkey : ∀ t ∈ A.transitions, ∀ u ∈ A.transitions,
      (t.curvatureKey = u.curvatureKey ↔ t.ends = u.ends ∨ t.Overlaps u ∨ u.Overlaps t) :=
    fun t ht u hu => Transition.curvatureKey_eq_iff (hA.transitions t ht).2 (hA.transitions u hu).2
  refine ⟨fun bend => exists_stored hA hplaces id hname description fresh bend ts, ⟨?_, ?_⟩, hkey⟩
  · -- Two bends, one for the ends of `t` and one for all others, tell the two apart.
    intro hkept t ht u hu hoverlap
    let bend : Key × Key → Number := fun ends => if ends = t.ends then .int 0 else .int 1
    obtain ⟨r, s, hr, hs, _⟩ := exists_stored hA hplaces id hname description fresh bend ts
    have hne := hoverlap.ends_ne (hA.transitions t ht).2.1 (hA.transitions u hu).2.1
    have hsame := s.bend?_congr ((hkey t ht u hu).2 (.inr (.inl hoverlap)))
    rw [hkept bend r s hr hs t ht, hkept bend r s hr hs u hu] at hsame
    simp [bend, hne.symm] at hsame
  · intro hapart bend r s hr hs t ht
    obtain ⟨r', s', hr', hs', _, hfound⟩ :=
      exists_stored hA hplaces id hname description fresh bend ts
    obtain rfl : r' = r := Except.ok.inj (hr'.symm.trans hr)
    obtain rfl : s' = s := Except.ok.inj (hs'.symm.trans hs)
    have hends : ∀ u ∈ ts, u.curvatureKey = t.curvatureKey → u.ends = t.ends := by
      intro u hu hk
      rcases (hkey u (hts u hu) t ht).1 hk with he | hoverlap | hoverlap
      · exact he
      · exact absurd hoverlap (hapart u (hts u hu) t ht)
      · exact absurd hoverlap (hapart t ht u (hts u hu))
    obtain ⟨u, hu, he⟩ := hall t ht
    obtain ⟨v, hlast, hv⟩ :=
      exists_last_of_key hends ⟨u, hu, (hkey u (hts u hu) t ht).2 (.inl he)⟩
    rw [hfound, hlast, Option.map_some, hv]

def branch : Transition := ⟨"branch", "a", "b-c", 'k', by decide, by decide⟩

def aside : Transition := ⟨"aside", "a-b", "d", 'k', by decide, by decide⟩

def across : Transition := ⟨"across", "a-b", "c", 'k', by decide, by decide⟩

def dashedState (id : String) (h : id ≠ "") : State :=
  ⟨id, id, .normal, State.origin, Name.isEmpty_text h, Name.isEmpty_text h⟩

def dashed (ts : List Transition) : Automaton where
  states := [dashedState "a" (by decide), dashedState "a-b" (by decide),
    dashedState "b-c" (by decide), dashedState "c" (by decide), dashedState "d" (by decide)]
  transitions := ts
  alphabet := ["k"]
  keys_nodup := by decide
  ids_atoms := by decide
  alphabet_nodup := by decide
  alphabet_atoms := by decide

lemma worded_dashed (hts : ∀ t ∈ ts, t.id.isText = true ∧ t.source.isText = true ∧
    t.target.isText = true) : (dashed ts).Worded where
  ids := by simp [dashed, dashedState, Name.isText]
  labels := by simp [dashed, dashedState, Name.isText]
  transitions := hts
  alphabet := by simp [dashed, Name.isText]

lemma places_dashed (ts : List Transition) :
    ∀ q ∈ (dashed ts).states, ∃ x y, q.position = [x, y] := by
  simp [dashed, dashedState, State.origin]

theorem bends_kept_iff_apart : ∃ r s,
    make "i" "n" (.str "") (dashed [branch, aside])
      (bendsOf (fun ends => if ends = branch.ends then .int 1 else .int 2) [aside, branch]) =
        .ok r ∧
    ofJson spareId (.obj r.toFields) = .ok s ∧
    s.bend? branch = some (.num (.int 1)) ∧ s.bend? aside = some (.num (.int 2)) := by
  have hname : (Name.text "n").isEmpty = false := by decide
  have hworded : (dashed [branch, aside]).Worded := worded_dashed (by decide)
  obtain ⟨hstored, hkept, hkeys⟩ := bends_kept_iff spareId hworded (places_dashed _) "i" hname
    (.str "") [aside, branch] (by simp [dashed]) (by simp [dashed])
  have hapart : ∀ t ∈ (dashed [branch, aside]).transitions,
      ∀ u ∈ (dashed [branch, aside]).transitions, ¬ t.Overlaps u := by
    intro t ht u hu hoverlap
    have hkey := (hkeys t ht u hu).2 (.inr (.inl hoverlap))
    simp only [dashed, List.mem_cons, List.not_mem_nil, or_false] at ht hu
    rcases ht with rfl | rfl <;> rcases hu with rfl | rfl
    · exact lt_irrefl _ hoverlap.length_lt
    · revert hkey
      decide
    · revert hkey
      decide
    · exact lt_irrefl _ hoverlap.length_lt
  obtain ⟨r, s, hr, hs, _⟩ := hstored fun ends => if ends = branch.ends then .int 1 else .int 2
  have hfound := hkept.2 hapart _ r s hr hs
  exact ⟨r, s, hr, hs, hfound branch (by simp [dashed]), hfound aside (by simp [dashed])⟩

theorem bends_lost_dashed : branch.ends ≠ across.ends ∧ branch.curvatureKey = across.curvatureKey ∧
    ∀ (fresh : FreshId) (bend : Key × Key → Number), ∃ r s,
      make "i" "n" (.str "") (dashed [branch, across]) (bendsOf bend [branch, across]) = .ok r ∧
      ofJson fresh (.obj r.toFields) = .ok s ∧ s.bend? branch = some (.num (bend across.ends)) := by
  refine ⟨by decide, by decide, fun fresh bend => ?_⟩
  have hname : (Name.text "n").isEmpty = false := by decide
  have hworded : (dashed [branch, across]).Worded := worded_dashed (by decide)
  obtain ⟨r, s, hr, hs, _, hfound⟩ := exists_stored hworded (places_dashed _) "i" hname (.str "")
    fresh bend [branch, across]
  exact ⟨r, s, hr, hs, hfound branch⟩

end Record

end DfaWorkbench
