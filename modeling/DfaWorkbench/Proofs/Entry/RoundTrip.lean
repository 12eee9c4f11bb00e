import Mathlib.Tactic.Common
import DfaWorkbench.Entry.Automaton
import DfaWorkbench.Proofs.Automaton.Edit
import DfaWorkbench.Proofs.Automaton.Worded
import DfaWorkbench.Proofs.Sequence.Distinct

/-! Automata as plain data: what was written as fields is read as the same automaton. -/

namespace DfaWorkbench

variable {q : State} {t : Transition} {A : Automaton} {fs : List (String × Json)}

/-- A name that is any value but a fixed list. Plain data has no fixed lists. -/
def Name.isPlain : Name → Bool
  | of _ => true
  | group _ => false

lemma Name.isPlain_of_isText {n : Name} (h : n.isText = true) : n.isPlain = true := by
  cases n with
  | of v => rfl
  | group xs => cases h

lemma Name.of_value {n : Name} (h : n.isPlain = true) : Name.of n.value = n := by
  cases n with
  | of v => rfl
  | group xs => cases h

structure Automaton.Plain (A : Automaton) : Prop where
  states : ∀ q ∈ A.states, q.id.isPlain = true ∧ q.label.isPlain = true
  transitions : ∀ t ∈ A.transitions,
    t.id.isPlain = true ∧ t.source.isPlain = true ∧ t.target.isPlain = true
  alphabet : ∀ a ∈ A.alphabet, a.isPlain = true

lemma Automaton.Worded.plain (h : A.Worded) : A.Plain where
  states q hq := ⟨Name.isPlain_of_isText (h.ids q hq), Name.isPlain_of_isText (h.labels q hq)⟩
  transitions t ht := by
    obtain ⟨hid, hsource, htarget⟩ := h.transitions t ht
    exact ⟨Name.isPlain_of_isText hid, Name.isPlain_of_isText hsource,
      Name.isPlain_of_isText htarget⟩
  alphabet a ha := Name.isPlain_of_isText (h.alphabet a ha)

lemma State.coordinates_of_position {x y : Json} (h : q.position = [x, y]) :
    q.x = x ∧ q.y = y := by
  rw [State.x, State.y, h]
  exact ⟨rfl, rfl⟩

lemma State.ofJson_toJson (hid : q.id.isPlain = true) (hlabel : q.label.isPlain = true)
    (hplace : ∃ x y, q.position = [x, y]) : ofJson q.toJson = .ok q := by
  obtain ⟨x, y, hxy⟩ := hplace
  obtain ⟨hx, hy⟩ := coordinates_of_position hxy
  have hmake := q.make_parts
  rw [hxy] at hmake
  have htype : (StateType.resolve (.str q.type.name)).mapError EntryError.defect = .ok q.type :=
    Result.mapError_eq_ok.2 (StateType.resolve_name q.type)
  refine Result.bind_eq_ok.2 ⟨_, rfl, Result.bind_eq_ok.2 ⟨q.id.value, rfl,
    Result.bind_eq_ok.2 ⟨q.type, htype, Result.mapError_eq_ok.2 ?_⟩⟩⟩
  rw [← hmake, ← hx, ← hy]
  exact congrArg₂ (fun id label => make id label q.type [q.x, q.y]) (Name.of_value hid)
    (Name.of_value hlabel)

lemma Transition.ofJson_toJson (hid : t.id.isPlain = true) (hsource : t.source.isPlain = true)
    (htarget : t.target.isPlain = true) : ofJson t.toJson = .ok t := by
  refine Result.bind_eq_ok.2 ⟨_, rfl, Result.bind_eq_ok.2 ⟨t.id.value, rfl,
    Result.bind_eq_ok.2 ⟨t.source.value, rfl, Result.bind_eq_ok.2 ⟨t.target.value, rfl,
    Result.bind_eq_ok.2 ⟨.str t.symbolText, rfl, Result.mapError_eq_ok.2 ?_⟩⟩⟩⟩⟩
  rw [Name.of_value hid, Name.of_value hsource, Name.of_value htarget, make_parts]

namespace Automaton

theorem ofFields_eq_ok (hA : A.Plain)
    (hplaces : ∀ q ∈ A.states, ∃ x y, q.position = [x, y])
    (hstates : Json.field? fs "states" = some (.arr (A.states.map State.toJson)))
    (htransitions : Json.field? fs "transitions" =
      some (.arr (A.transitions.map Transition.toJson)))
    (halphabet : Json.field? fs "alphabet" = some (.arr (A.alphabet.map Name.value))) :
    ofFields fs = .ok A := by
  have hqs : (A.states.map State.toJson).mapM State.ofJson = .ok A.states := by
    rw [Result.mapM_eq_ok_iff, List.forall₂_map_left_iff, List.forall₂_same]
    intro q hq
    obtain ⟨hid, hlabel⟩ := hA.states q hq
    exact State.ofJson_toJson hid hlabel (hplaces q hq)
  have hts : (A.transitions.map Transition.toJson).mapM Transition.ofJson = .ok A.transitions := by
    rw [Result.mapM_eq_ok_iff, List.forall₂_map_left_iff, List.forall₂_same]
    intro t ht
    obtain ⟨hid, hsource, htarget⟩ := hA.transitions t ht
    exact Transition.ofJson_toJson hid hsource htarget
  have hnames : (A.alphabet.map Name.value).map Name.of = A.alphabet := by
    rw [List.map_map]
    exact (List.map_congr_left fun a ha => Name.of_value (hA.alphabet a ha)).trans (List.map_id _)
  refine Result.bind_eq_ok.2 ⟨A.states.map State.toJson, by rw [Json.fieldOr, hstates]; rfl,
    Result.bind_eq_ok.2 ⟨A.states, hqs,
    Result.bind_eq_ok.2 ⟨A.transitions.map Transition.toJson, by
      rw [Json.fieldOr, htransitions]; rfl,
    Result.bind_eq_ok.2 ⟨A.transitions, hts,
    Result.bind_eq_ok.2 ⟨A.alphabet, ?_, Result.mapError_eq_ok.2 A.make_parts⟩⟩⟩⟩⟩
  rw [Json.fieldOr, halphabet]
  exact congrArg Except.ok hnames

end Automaton

end DfaWorkbench
