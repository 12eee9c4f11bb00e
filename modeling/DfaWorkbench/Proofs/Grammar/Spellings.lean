import DfaWorkbench.Grammar.Parser
import DfaWorkbench.Proofs.Result
import DfaWorkbench.Proofs.Text.Cut

/-! Rule lines under settings whose spellings are texts. What keeps a line from being read is then a
fault of the line, and nothing that is read off it holds a marker for the empty word. -/

namespace DfaWorkbench

variable {settings : Settings} {arrows markers : List String} {word bar : String} {c : Char}
  {line piece cs left right head body : List Char} {fault : RuleFault} {r : Rule}

namespace Settings

structure Typed (settings : Settings) : Prop where
  arrows : ∃ words : List String, settings.arrows = .each (words.map Name.text)
  alternation : ∃ bar : String, settings.alternation = bar
  emptyMarkers : ∃ words : List String, settings.emptyMarkers = .each (words.map Name.text)
  sinkId : settings.sinkId.isText = true
  origin : ∃ coordinates : List Number, settings.origin = .arr (coordinates.map Json.num)
  spacing : ∃ distance, settings.spacing = .num distance

def IsMarker (settings : Settings) (word : String) : Prop :=
  ∃ words, settings.emptyMarkers.words? = some words ∧ .text word ∈ words

def Unmarked (settings : Settings) (cs : List Char) : Prop :=
  ∀ word, settings.IsMarker word → ¬ word.toList <:+: cs

lemma typed_default : Typed {} where
  arrows := ⟨["→", "->"], rfl⟩
  alternation := ⟨"|", rfl⟩
  emptyMarkers := ⟨["ε", "^"], rfl⟩
  sinkId := rfl
  origin := ⟨[.float 200, .float 200], rfl⟩
  spacing := ⟨.float 200, rfl⟩

lemma sinkId_of_check {checked : Settings} (h : settings.check = .ok checked) :
    settings.sinkId.isEmpty = false := by
  rw [check] at h
  split at h
  · cases h
  · split at h
    · cases h
    · split at h
      · cases h
      · next hsink => exact Bool.eq_false_iff.2 hsink

lemma isMarker_iff (h : settings.emptyMarkers = .each (markers.map Name.text)) :
    settings.IsMarker word ↔ word ∈ markers := by
  simp [IsMarker, h, Spellings.words?, Name.text]

lemma unmarked_iff (h : settings.emptyMarkers = .each (markers.map Name.text)) :
    settings.Unmarked cs ↔ ¬ ∃ marker ∈ markers, marker.toList <:+: cs := by
  simp only [Unmarked, isMarker_iff h, not_exists, not_and]

lemma Unmarked.not_isMarker (h : settings.Unmarked cs) (hc : c ∈ cs) :
    ¬ settings.IsMarker (String.singleton c) := by
  intro hmarker
  refine h _ hmarker ?_
  rwa [String.toList_singleton, List.singleton_infix_iff]

end Settings

namespace Rule

lemma recognises?_texts (markers : List String) (cs : List Char) :
    (Spellings.each (markers.map Name.text)).recognises? cs =
      some (decide (String.ofList cs ∈ markers)) := by
  simp [Spellings.recognises?, Spellings.words?, List.any_eq, eq_comm]

lemma holdsMarker_texts (markers : List String) (cs : List Char) :
    holdsMarker cs (markers.map Name.text) =
      .ok (decide (∃ marker ∈ markers, marker.toList <:+: cs)) := by
  induction markers with
  | nil => rfl
  | cons marker markers ih =>
    change (if Text.occursIn marker.toList cs = true then Except.ok true
      else holdsMarker cs (markers.map Name.text)) = _
    rw [ih]
    by_cases h : marker.toList <:+: cs
    · simp [Text.occursIn_iff, h]
    · simp [Text.occursIn_iff, h]

lemma splitAt?_texts (arrows : List String) (line : List Char) :
    splitAt? line (arrows.map Name.text) =
      .ok (arrows.findSome? fun arrow => Text.cutAt arrow.toList line) := by
  induction arrows with
  | nil => rfl
  | cons arrow arrows ih =>
    have hneed : need (Name.text arrow).text? = .ok arrow := rfl
    rw [List.findSome?_cons, List.map_cons, splitAt?, hneed, ih]
    cases hcut : Text.cutAt arrow.toList line with
    | some sides => simp [hcut, bind, Except.bind, pure, Except.pure]
    | none => simp [hcut, bind, Except.bind]

lemma parseAlternative_texts (h : settings.emptyMarkers = .each (markers.map Name.text))
    (piece : List Char) :
    parseAlternative settings piece =
      if Text.withoutBlanks piece = [] then .error .emptyAlternative
      else if String.ofList (Text.withoutBlanks piece) ∈ markers then .ok []
      else if ∃ marker ∈ markers, marker.toList <:+: Text.withoutBlanks piece then
        .error (.markerInside (String.ofList (Text.withoutBlanks piece)))
      else .ok (Text.withoutBlanks piece) := by
  simp only [parseAlternative, h, recognises?_texts, Spellings.words?, need, bind, Except.bind,
    holdsMarker_texts, List.isEmpty_iff, decide_eq_true_eq]
  rfl

lemma parse_texts (harrows : settings.arrows = .each (arrows.map Name.text))
    (hbar : settings.alternation = bar) (line : List Char) :
    parse settings line =
      match arrows.findSome? fun arrow => Text.cutAt arrow.toList line with
      | none => .error (.noArrow arrows)
      | some (left, right) => do
        let (head, body) ← parseSides left right
        let alternatives ← (Text.pieces bar.toList body).mapM (parseAlternative settings)
        return ⟨String.ofList head, alternatives⟩ := by
  have hwords : need settings.arrows.words? = .ok (arrows.map Name.text) := by
    rw [harrows]
    rfl
  have hshown : (arrows.map Name.text).map Name.shown = arrows := by
    simp [Function.comp_def]
  have htext : need settings.alternation.text? = .ok bar := by
    rw [hbar]
    rfl
  simp only [parse, hwords, htext, bind, Except.bind, splitAt?_texts, hshown]
  cases arrows.findSome? fun arrow => Text.cutAt arrow.toList line with
  | none => rfl
  | some sides => rfl

lemma parseSides_eq_ok (h : parseSides left right = .ok (head, body)) :
    head = Text.trim left ∧ body = Text.trim right ∧ head ≠ [] ∧
      ∀ c ∈ head, Text.isBlank c = false := by
  rw [parseSides] at h
  split at h
  · cases h
  · next he =>
    split at h
    · cases h
    · next hw =>
      obtain ⟨rfl, rfl⟩ : Text.trim left = head ∧ Text.trim right = body := by simpa using h
      simp only [Bool.or_eq_true, List.isEmpty_iff, not_or] at he
      exact ⟨rfl, rfl, he.1, Text.isOneWord_iff.1 (by simpa using hw)⟩

section Typed

variable (h : settings.Typed)

include h

lemma parseAlternative_of_unmarked (hne : Text.withoutBlanks piece ≠ [])
    (hpiece : settings.Unmarked (Text.withoutBlanks piece)) :
    parseAlternative settings piece = .ok (Text.withoutBlanks piece) := by
  obtain ⟨markers, hmarkers⟩ := h.emptyMarkers
  have hword : String.ofList (Text.withoutBlanks piece) ∉ markers := by
    intro hmem
    refine hpiece _ ((Settings.isMarker_iff hmarkers).2 hmem) ?_
    rw [String.toList_ofList]
  rw [parseAlternative_texts hmarkers, if_neg hne, if_neg hword,
    if_neg ((Settings.unmarked_iff hmarkers).1 hpiece)]

lemma of_parseAlternative_eq_ok (hcs : parseAlternative settings piece = .ok cs) :
    cs = [] ∨ settings.Unmarked cs := by
  obtain ⟨markers, hmarkers⟩ := h.emptyMarkers
  rw [parseAlternative_texts hmarkers] at hcs
  split at hcs
  · cases hcs
  · split at hcs
    · exact .inl (Except.ok.inj hcs).symm
    · split at hcs
      · cases hcs
      · next hnone =>
        obtain rfl := Except.ok.inj hcs
        exact .inr ((Settings.unmarked_iff hmarkers).2 hnone)

lemma kind_of_parseAlternative (hfault : parseAlternative settings piece = .error fault) :
    fault.kind = .malformed := by
  obtain ⟨markers, hmarkers⟩ := h.emptyMarkers
  rw [parseAlternative_texts hmarkers] at hfault
  split at hfault
  · rw [← Except.error.inj hfault, RuleFault.kind]
  · split at hfault
    · cases hfault
    · split at hfault
      · rw [← Except.error.inj hfault, RuleFault.kind]
      · cases hfault

end Typed

lemma kind_of_parseSides (h : parseSides left right = .error fault) : fault.kind = .malformed := by
  rw [parseSides] at h
  split at h
  · rw [← Except.error.inj h, RuleFault.kind]
  · split at h
    · rw [← Except.error.inj h, RuleFault.kind]
    · cases h

lemma kind_of_parse_typed (h : settings.Typed)
    (harrows : settings.arrows = .each (arrows.map Name.text))
    (hfault : parse settings line = .error fault) :
    fault.kind = .missingArrow ∧ ¬ (∃ arrow ∈ arrows, arrow.toList <:+: line) ∨
      fault.kind = .malformed ∧ ∃ arrow ∈ arrows, arrow.toList <:+: line := by
  obtain ⟨bar, hbar⟩ := h.alternation
  rw [parse_texts harrows hbar] at hfault
  split at hfault
  · next hnone =>
    rw [← Except.error.inj hfault, RuleFault.kind]
    refine .inl ⟨rfl, ?_⟩
    rintro ⟨arrow, harrow, hline⟩
    exact Text.cutAt_eq_none_iff.1 (List.findSome?_eq_none_iff.1 hnone arrow harrow) hline
  · next left right hsides =>
    obtain ⟨arrow, harrow, hcut⟩ := List.exists_of_findSome?_eq_some hsides
    have hline : arrow.toList <:+: line := by
      rw [← Text.occursIn_iff, Text.occursIn, hcut, Option.isSome_some]
    refine .inr ⟨?_, arrow, harrow, hline⟩
    rcases Result.bind_eq_error.1 hfault with hhead | ⟨⟨head, body⟩, _, hfault⟩
    · exact kind_of_parseSides hhead
    · rcases Result.bind_eq_error.1 hfault with halternatives | ⟨_, _, hfault⟩
      · obtain ⟨piece, _, hpiece⟩ := Result.mapM_eq_error halternatives
        exact kind_of_parseAlternative h hpiece
      · cases hfault

lemma of_parse_eq_ok (h : settings.Typed) (hr : parse settings line = .ok r) :
    r.head ≠ "" ∧ ∀ cs ∈ r.alternatives, cs = [] ∨ settings.Unmarked cs := by
  obtain ⟨arrows, harrows⟩ := h.arrows
  obtain ⟨bar, hbar⟩ := h.alternation
  rw [parse_texts harrows hbar] at hr
  split at hr
  · cases hr
  · next left right hsides =>
    obtain ⟨⟨head, body⟩, hhead, hr⟩ := Result.bind_eq_ok.1 hr
    obtain ⟨alternatives, halternatives, hr⟩ := Result.bind_eq_ok.1 hr
    obtain rfl := Except.ok.inj hr
    obtain ⟨-, -, hne, -⟩ := parseSides_eq_ok hhead
    refine ⟨by simpa using hne, fun cs hcs => ?_⟩
    obtain ⟨piece, _, hpiece⟩ := (Result.mapM_eq_ok halternatives).2 cs hcs
    exact of_parseAlternative_eq_ok h hpiece

end Rule

end DfaWorkbench
