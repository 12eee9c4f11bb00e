import DfaWorkbench.Grammar.Printer
import DfaWorkbench.Proofs.Grammar.Spellings

/-! Rule lines with the spellings that are set from the beginning: what can be read off a line can
be written on one, and is read off it again. -/

namespace DfaWorkbench

lemma isNonTerminalSymbol_iff {c : Char} :
    isNonTerminalSymbol c = true ↔ 65 ≤ c.toNat ∧ c.toNat ≤ 90 := by
  rw [isNonTerminalSymbol, Bool.and_eq_true, decide_eq_true_iff, decide_eq_true_iff]
  rfl

lemma readable_of_isNonTerminalSymbol {c : Char} (hc : isNonTerminalSymbol c = true) :
    Text.isBlank c = false ∧ c ≠ '|' ∧ c ≠ 'ε' ∧ c ≠ '^' ∧ c ≠ '→' := by
  have hsigns : ∀ d ∈ ['|', 'ε', '^', '→'], isNonTerminalSymbol d = false := by
    simp only [List.forall_mem_cons]
    exact ⟨rfl, rfl, rfl, rfl, List.forall_mem_nil _⟩
  have hsign (d : Char) (hd : d ∈ ['|', 'ε', '^', '→']) : c ≠ d := by
    rintro rfl
    simp [hsigns c hd] at hc
  refine ⟨?_, hsign _ (by simp), hsign _ (by simp), hsign _ (by simp), hsign _ (by simp)⟩
  obtain ⟨hlower, hupper⟩ := isNonTerminalSymbol_iff.1 hc
  rw [Bool.eq_false_iff]
  simp only [Text.isBlank, ne_eq, Bool.or_eq_true, Bool.and_eq_true, decide_eq_true_eq, beq_iff_eq]
  omega

namespace Rule

variable {r : Rule} {left right cs alternative : List Char}

def readAlternative (cs : List Char) : Except RuleFault (List Char) :=
  if cs = [] then .error .emptyAlternative
  else if cs = ['ε'] ∨ cs = ['^'] then .ok []
  else if 'ε' ∈ cs ∨ '^' ∈ cs then .error (.markerInside (String.ofList cs))
  else .ok cs

def sides? (line : List Char) : Option (List Char × List Char) :=
  (Text.cutAt ['→'] line).or (Text.cutAt ['-', '>'] line)

lemma parseAlternative_default (piece : List Char) :
    parseAlternative {} piece = readAlternative (Text.withoutBlanks piece) := by
  have hmarkers : ({} : Settings).emptyMarkers = .each (["ε", "^"].map Name.text) := rfl
  have hword (cs : List Char) (c : Char) : String.ofList cs = String.singleton c ↔ cs = [c] := by
    rw [← String.toList_inj, String.toList_ofList, String.toList_singleton]
  have hepsilon : "ε" = String.singleton 'ε' := rfl
  have hcaret : "^" = String.singleton '^' := rfl
  rw [parseAlternative_texts hmarkers, readAlternative]
  simp only [hepsilon, hcaret, List.mem_cons, List.not_mem_nil, or_false, hword, exists_eq_or_imp,
    exists_eq_left, String.toList_singleton, List.singleton_infix_iff]

lemma mapM_parseAlternative (body : List Char) :
    (Text.pieces ['|'] body).mapM (parseAlternative {}) =
      ((Text.withoutBlanks body).splitOn '|').mapM readAlternative := by
  rw [Text.pieces_char, ← Text.map_withoutBlanks_splitOn (by decide), List.mapM_map]
  congr 1
  funext piece
  exact parseAlternative_default piece

lemma findSome?_arrows (line : List Char) :
    (["→", "->"].findSome? fun arrow => Text.cutAt arrow.toList line) = sides? line := by
  have harrow : "→".toList = ['→'] := rfl
  have hascii : "->".toList = ['-', '>'] := rfl
  rw [sides?, List.findSome?_cons, List.findSome?_singleton, harrow, hascii]
  cases Text.cutAt ['→'] line with
  | some sides => rfl
  | none => rfl

lemma parse_default (line : List Char) :
    parse {} line =
      match sides? line with
      | none => .error (.noArrow ["→", "->"])
      | some (left, right) => do
        let (head, body) ← parseSides left right
        let alternatives ← ((Text.withoutBlanks body).splitOn '|').mapM readAlternative
        return ⟨String.ofList head, alternatives⟩ := by
  have harrows : ({} : Settings).arrows = .each (["→", "->"].map Name.text) := rfl
  have hbar : ({} : Settings).alternation = "|" := rfl
  rw [parse_texts harrows hbar, findSome?_arrows]
  simp only [← mapM_parseAlternative]
  rfl

structure Readable (r : Rule) : Prop where
  head_ne : r.head.toList ≠ []
  head_chars : ∀ c ∈ r.head.toList, Text.isBlank c = false ∧ c ≠ '→'
  alternatives_ne : r.alternatives ≠ []
  symbols : ∀ cs ∈ r.alternatives, ∀ c ∈ cs,
    Text.isBlank c = false ∧ c ≠ '|' ∧ c ≠ 'ε' ∧ c ≠ '^'

lemma arrow_notMem_of_sides? (h : sides? cs = some (left, right)) : '→' ∉ left := by
  rw [sides?] at h
  cases hcut : Text.cutAt ['→'] cs with
  | some sides =>
    rw [hcut] at h
    exact Text.notMem_of_cutAt_char (hcut.trans h)
  | none =>
    -- The line is cut at an arrow of two signs, so none of one sign stands anywhere on it.
    rw [hcut] at h
    intro hmem
    refine Text.cutAt_char_eq_none_iff.1 hcut ?_
    rw [Text.eq_append_of_cutAt h]
    simp [hmem]

lemma symbols_of_readAlternative (h : readAlternative cs = .ok alternative) :
    ∀ c ∈ alternative, c ∈ cs ∧ c ≠ 'ε' ∧ c ≠ '^' := by
  rw [readAlternative] at h
  split at h
  · cases h
  · split at h
    · obtain rfl := Except.ok.inj h
      simp
    · split at h
      · cases h
      · next hm =>
        obtain rfl := Except.ok.inj h
        rw [not_or] at hm
        intro c hc
        exact ⟨hc, fun he => hm.1 (he ▸ hc), fun he => hm.2 (he ▸ hc)⟩

lemma readable_of_parse (h : parse {} cs = .ok r) : r.Readable := by
  rw [parse_default] at h
  split at h
  · cases h
  · next left right hsides =>
    obtain ⟨⟨head, body⟩, hhead, h⟩ := Result.bind_eq_ok.1 h
    obtain ⟨alternatives, halternatives, h⟩ := Result.bind_eq_ok.1 h
    obtain rfl := Except.ok.inj h
    obtain ⟨rfl, rfl, hne, hword⟩ := parseSides_eq_ok hhead
    obtain ⟨hread, hwritten⟩ := Result.mapM_eq_ok halternatives
    constructor
    · simpa using hne
    · intro c hc
      rw [String.toList_ofList] at hc
      refine ⟨hword c hc, ?_⟩
      rintro rfl
      exact arrow_notMem_of_sides? hsides (Text.mem_of_mem_trim hc)
    · rintro rfl
      obtain ⟨p, hp⟩ := List.exists_mem_of_ne_nil _
        (List.splitOn_ne_nil '|' (Text.withoutBlanks (Text.trim right)))
      obtain ⟨_, hmem, _⟩ := hread p hp
      simp at hmem
    · intro cs hcs c hc
      obtain ⟨p, hp, hread⟩ := hwritten cs hcs
      obtain ⟨hcp, hmarkers⟩ := symbols_of_readAlternative hread c hc
      obtain ⟨hbody, hbar⟩ := Text.mem_of_mem_splitOn hp hcp
      exact ⟨(Text.mem_withoutBlanks.1 hbody).2, hbar, hmarkers⟩

def entry (r : Rule) : Name × List Production :=
  (.text r.head, r.alternatives.map Production.ofChars)

def shownAlternative (cs : List Char) : List Char :=
  if cs = [] then ['ε'] else cs

def writtenBody (r : Rule) : List Char :=
  [' ', '|', ' '].intercalate (r.alternatives.map shownAlternative)

def written (r : Rule) : List Char :=
  (r.head.toList ++ [' ']) ++ '→' :: (' ' :: r.writtenBody)

lemma toList_render (cs : List Char) :
    ((Production.ofChars cs).render "ε").toList = shownAlternative cs := by
  cases cs with
  | nil => rfl
  | cons c cs =>
    simp [Production.render, Production.ofChars, Production.isEmpty, shownAlternative,
      String.toList_join, List.flatMap_map, Name.ofChar]

lemma toList_ruleLine (r : Rule) :
    (Grammar.ruleLine {} r.entry.1 r.entry.2).toList = r.written := by
  have hbar : " | ".toList = [' ', '|', ' '] := rfl
  simp [Grammar.ruleLine, entry, written, writtenBody, String.toList_append,
    String.toList_intercalate, hbar, Function.comp_def, toList_render]

lemma readAlternative_shown (h : ∀ c ∈ cs, c ≠ 'ε' ∧ c ≠ '^') :
    readAlternative (shownAlternative cs) = .ok cs := by
  rw [shownAlternative]
  split
  · next he => rw [he]; rfl
  · next hne =>
    have hepsilon : 'ε' ∉ cs := fun hc => (h _ hc).1 rfl
    have hcaret : '^' ∉ cs := fun hc => (h _ hc).2 rfl
    have hmarker : ¬ (cs = ['ε'] ∨ cs = ['^']) := by
      rintro (rfl | rfl)
      · exact hepsilon List.mem_cons_self
      · exact hcaret List.mem_cons_self
    rw [readAlternative, if_neg hne, if_neg hmarker, if_neg (by simp [hepsilon, hcaret])]

lemma mapM_readAlternative {alternatives : List (List Char)}
    (h : ∀ cs ∈ alternatives, ∀ c ∈ cs, c ≠ 'ε' ∧ c ≠ '^') :
    (alternatives.map shownAlternative).mapM readAlternative = .ok alternatives := by
  induction alternatives with
  | nil => rfl
  | cons cs alternatives ih =>
    rw [List.map_cons, List.mapM_cons, readAlternative_shown (h cs List.mem_cons_self),
      ih fun ds hds => h ds (List.mem_cons_of_mem cs hds)]
    rfl

namespace Readable

variable (h : r.Readable)

include h

lemma of_mem_shown {p : List Char} (hp : p ∈ r.alternatives.map shownAlternative) :
    p ≠ [] ∧ ∀ c ∈ p, Text.isBlank c = false ∧ c ≠ '|' := by
  obtain ⟨cs, hcs, rfl⟩ := List.mem_map.1 hp
  rw [shownAlternative]
  split
  · simp
    decide
  · next hne =>
    refine ⟨hne, fun c hc => ?_⟩
    obtain ⟨hblank, hbar, _⟩ := h.symbols cs hcs c hc
    exact ⟨hblank, hbar⟩

lemma writtenBody_tight : r.writtenBody ≠ [] ∧ Text.IsTight r.writtenBody := by
  refine Text.isTight_intercalate _ (by simp [h.alternatives_ne]) fun p hp => ?_
  obtain ⟨hne, hchars⟩ := h.of_mem_shown hp
  exact ⟨hne, Text.isTight_of_forall fun c hc => (hchars c hc).1⟩

lemma pieces_writtenBody : (Text.withoutBlanks r.writtenBody).splitOn '|' =
    r.alternatives.map shownAlternative := by
  have hself : (r.alternatives.map shownAlternative).map Text.withoutBlanks =
      r.alternatives.map shownAlternative := by
    refine (List.map_congr_left fun p hp => ?_).trans (List.map_id _)
    exact Text.withoutBlanks_of_forall fun c hc => ((h.of_mem_shown hp).2 c hc).1
  have hbar : Text.withoutBlanks [' ', '|', ' '] = ['|'] := by decide
  rw [writtenBody, Text.withoutBlanks_intercalate, hself, hbar]
  refine List.splitOn_intercalate '|' (fun p hp hc => ?_) (by simp [h.alternatives_ne])
  exact ((h.of_mem_shown hp).2 _ hc).2 rfl

lemma sides?_written : sides? r.written = some (r.head.toList ++ [' '], ' ' :: r.writtenBody) := by
  have harrow : '→' ∉ r.head.toList ++ [' '] := by
    rw [List.mem_append, List.mem_singleton]
    rintro (hmem | hmem)
    · exact (h.head_chars _ hmem).2 rfl
    · cases hmem
  rw [sides?, written, Text.cutAt_char_append harrow, Option.some_or]

lemma parseSides_written : parseSides (r.head.toList ++ [' ']) (' ' :: r.writtenBody) =
    .ok (r.head.toList, r.writtenBody) := by
  have hword : ∀ c ∈ r.head.toList, Text.isBlank c = false := fun c hc => (h.head_chars c hc).1
  have hblank : Text.isBlank ' ' = true := by decide
  obtain ⟨hbody, htight⟩ := h.writtenBody_tight
  simp only [parseSides, Text.trim_concat hblank, Text.trim_cons hblank,
    (Text.isTight_of_forall hword).trim_eq, htight.trim_eq, Text.isOneWord_iff.2 hword]
  simp [h.head_ne, hbody]

end Readable

lemma parse_written (h : r.Readable) : parse {} r.written = .ok r := by
  have hmarkers : ∀ cs ∈ r.alternatives, ∀ c ∈ cs, c ≠ 'ε' ∧ c ≠ '^' :=
    fun cs hcs c hc => (h.symbols cs hcs c hc).2.2
  rw [parse_default, h.sides?_written]
  simp only [h.parseSides_written, bind, Except.bind, h.pieces_writtenBody,
    mapM_readAlternative hmarkers, String.ofList_toList]
  rfl

end Rule

end DfaWorkbench
