import Mathlib.Tactic.Common
import DfaWorkbench.Proofs.Json.Escape
import DfaWorkbench.Proofs.Json.Limits
import DfaWorkbench.Proofs.Sequence.Assignment

/-! JSON text that was written is read as the value it was written from, in either layout, unless a
whole number in it is too long. Every written value ends before what stands after it. -/

namespace DfaWorkbench.Json

structure Layout.IsPlain (l : Layout) : Prop where
  ascii : l.ascii = false
  blank : ∀ text ∈ l.indent, ∀ c ∈ text, isSpace c = true

lemma Layout.isPlain_ofWidth (width : Option ℕ) : (ofWidth width).IsPlain := by
  refine ⟨rfl, ?_⟩
  intro text htext c hc
  obtain ⟨n, -, rfl⟩ := Option.map_eq_some_iff.1 htext
  rw [List.eq_of_mem_replicate hc]
  rfl

variable {l : Layout} {v x : Json} {xs : List Json} {fs : List (String × Json)} {c : Char}
  {cs rest : List Char} {fuel depth level : ℕ}

section Blanks

lemma skipSpace_of_head (hc : isSpace c = false) : skipSpace (c :: cs) = c :: cs := by
  simp [skipSpace, hc]

variable (hl : l.IsPlain)

include hl

lemma skipSpace_newline : skipSpace (l.newline level ++ cs) = skipSpace cs := by
  rw [Layout.newline]
  cases hi : l.indent with
  | none => rfl
  | some text =>
    refine (List.dropWhile_append_of_pos ?_)
    intro c hc
    rcases List.mem_cons.1 hc with rfl | hc
    · rfl
    · obtain ⟨t, ht, hc⟩ := List.mem_flatten.1 hc
      rw [List.eq_of_mem_replicate ht] at hc
      exact hl.blank text hi c hc

lemma exists_separator (level : ℕ) :
    ∃ blanks, l.separator level = ',' :: blanks ∧
      ∀ cs, skipSpace (blanks ++ cs) = skipSpace cs := by
  rw [Layout.separator]
  cases l.indent with
  | none => exact ⟨[' '], rfl, fun cs => rfl⟩
  | some text => exact ⟨l.newline level, rfl, fun cs => skipSpace_newline hl⟩

end Blanks

lemma closes_newline_append (hc : c ∈ [']', '\x7d']) : Closes (l.newline level ++ c :: cs) := by
  rw [Layout.newline]
  cases l.indent with
  | none => exact Closes.cons (by grind)
  | some text => exact Closes.cons (by simp)

lemma closes_separator_append : Closes (l.separator level ++ cs) := by
  rw [Layout.separator]
  cases l.indent with
  | none => exact Closes.cons (by simp)
  | some text => exact Closes.cons (by simp)

lemma readValue_scalar (hc : c ≠ '"' ∧ c ≠ '[' ∧ c ≠ '\x7b') :
    readValue (fuel + 1) depth (c :: cs) = readScalar (c :: cs) := by
  obtain ⟨hquote, hbracket, hbrace⟩ := hc
  rw [readValue] <;> simp_all

lemma readValue_string (hl : l.ascii = false) (s : String) :
    readValue (fuel + 1) depth (stringText l s ++ rest) = .ok (str s, rest) := by
  rw [stringText_append, readValue, string?_escaped hl]
  rfl

lemma readValue_number {n : Number} (hn : ∀ x, n = .float x → FloatReadsBack x)
    (hrest : Closes rest) :
    readValue (fuel + 1) depth (numberText n ++ rest) =
      (checkNumber n).map fun _ => (num n, rest) := by
  obtain ⟨m, hm, hvalue⟩ := exists_numeral hn
  obtain ⟨c, tail, hc, hhead⟩ := exists_head_of_numeral? (by rw [hm]; rfl)
  have hread := readScalar_append hm hrest
  rw [hc, List.cons_append] at hread ⊢
  rw [readValue_scalar, hread, hvalue]
  · cases checkNumber n <;> rfl
  · rcases hhead with hdigit | rfl
    · refine ⟨?_, ?_, ?_⟩ <;> (rintro rfl; cases hdigit)
    · decide

lemma exists_head_write (h : Shaped FloatReadsBack depth v) (level : ℕ) :
    ∃ c cs, write l level v = c :: cs ∧ isSpace c = false ∧ c ≠ ']' := by
  cases h with
  | null => exact ⟨'n', _, rfl, rfl, by decide⟩
  | bool b => cases b <;> exact ⟨_, _, rfl, rfl, by decide⟩
  | num hn =>
    obtain ⟨m, hm, -⟩ := exists_numeral hn
    obtain ⟨c, tail, hc, hhead⟩ := exists_head_of_numeral? (by rw [hm]; rfl)
    refine ⟨c, tail, by rw [write, hc], ?_⟩
    rcases hhead with hdigit | rfl
    · constructor
      · simp only [isSpace, Bool.or_eq_false_iff, beq_eq_false_iff_ne]
        refine ⟨⟨⟨?_, ?_⟩, ?_⟩, ?_⟩ <;> (rintro rfl; cases hdigit)
      · rintro rfl
        cases hdigit
    · decide
  | str s => exact ⟨'"', _, rfl, rfl, by decide⟩
  | @arr _ xs _ => cases xs <;> exact ⟨'[', _, rfl, rfl, by decide⟩
  | @obj _ fs _ _ => cases fs <;> exact ⟨'\x7b', _, rfl, rfl, by decide⟩

def ReadsBack (l : Layout) (depth : ℕ) (v : Json) : Prop :=
  ∀ level fuel rest, 2 * (write l level v).length ≤ fuel → Closes rest →
    readValue fuel depth (write l level v ++ rest) = (check v).map fun _ => (v, rest)

lemma skipSpace_write_append (h : Shaped FloatReadsBack depth v) :
    skipSpace (write l level v ++ rest) = write l level v ++ rest := by
  obtain ⟨c, cs, hc, hspace, -⟩ := exists_head_write (l := l) h level
  rw [hc]
  exact skipSpace_of_head hspace

lemma readsBack_of_single (h : Shaped FloatReadsBack depth v)
    (hread : ∀ fuel level rest, Closes rest →
      readValue (fuel + 1) depth (write l level v ++ rest) = (check v).map fun _ => (v, rest)) :
    ReadsBack l depth v := by
  intro level fuel rest hfuel hrest
  obtain ⟨c, cs, hc, -⟩ := exists_head_write (l := l) h level
  rw [hc, List.length_cons] at hfuel
  obtain ⟨fuel, rfl⟩ : ∃ n, fuel = n + 1 := ⟨fuel - 1, by omega⟩
  exact hread fuel level rest hrest

lemma readItems_item (hback : ReadsBack l depth x) (hfuel : 2 * (write l level x).length ≤ fuel)
    (hrest : Closes rest) :
    readItems (fuel + 1) depth (write l level x ++ rest) =
      (check x >>= fun _ =>
        match skipSpace rest with
        | ']' :: rest => .ok ([x], rest)
        | ',' :: rest => do
          let (xs, rest) ← readItems fuel depth (skipSpace rest)
          return (x :: xs, rest)
        | _ => .error .malformed) := by
  rw [readItems, hback level fuel rest hfuel hrest]
  cases check x <;> rfl

lemma readMembers_member (hascii : l.ascii = false) (k : String)
    (hx : Shaped FloatReadsBack depth x) (hback : ReadsBack l depth x)
    (hfuel : 2 * (write l level x).length ≤ fuel)
    (hrest : Closes rest) :
    readMembers (fuel + 1) depth (stringText l k ++ ':' :: ' ' :: (write l level x ++ rest)) =
      (check x >>= fun _ =>
        match skipSpace rest with
        | '\x7d' :: rest => .ok ([(k, x)], rest)
        | ',' :: rest => do
          let (fs, rest) ← readMembers fuel depth (skipSpace rest)
          return ((k, x) :: fs, rest)
        | _ => .error .malformed) := by
  have hcolon {cs : List Char} : skipSpace (':' :: cs) = ':' :: cs := rfl
  have hblank : skipSpace (' ' :: (write l level x ++ rest)) = write l level x ++ rest :=
    skipSpace_write_append hx
  rw [stringText_append, readMembers, string?_escaped hascii]
  simp only [orMalformed, bind, Except.bind, hcolon, hblank, hback level fuel rest hfuel hrest]
  cases check x <;> rfl

section Nested

variable (hl : l.IsPlain)

include hl

lemma readItems_write (fuel level outer : ℕ) (rest : List Char)
    (h : ∀ y ∈ x :: xs, Shaped FloatReadsBack depth y ∧ ReadsBack l depth y)
    (hfuel : 2 * ((write l level x).length + (writeItems l level xs).length + 1) ≤ fuel) :
    readItems fuel depth
        (write l level x ++ (writeItems l level xs ++ (l.newline outer ++ ']' :: rest))) =
      (checkItems (x :: xs)).map fun _ => (x :: xs, rest) := by
  obtain ⟨fuel, rfl⟩ : ∃ n, fuel = n + 1 := ⟨fuel - 1, by omega⟩
  induction xs generalizing x fuel with
  | nil =>
    obtain ⟨-, hback⟩ := h x List.mem_cons_self
    rw [writeItems, List.nil_append, readItems_item hback (by omega)
      (closes_newline_append (by simp)), skipSpace_newline hl]
    cases hcheck : check x <;> simp [checkItems, hcheck] <;> rfl
  | cons y ys ih =>
    obtain ⟨-, hback⟩ := h x List.mem_cons_self
    obtain ⟨hy, -⟩ := h y (List.mem_cons_of_mem _ List.mem_cons_self)
    obtain ⟨blanks, hseparator, hblanks⟩ := exists_separator hl level
    have hlength := hfuel
    rw [writeItems, List.length_append, List.length_append, hseparator, List.length_cons] at hlength
    obtain ⟨fuel, rfl⟩ : ∃ n, fuel = n + 1 := ⟨fuel - 1, by omega⟩
    have htail := ih (fun z hz => h z (List.mem_cons_of_mem _ hz)) fuel (by omega)
    rw [writeItems, List.append_assoc, List.append_assoc,
      readItems_item hback (by omega) closes_separator_append, hseparator, List.cons_append,
      skipSpace_of_head rfl]
    simp only [hblanks, skipSpace_write_append hy, htail]
    rw [checkItems.eq_2 x]
    cases check x with
    | error e => rfl
    | ok u => cases checkItems (y :: ys) <;> rfl

lemma readMembers_write (fuel level outer : ℕ) (k : String) (rest : List Char)
    (h : ∀ f ∈ (k, x) :: fs, Shaped FloatReadsBack depth f.2 ∧ ReadsBack l depth f.2)
    (hfuel : 2 * ((write l level x).length + (writeFields l level fs).length + 1) ≤ fuel) :
    readMembers fuel depth (stringText l k ++ ':' :: ' ' :: (write l level x ++
        (writeFields l level fs ++ (l.newline outer ++ '\x7d' :: rest)))) =
      (checkFields ((k, x) :: fs)).map fun _ => ((k, x) :: fs, rest) := by
  obtain ⟨fuel, rfl⟩ : ∃ n, fuel = n + 1 := ⟨fuel - 1, by omega⟩
  induction fs generalizing k x fuel with
  | nil =>
    obtain ⟨hx, hback⟩ := h (k, x) List.mem_cons_self
    rw [writeFields, List.nil_append, readMembers_member hl.ascii k hx hback (by simp only; omega)
      (closes_newline_append (by simp)), skipSpace_newline hl]
    cases hcheck : check x <;> simp [checkFields, hcheck] <;> rfl
  | cons f fs ih =>
    obtain ⟨m, y⟩ := f
    obtain ⟨hx, hback⟩ := h (k, x) List.mem_cons_self
    obtain ⟨blanks, hseparator, hblanks⟩ := exists_separator hl level
    have hlength := hfuel
    simp only [writeFields, List.length_append, List.length_cons, hseparator] at hlength
    obtain ⟨fuel, rfl⟩ : ∃ n, fuel = n + 1 := ⟨fuel - 1, by omega⟩
    have htail := ih m (fun z hz => h z (List.mem_cons_of_mem _ hz)) fuel (by omega)
    have hname {cs : List Char} : skipSpace (stringText l m ++ cs) = stringText l m ++ cs := rfl
    rw [writeFields, List.append_assoc, List.append_assoc, List.cons_append, List.cons_append,
      List.append_assoc, readMembers_member hl.ascii k hx hback (by simp only; omega)
      closes_separator_append, hseparator, List.cons_append, skipSpace_of_head rfl]
    simp only [hblanks, hname, htail]
    rw [checkFields.eq_2 k]
    cases check x with
    | error e => rfl
    | ok u => cases checkFields ((m, y) :: fs) <;> rfl

lemma readsBack_arr (h : ∀ y ∈ xs, Shaped FloatReadsBack depth y ∧ ReadsBack l depth y) :
    ReadsBack l (depth + 1) (arr xs) := by
  cases xs with
  | nil => exact readsBack_of_single (.arr (by simp)) fun fuel level rest _ => rfl
  | cons x xs =>
    intro level fuel rest hfuel hrest
    have hx := (h x List.mem_cons_self).1
    obtain ⟨c, cs, hc, -, hne⟩ := exists_head_write (l := l) hx (level + 1)
    have hlength := hfuel
    simp only [write, List.length_append, List.length_cons] at hlength
    obtain ⟨fuel, rfl⟩ : ∃ n, fuel = n + 1 := ⟨fuel - 1, by omega⟩
    have hread := readItems_write hl fuel (level + 1) level rest h (by omega)
    simp only [write, List.append_assoc, List.cons_append, List.nil_append, readValue,
      skipSpace_newline hl, skipSpace_write_append hx]
    split
    · next tail he =>
      rw [hc, List.cons_append] at he
      exact absurd (List.cons.inj he).1 hne
    · rw [hread, check]
      cases checkItems (x :: xs) <;> rfl

lemma readsBack_obj (hkeys : (fs.map Prod.fst).Nodup)
    (h : ∀ f ∈ fs, Shaped FloatReadsBack depth f.2 ∧ ReadsBack l depth f.2) :
    ReadsBack l (depth + 1) (obj fs) := by
  cases fs with
  | nil => exact readsBack_of_single (.obj hkeys (by simp)) fun fuel level rest _ => rfl
  | cons f fs =>
    intro level fuel rest hfuel hrest
    obtain ⟨k, x⟩ := f
    have hlength := hfuel
    simp only [write, List.length_append, List.length_cons] at hlength
    obtain ⟨fuel, rfl⟩ : ∃ n, fuel = n + 1 := ⟨fuel - 1, by omega⟩
    have hread := readMembers_write hl fuel (level + 1) level k rest h (by omega)
    have hname {cs : List Char} : skipSpace (stringText l k ++ cs) = stringText l k ++ cs := rfl
    have hmerged : merged ((k, x) :: fs) = (k, x) :: fs := Sequence.merged_of_nodup hkeys
    simp only [write, List.append_assoc, List.cons_append, List.nil_append, readValue,
      skipSpace_newline hl, hname]
    split
    · next tail he =>
      rw [stringText_append] at he
      exact absurd (List.cons.inj he).1 (by decide)
    · rw [hread, check]
      cases checkFields ((k, x) :: fs) with
      | error e => rfl
      | ok u => exact congrArg (fun fs => Except.ok (obj fs, rest)) hmerged

theorem readsBack_of_shaped (h : Shaped FloatReadsBack depth v) : ReadsBack l depth v := by
  induction h with
  | null => exact readsBack_of_single .null fun fuel level rest _ => rfl
  | bool b =>
    refine readsBack_of_single (.bool b) fun fuel level rest _ => ?_
    cases b <;> rfl
  | num hn =>
    exact readsBack_of_single (.num hn) fun fuel level rest hrest => readValue_number hn hrest
  | str s =>
    exact readsBack_of_single (.str s) fun fuel level rest _ => readValue_string hl.ascii s
  | arr h ih => exact readsBack_arr hl fun x hx => ⟨h x hx, ih x hx⟩
  | obj hkeys h ih => exact readsBack_obj hl hkeys fun f hf => ⟨h f hf, ih f hf⟩

theorem parse_render (h : Shaped FloatReadsBack maxDepth v) :
    parse (render l v) = (check v).map fun _ => v := by
  have hskip : skipSpace (write l 0 v ++ []) = write l 0 v ++ [] := skipSpace_write_append h
  have hread := readsBack_of_shaped hl h 0 (2 * (render l v).length + 2) [] (by simp [render])
    Closes.nil
  rw [List.append_nil] at hread hskip
  rw [parse, render, String.toList_ofList, hskip, ← render, hread]
  cases check v <;> rfl

end Nested

end DfaWorkbench.Json
