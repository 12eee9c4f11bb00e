import Mathlib.Algebra.Group.Int.Defs
import Mathlib.Algebra.Group.Nat.Defs
import Mathlib.Tactic.Common
import DfaWorkbench.Proofs.Entry.RoundTrip
import DfaWorkbench.Proofs.Json.RoundTrip
import DfaWorkbench.Record

/-! Records as JSON text. A record of texts and numbers is read back as it was written, unless a
whole number in it has more digits than a text may have. -/

namespace DfaWorkbench.Record

variable {fresh : FreshId} {r : Record} {l : Json.Layout} {float : Float → Prop} {depth : ℕ}

structure IsPlain (r : Record) : Prop where
  id : ∃ s, s ≠ "" ∧ r.id = .text s
  name : r.name.isText = true
  description : ∃ s, r.description = .str s
  automaton : r.automaton.Worded
  places : ∀ q ∈ r.automaton.states, ∃ m n, q.position = [.num m, .num n]
  bends : ∀ c ∈ r.curvatures, c.1.isText = true ∧ ∃ n, c.2 = .num n

def Holds (r : Record) (n : Number) : Prop :=
  (∃ q ∈ r.automaton.states, .num n ∈ q.position) ∨ ∃ c ∈ r.curvatures, c.2 = .num n

section Generated

variable {g : Grammar} {A : Automaton}
  (hfloats : ∀ q ∈ A.states, ∃ x y, q.position = [.num (.float x), .num (.float y)])

include hfloats

lemma isPlain_ofGrammar (hA : A.Worded) : (ofGrammar fresh g A).IsPlain where
  id := ⟨fresh.text, fresh.text_ne, rfl⟩
  name := rfl
  description := ⟨_, rfl⟩
  automaton := hA
  places q hq := by
    obtain ⟨x, y, hxy⟩ := hfloats q hq
    exact ⟨_, _, hxy⟩
  bends := List.forall_mem_nil _

lemma not_holds_int_ofGrammar (n : Int) : ¬ (ofGrammar fresh g A).Holds (.int n) := by
  rintro (⟨q, hq, hn⟩ | ⟨c, hc, -⟩)
  · obtain ⟨x, y, hxy⟩ := hfloats q hq
    simp [hxy] at hn
  · cases hc

end Generated

lemma curvatures_of_fields (h : ∀ c ∈ r.curvatures, c.1.isText = true) :
    (r.curvatures.map fun (n, v) => (fieldName n, v)).map (fun f => ((f.1 : Name), f.2)) =
      r.curvatures := by
  rw [List.map_map]
  refine (List.map_congr_left fun c hc => ?_).trans (List.map_id _)
  obtain ⟨s, hs⟩ := Name.exists_text (h c hc)
  obtain ⟨n, v⟩ := c
  obtain rfl : n = .text s := hs
  rfl

lemma idOf_text {s : String} (h : s ≠ "") : idOf fresh (.str s) = .text s := by
  have hne : (Json.str s).isEmpty = false := Name.isEmpty_text h
  rw [idOf, hne]
  rfl

lemma make_parts (r : Record) :
    make r.id r.name r.description r.automaton r.curvatures = .ok r := by
  have hmerged : Sequence.merged Name.key r.curvatures = r.curvatures :=
    Sequence.merged_of_nodup r.keys_nodup
  rw [make, dif_neg (by simp [r.name_ne])]
  simp only [hmerged]

lemma ofFields_toFields (hr : r.IsPlain) : ofFields fresh r.toFields = .ok r := by
  obtain ⟨id, hne, hid⟩ := hr.id
  have hplaces : ∀ q ∈ r.automaton.states, ∃ x y, q.position = [x, y] := fun q hq => by
    obtain ⟨m, n, hmn⟩ := hr.places q hq
    exact ⟨_, _, hmn⟩
  have hA : Automaton.ofFields r.toFields = .ok r.automaton :=
    Automaton.ofFields_eq_ok hr.automaton.plain hplaces rfl rfl rfl
  have hcurvatures : curvaturesOf (Json.fieldOr r.toFields "curvatures" .null) =
      .ok r.curvatures :=
    congrArg Except.ok (curvatures_of_fields fun c hc => (hr.bends c hc).1)
  have hidOf : idOf fresh (Json.fieldOr r.toFields "id" .null) = r.id := by
    have hfield : Json.fieldOr r.toFields "id" .null = .str id := by
      rw [toFields, ownFields, hid]
      rfl
    rw [hfield, hid, idOf_text hne]
  refine Result.bind_eq_ok.2 ⟨r.name.value, rfl, Result.bind_eq_ok.2 ⟨r.automaton, by rw [hA]; rfl,
    Result.bind_eq_ok.2 ⟨r.curvatures, by rw [hcurvatures]; rfl, ?_⟩⟩⟩
  have hdescription : Json.fieldOr r.toFields "description" (.str "") = r.description := rfl
  rw [hidOf, Name.of_value (Name.isPlain_of_isText hr.name), hdescription, make_parts]

lemma value_of_isText {n : Name} (h : n.isText = true) : ∃ s, n.value = .str s := by
  obtain ⟨s, rfl⟩ := Name.exists_text h
  exact ⟨s, rfl⟩

/-- A text can always name a field, so that no more is asked of bends than of the fields of an
object. -/
lemma requireBends_eq (room : ℕ) {cs : List (Name × Json)} (h : ∀ c ∈ cs, c.1.isText = true) :
    (cs.forM fun (n, v) => do
      requireKey l room n
      v.requireWritable l room) =
      Json.requireFields l room (cs.map fun (n, v) => (fieldName n, v)) := by
  induction cs with
  | nil => rfl
  | cons c cs ih =>
    obtain ⟨hc, hcs⟩ := List.forall_mem_cons.1 h
    obtain ⟨s, hs⟩ := Name.exists_text hc
    obtain ⟨n, v⟩ := c
    obtain rfl : n = .text s := hs
    change (requireKey l room (.text s) >>= fun _ => v.requireWritable l room) >>= _ = _
    rw [ih hcs]
    rfl

lemma check_text {n : Name} (h : n.isText = true) : Json.check n.value = .ok () := by
  obtain ⟨s, hs⟩ := value_of_isText h
  rw [hs]
  rfl

section Shape

variable (hr : r.IsPlain)

include hr

lemma nodup_fieldNames :
    ((r.curvatures.map fun (n, v) => (fieldName n, v)).map Prod.fst).Nodup := by
  have hkeys : (r.curvatures.map (·.1.key)) =
      ((r.curvatures.map fun (n, v) => (fieldName n, v)).map Prod.fst).map Key.text := by
    rw [List.map_map, List.map_map]
    refine List.map_congr_left fun c hc => ?_
    obtain ⟨s, hs⟩ := Name.exists_text (hr.bends c hc).1
    obtain ⟨n, v⟩ := c
    obtain rfl : n = .text s := hs
    rfl
  exact List.Nodup.of_map _ (hkeys ▸ r.keys_nodup)

lemma shaped_state {q : State} (hq : q ∈ r.automaton.states)
    (hfloats : ∀ x, r.Holds (.float x) → float x) :
    Json.Shaped float (depth + 1) q.toJson := by
  obtain ⟨m, n, hmn⟩ := hr.places q hq
  obtain ⟨id, hid⟩ := value_of_isText (hr.automaton.ids q hq)
  obtain ⟨label, hlabel⟩ := value_of_isText (hr.automaton.labels q hq)
  obtain ⟨hx, hy⟩ := State.coordinates_of_position hmn
  refine .obj (by simp) ?_
  rw [hid, hlabel, hx, hy]
  have hcoordinate {k : Number} (hk : Json.num k ∈ q.position) : Json.Shaped float depth (.num k) :=
    .num fun x hx => hfloats x (.inl ⟨q, hq, hx ▸ hk⟩)
  rintro f hf
  simp only [List.mem_cons, List.not_mem_nil, or_false] at hf
  rcases hf with rfl | rfl | rfl | rfl | rfl
  · exact .str id
  · exact .str label
  · exact .str q.type.name
  · exact hcoordinate (by simp [hmn])
  · exact hcoordinate (by simp [hmn])

lemma shaped_transition {t : Transition} (ht : t ∈ r.automaton.transitions) :
    Json.Shaped float (depth + 1) t.toJson := by
  obtain ⟨hid, hsource, htarget⟩ := hr.automaton.transitions t ht
  obtain ⟨id, hid⟩ := value_of_isText hid
  obtain ⟨source, hsource⟩ := value_of_isText hsource
  obtain ⟨target, htarget⟩ := value_of_isText htarget
  refine .obj (by simp) ?_
  rw [hid, hsource, htarget]
  rintro f hf
  simp only [List.mem_cons, List.not_mem_nil, or_false] at hf
  rcases hf with rfl | rfl | rfl | rfl <;> exact .str _

lemma shaped_toFields (depth : ℕ) (hfloats : ∀ x, r.Holds (.float x) → float x) :
    Json.Shaped float (depth + 3) (.obj r.toFields) := by
  obtain ⟨id, -, hid⟩ := hr.id
  obtain ⟨name, hname⟩ := value_of_isText hr.name
  obtain ⟨description, hdescription⟩ := hr.description
  refine .obj (by simp [toFields, ownFields, Automaton.toFields]) ?_
  rintro f hf
  simp only [toFields, ownFields, Automaton.toFields, hid, hname, hdescription, List.mem_cons,
    List.mem_append, List.not_mem_nil, or_false] at hf
  rcases hf with (rfl | rfl | rfl | rfl | rfl | rfl) | rfl
  · exact .str id
  · exact .str name
  · exact .str description
  · refine .arr fun x hx => ?_
    obtain ⟨q, hq, rfl⟩ := List.mem_map.1 hx
    exact shaped_state hr hq hfloats
  · refine .arr fun x hx => ?_
    obtain ⟨t, ht, rfl⟩ := List.mem_map.1 hx
    exact shaped_transition hr ht
  · refine .arr fun x hx => ?_
    obtain ⟨a, ha, rfl⟩ := List.mem_map.1 hx
    obtain ⟨s, hs⟩ := value_of_isText (hr.automaton.alphabet a ha)
    rw [hs]
    exact .str s
  · refine .obj (nodup_fieldNames hr) fun f hf => ?_
    obtain ⟨c, hc, rfl⟩ := List.mem_map.1 hf
    obtain ⟨-, n, hn⟩ := hr.bends c hc
    simp only [hn]
    exact .num fun x hx => hfloats x (.inr ⟨c, hc, hx ▸ hn⟩)

lemma check_state {q : State} (hq : q ∈ r.automaton.states) : Json.check q.toJson = .ok () ↔
    ∀ n, .num (.int n) ∈ q.position → n.natAbs < 10 ^ Json.maxDigits := by
  obtain ⟨m, n, hmn⟩ := hr.places q hq
  obtain ⟨hx, hy⟩ := State.coordinates_of_position hmn
  have hid := check_text (hr.automaton.ids q hq)
  have hlabel := check_text (hr.automaton.labels q hq)
  have htype : Json.check (.str q.type.name) = .ok () := rfl
  have hnumber (k : Number) : Json.check (.num k) = Json.checkNumber k := rfl
  rw [State.toJson, Json.check, Json.checkFields_eq_ok, hx, hy]
  simp only [List.forall_mem_cons, hid, hlabel, htype, hnumber, Json.checkNumber_eq_ok, hmn]
  grind

lemma check_transition {t : Transition} (ht : t ∈ r.automaton.transitions) :
    Json.check t.toJson = .ok () := by
  obtain ⟨hid, hsource, htarget⟩ := hr.automaton.transitions t ht
  have hsymbol : Json.check (.str t.symbolText) = .ok () := rfl
  rw [Transition.toJson, Json.check, Json.checkFields_eq_ok]
  simp [check_text hid, check_text hsource, check_text htarget, hsymbol]

lemma check_toFields : Json.check (.obj r.toFields) = .ok () ↔
    ∀ n, r.Holds (.int n) → n.natAbs < 10 ^ Json.maxDigits := by
  obtain ⟨id, -, hid⟩ := hr.id
  obtain ⟨description, hdescription⟩ := hr.description
  have hstates : Json.check (.arr (r.automaton.states.map State.toJson)) = .ok () ↔
      ∀ q ∈ r.automaton.states, ∀ n, .num (.int n) ∈ q.position →
        n.natAbs < 10 ^ Json.maxDigits := by
    rw [Json.check, Json.checkItems_eq_ok, List.forall_mem_map]
    exact forall₂_congr fun q hq => check_state hr hq
  have htransitions : Json.check (.arr (r.automaton.transitions.map Transition.toJson)) =
      .ok () := by
    rw [Json.check, Json.checkItems_eq_ok, List.forall_mem_map]
    exact fun t ht => check_transition hr ht
  have halphabet : Json.check (.arr (r.automaton.alphabet.map Name.value)) = .ok () := by
    rw [Json.check, Json.checkItems_eq_ok, List.forall_mem_map]
    exact fun a ha => check_text (hr.automaton.alphabet a ha)
  have hcurvatures :
      Json.check (.obj (r.curvatures.map fun (n, v) => (fieldName n, v))) = .ok () ↔
        ∀ c ∈ r.curvatures, ∀ n, c.2 = .num (.int n) → n.natAbs < 10 ^ Json.maxDigits := by
    rw [Json.check, Json.checkFields_eq_ok, List.forall_mem_map]
    refine forall₂_congr fun c hc => ?_
    obtain ⟨-, n, hn⟩ := hr.bends c hc
    have hnumber : Json.check (.num n) = Json.checkNumber n := rfl
    simp only [hn, hnumber, Json.checkNumber_eq_ok, Json.num.injEq]
  have htext (s : String) : Json.check (.str s) = .ok () := rfl
  have hidText : Json.check r.id.value = .ok () := by rw [hid]; rfl
  rw [Json.check, Json.checkFields_eq_ok, toFields, ownFields, Automaton.toFields, hdescription]
  simp only [List.forall_mem_append, List.forall_mem_cons, hidText, check_text hr.name, htext,
    htransitions, halphabet, hstates, hcurvatures, Holds]
  grind

lemma check_of_floats (hints : ∀ n : Int, ¬ r.Holds (.int n)) :
    Json.check (.obj r.toFields) = .ok () :=
  (check_toFields hr).2 fun n hn => absurd hn (hints n)

lemma requireWritable_eq : r.requireWritable l =
    (Json.check (.obj r.toFields)).mapError fun _ => .tooLong := by
  obtain ⟨depth, hdepth⟩ : ∃ n, Json.maxDepth = n + 4 := ⟨Json.maxDepth - 4, rfl⟩
  let bends := r.curvatures.map fun (n, v) => (fieldName n, v)
  have hfields : ∀ f ∈ r.toFields,
      f.2.requireWritable l (depth + 3) = (Json.check f.2).mapError fun _ => .tooLong :=
    fun f hf => Json.requireWritable_of_shaped <|
      (shaped_toFields hr depth fun _ _ => trivial).of_mem_fields hf
  obtain ⟨hown, hbends⟩ := List.forall_mem_append.1 hfields
  have hsplit : r.requireWritable l = Json.requireFields l (depth + 3) r.ownFields >>= fun _ =>
      (Json.obj bends).requireWritable l (depth + 3) := by
    rw [requireWritable, hdepth]
    exact bind_congr fun _ => requireBends_eq (depth + 2) fun c hc => (hr.bends c hc).1
  have hcheck : Json.check (.obj r.toFields) =
      Json.checkFields r.ownFields >>= fun _ => Json.check (.obj bends) := by
    rw [Json.check, toFields, Json.checkFields_append]
    exact bind_congr fun _ => Json.checkFields_singleton _ _
  rw [hsplit, hcheck, Result.mapError_bind, Json.requireFields_eq hown,
    hbends _ (List.mem_singleton_self _)]

lemma toText_of_check (hcheck : Json.check (.obj r.toFields) = .ok ()) :
    r.toText l = .ok (Json.render l (.obj r.toFields)) := by
  rw [toText, requireWritable_eq hr, hcheck]
  rfl

lemma ofText_render (hl : l.IsPlain)
    (hfloats : ∀ x, r.Holds (.float x) → Json.FloatReadsBack x) :
    ofText fresh (Json.render l (.obj r.toFields)) =
      (Json.check (.obj r.toFields)).mapError .text >>= fun _ => .ok r := by
  have hparse : Json.parse (Json.render l (.obj r.toFields)) =
      (Json.check (.obj r.toFields)).map fun _ => .obj r.toFields :=
    Json.parse_render hl (shaped_toFields hr 982 hfloats)
  have hread : ofJson fresh (.obj r.toFields) = .ok r := ofFields_toFields hr
  rw [ofText, hparse]
  cases Json.check (.obj r.toFields) with
  | ok u => exact hread
  | error e => rfl

end Shape

/-- A record of texts and numbers, laid out in any way, is written and read back from its text if
its floats are and its whole numbers have at most `Json.maxDigits` digits. Any other one is not
written, and the text that it would have is not read either. -/
theorem ofText_toText (fresh : FreshId) (hr : r.IsPlain)
    (hfloats : ∀ x, r.Holds (.float x) → Json.FloatReadsBack x) (width : Option ℕ) :
    ((∀ n, r.Holds (.int n) → n.natAbs < 10 ^ Json.maxDigits) →
      ∃ text, r.toText (.ofWidth width) = .ok text ∧ ofText fresh text = .ok r) ∧
    ((¬ ∀ n, r.Holds (.int n) → n.natAbs < 10 ^ Json.maxDigits) →
      r.toText (.ofWidth width) = .error .tooLong ∧
      ∃ digits, Json.maxDigits < digits ∧
        ofText fresh (Json.render (.ofWidth width) (.obj r.toFields)) =
          .error (.text (.tooLong digits))) := by
  rw [ofText_render hr (Json.Layout.isPlain_ofWidth width) hfloats, ← check_toFields hr, toText,
    requireWritable_eq hr]
  cases hcheck : Json.check (.obj r.toFields) with
  | ok u =>
    refine ⟨fun _ => ⟨_, rfl, ?_⟩, fun h => absurd rfl h⟩
    rw [ofText_render hr (Json.Layout.isPlain_ofWidth width) hfloats, hcheck]
    rfl
  | error e =>
    obtain ⟨digits, hdigits, rfl⟩ := Json.isTooLong_of_check (shaped_toFields hr 0 hfloats) hcheck
    exact ⟨fun h => (by cases h), fun _ => ⟨rfl, digits, hdigits, rfl⟩⟩

def mixed : Record where
  id := "r\"1\""
  name := "tab\t, quote\", slash\\"
  description := .str "línea\n\x01 𝔸"
  automaton := {
    states := [⟨"q\n", "ε→", .startAccept, [.num (.int (-30)), .num (.float 0.1)], by decide,
      by decide⟩]
    transitions := [⟨"t", "q\n", "", '"', by decide, by decide⟩]
    alphabet := ["\"", "ab", ""]
    keys_nodup := by decide
    ids_atoms := by decide
    alphabet_nodup := by decide
    alphabet_atoms := by decide }
  curvatures := [("q\n-", .num (.float (-1e-7)))]
  name_ne := by decide
  keys_nodup := by decide

lemma isPlain_mixed : mixed.IsPlain where
  id := ⟨_, by decide, rfl⟩
  name := rfl
  description := ⟨_, rfl⟩
  automaton := by constructor <;> decide
  places := by simp [mixed]
  bends := by simp [mixed]; rfl

lemma floatReadsBack_mixed {x : Float} (h : mixed.Holds (.float x)) : Json.FloatReadsBack x := by
  have hx : x = 0.1 ∨ x = -1e-7 := by simpa [Holds, mixed, eq_comm] using h
  rcases hx with rfl | rfl
  · exact ⟨⟨false, ['0'], ['1'], none⟩, by rfl, by rfl⟩
  · exact ⟨⟨true, ['1'], [], some (-7)⟩, by rfl, by rfl⟩

def spareId : FreshId :=
  ⟨"r2", by decide⟩

theorem ofText_toText_mixed :
    (∃ text, mixed.toText (.ofWidth none) = .ok text ∧ ofText spareId text = .ok mixed) ∧
      ∃ text, mixed.toText (.ofWidth (some 4)) = .ok text ∧ ofText spareId text = .ok mixed := by
  have hdigits : ∀ n, mixed.Holds (.int n) → n.natAbs < 10 ^ Json.maxDigits := by
    intro n hn
    obtain rfl : n = -30 := by simpa [Holds, mixed, eq_comm] using hn
    calc (-30 : Int).natAbs < 10 ^ 2 := by decide
      _ ≤ 10 ^ Json.maxDigits := Nat.pow_le_pow_right (by decide) (by decide)
  have hread (width : Option ℕ) :=
    (ofText_toText spareId isPlain_mixed (fun _ => floatReadsBack_mixed) width).1 hdigits
  exact ⟨hread none, hread (some 4)⟩

def oversized : Record where
  id := "i"
  name := "n"
  description := .str ""
  automaton := {
    states := []
    transitions := []
    alphabet := []
    keys_nodup := List.nodup_nil
    ids_atoms := by simp
    alphabet_nodup := List.nodup_nil
    alphabet_atoms := Name.isAtom_of_mem_nil }
  curvatures := [("a", .num (.int (10 ^ Json.maxDigits)))]
  name_ne := by decide
  keys_nodup := List.nodup_singleton _

lemma length_toDigits_pow (k : ℕ) : (Nat.toDigits 10 ((10 : Int) ^ k).natAbs).length = k + 1 := by
  have habs : ((10 : Int) ^ k).natAbs = 10 ^ k := Int.natAbs_pow 10 k
  rw [habs]
  have hle (m : ℕ) : (Nat.toDigits 10 (10 ^ k)).length ≤ m + 1 ↔ k < m + 1 := by
    rw [Nat.length_toDigits_le_iff (by decide) m.succ_pos, Nat.pow_lt_pow_iff_right (by decide)]
  have hpos : 0 < (Nat.toDigits 10 (10 ^ k)).length :=
    List.length_pos_iff.2 Nat.toDigits_ne_nil
  have hupper := hle k
  have hlower := hle ((Nat.toDigits 10 (10 ^ k)).length - 1)
  omega

lemma isPlain_oversized : oversized.IsPlain where
  id := ⟨_, by decide, rfl⟩
  name := rfl
  description := ⟨_, rfl⟩
  automaton := by constructor <;> simp [oversized]
  places := by simp [oversized]
  bends := by simp [oversized]; rfl

theorem ofText_toText_oversized :
    oversized.IsPlain ∧ (∀ x, ¬ oversized.Holds (.float x)) ∧
      oversized.toText (.ofWidth none) = .error .tooLong ∧
      ∀ fresh, ofText fresh (Json.render (.ofWidth none) (.obj oversized.toFields)) =
        .error (.text (.tooLong (Json.maxDigits + 1))) := by
  have hfloats : ∀ x, ¬ oversized.Holds (.float x) := by simp [Holds, oversized]
  have hnumber : Json.checkNumber (.int (10 ^ Json.maxDigits)) =
      .error (.tooLong (Json.maxDigits + 1)) := by
    rw [Json.checkNumber, length_toDigits_pow, if_pos (Nat.lt_succ_self _)]
  have hcheck : Json.check (.obj oversized.toFields) = .error (.tooLong (Json.maxDigits + 1)) := by
    simp [toFields, ownFields, Automaton.toFields, oversized, Json.check, Json.checkFields,
      Json.checkItems, Name.text, Name.value, hnumber]
    rfl
  refine ⟨isPlain_oversized, hfloats, ?_, fun fresh => ?_⟩
  · rw [toText, requireWritable_eq isPlain_oversized, hcheck]
    rfl
  · rw [ofText_render isPlain_oversized (Json.Layout.isPlain_ofWidth none)
      fun x hx => absurd hx (hfloats x), hcheck]
    rfl

end DfaWorkbench.Record
