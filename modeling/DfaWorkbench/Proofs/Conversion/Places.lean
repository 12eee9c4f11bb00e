import DfaWorkbench.Proofs.Conversion.Outcomes
import DfaWorkbench.Proofs.Grammar.Spellings

/-! Places by numbers: what is wrong with them is their count, or a whole number that would have to
be a float and is beyond all of them. -/

namespace DfaWorkbench

variable {m n x distance : Number} {i : ℕ} {layout : Layout} {settings : Settings}
  {e : LayoutError} {g : Grammar}

namespace Number

def IsHuge : Number → Prop
  | int n => floatLimit ≤ n.natAbs
  | float _ => False

lemma toFloat?_eq_none_iff : n.toFloat? = none ↔ n.IsHuge := by
  cases n with
  | int n => simp [toFloat?, IsHuge]
  | float x => simp [toFloat?, IsHuge]

lemma isHuge_of_add? (h : m.add? n = none) : m.IsHuge ∨ n.IsHuge := by
  have hfloats (h : (do return float ((← m.toFloat?) + (← n.toFloat?))) = (none : Option Number)) :
      m.IsHuge ∨ n.IsHuge := by
    rw [← toFloat?_eq_none_iff, ← toFloat?_eq_none_iff]
    cases hm : m.toFloat? with
    | none => exact .inl rfl
    | some a =>
      cases hn : n.toFloat? with
      | none => exact .inr rfl
      | some b => simp [hm, hn] at h
  cases m with
  | int m =>
    cases n with
    | int n => cases h
    | float b => exact hfloats h
  | float a => exact hfloats h

lemma isHuge_of_half? (h : n.half? = none) : n.IsHuge := by
  rw [← toFloat?_eq_none_iff]
  cases n with
  | float x => cases h
  | int n =>
    rw [half?] at h
    split at h
    · cases h
    · assumption

lemma not_isHuge_of_half? (h : n.half? = some m) : ¬ m.IsHuge := by
  obtain ⟨x, rfl⟩ : ∃ x, m = .float x := by
    cases n with
    | float x => exact ⟨x / 2, (Option.some.inj h).symm⟩
    | int n =>
      rw [half?] at h
      split at h
      · exact ⟨_, (Option.some.inj h).symm⟩
      · obtain ⟨x, _, rfl⟩ := Option.map_eq_some_iff.1 h
        exact ⟨x, rfl⟩
  exact not_false

end Number

namespace Layout

def Overflows (x distance : Number) (i : ℕ) : Prop :=
  x.IsHuge ∨ distance.IsHuge ∨ (distance.times i).IsHuge ∨
    ∃ n, x.add? (distance.times i) = some n ∧ n.IsHuge

lemma not_overflows_float (a b : Float) (i : ℕ) : ¬ Overflows (.float a) (.float b) i := by
  simp [Overflows, Number.IsHuge, Number.times, Number.add?, Number.toFloat?]

lemma sized_eq_ok {o : Option Number} : sized o = .ok n ↔ o = some n := by
  cases o <;> simp [sized]

lemma sized_eq_error {o : Option Number} : sized o = .error e ↔ o = none ∧ e = .tooLarge := by
  cases o <;> simp [sized, eq_comm]

section Numbers

variable (hx : layout.x = .num x) (hdistance : layout.spacing = .num distance)

include hx hdistance

lemma slot_eq : layout.slot i = do return .num (← sized (x.add? (distance.times i))) := by
  simp only [slot, hx, hdistance]
  rfl

lemma overflows_of_slot (h : layout.slot i = .error e) :
    e = .tooLarge ∧ Overflows x distance i := by
  rw [slot_eq hx hdistance] at h
  rcases Result.bind_eq_error.1 h with h | ⟨n, _, h⟩
  · obtain ⟨hadd, he⟩ := sized_eq_error.1 h
    rcases Number.isHuge_of_add? hadd with hhuge | hhuge
    · exact ⟨he, .inl hhuge⟩
    · exact ⟨he, .inr (.inr (.inl hhuge))⟩
  · cases h

lemma overflows_of_slotAfter (h : layout.slotAfter i = .error e) :
    e = .tooLarge ∧ Overflows x distance i := by
  rcases Result.bind_eq_error.1 h with hslot | ⟨v, hslot, h⟩
  · exact overflows_of_slot hx hdistance hslot
  rw [slot_eq hx hdistance] at hslot
  obtain ⟨n, hn, hv⟩ := Result.bind_eq_ok.1 hslot
  obtain rfl := Except.ok.inj hv
  have hadd := sized_eq_ok.1 hn
  rw [hdistance] at h
  change (do return Json.num (← sized (n.add? (← sized distance.half?)))) = .error e at h
  rcases Result.bind_eq_error.1 h with h | ⟨half, hhalf, h⟩
  · obtain ⟨hhalf, he⟩ := sized_eq_error.1 h
    exact ⟨he, .inr (.inl (Number.isHuge_of_half? hhalf))⟩
  rcases Result.bind_eq_error.1 h with h | ⟨m, _, h⟩
  · obtain ⟨hsum, he⟩ := sized_eq_error.1 h
    have hhuge := (Number.isHuge_of_add? hsum).resolve_right
      (Number.not_isHuge_of_half? (sized_eq_ok.1 hhalf))
    exact ⟨he, .inr (.inr (.inr ⟨n, hadd, hhuge⟩))⟩
  · cases h

end Numbers

end Layout

/-- Why settings whose coordinates and distance are numbers have no place for each of some states
and one behind them. -/
inductive Settings.Cramped (settings : Settings) (count : ℕ) : LayoutError → Prop
  | coordinates {ns : List Number} : settings.origin = .arr (ns.map Json.num) → ns.length ≠ 2 →
      settings.Cramped count (.coordinates ns.length)
  | tooLarge {x y distance : Number} {i : ℕ} : settings.origin = .arr [.num x, .num y] →
      settings.spacing = .num distance → i ≤ count → Layout.Overflows x distance i →
      settings.Cramped count .tooLarge

lemma Layout.ofSettings_of_count {xs : List Json} (h : settings.origin.entries? = some xs)
    (hcount : xs.length ≠ 2) : ofSettings settings = .error (.coordinates xs.length) := by
  rw [ofSettings, h]
  split
  · next x y hxs =>
    obtain rfl := Option.some.inj hxs
    exact absurd rfl hcount
  · next hxs => rw [Option.some.inj hxs]
  · next hxs => cases hxs

lemma Settings.Typed.cramped (h : settings.Typed) (he : g.Misplaces settings e) :
    settings.Cramped g.nonTerminals.length e := by
  obtain ⟨ns, horigin⟩ := h.origin
  obtain ⟨distance, hdistance⟩ := h.spacing
  have hentries : settings.origin.entries? = some (ns.map Json.num) := by
    rw [horigin]
    rfl
  by_cases hcount : ns.length = 2
  · obtain ⟨x, y, rfl⟩ := List.length_eq_two.1 hcount
    have hlayout : Layout.ofSettings settings = .ok ⟨.num x, .num y, .num distance⟩ := by
      rw [Layout.ofSettings, hentries, hdistance]
      rfl
    rcases he with he | ⟨layout, hl, he⟩
    · cases hlayout.symm.trans he
    obtain rfl := Except.ok.inj (hlayout.symm.trans hl)
    rcases he with ⟨i, hi, he⟩ | he
    · obtain ⟨rfl, hover⟩ := Layout.overflows_of_slot rfl rfl he
      exact .tooLarge horigin hdistance hi.le hover
    · obtain ⟨rfl, hover⟩ := Layout.overflows_of_slotAfter rfl rfl he
      exact .tooLarge horigin hdistance le_rfl hover
  · have hlayout := Layout.ofSettings_of_count hentries (by rwa [List.length_map])
    rw [List.length_map] at hlayout
    rcases he with he | ⟨layout, hl, _⟩
    · obtain rfl := Except.error.inj (hlayout.symm.trans he)
      exact .coordinates horigin hcount
    · cases hlayout.symm.trans hl

end DfaWorkbench
