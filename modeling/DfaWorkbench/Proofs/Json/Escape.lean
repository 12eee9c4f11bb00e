import Mathlib.Tactic.Common
import DfaWorkbench.Json.Printer
import DfaWorkbench.Json.Reader

/-! Strings in JSON text: what is written between two quotes is read as the same string. -/

namespace DfaWorkbench.Json

variable {l : Layout} {c : Char} {cs rest : List Char}

lemma units?_plain (hquote : c ≠ '"') (hslash : c ≠ '\\') (hn : 0x20 ≤ c.toNat) :
    units? (c :: cs) = (units? cs).map fun (us, rest) => (c.toNat :: us, rest) := by
  rw [units?, if_neg (by omega)]
  · exact hquote
  · rintro a b d e rest rfl
    exact absurd rfl hslash
  · rintro d rest rfl
    exact absurd rfl hslash

lemma units?_escaped {d : Char} (hu : c ≠ 'u') (hd : unescape? c = some d) :
    units? ('\\' :: c :: cs) = (units? cs).map fun (us, rest) => (d.toNat :: us, rest) := by
  rw [units?, hd]
  · cases units? cs <;> rfl
  · exact fun _ _ _ _ _ h _ => hu h

lemma units?_unitEscape {n : ℕ} (hn : n < 0x20) :
    units? (unitEscape n ++ cs) = (units? cs).map fun (us, rest) => (n :: us, rest) := by
  have hhex : ∀ n < 0x20, hexUnit? (Nat.digitChar (n / 4096 % 16)) (Nat.digitChar (n / 256 % 16))
      (Nat.digitChar (n / 16 % 16)) (Nat.digitChar (n % 16)) = some n := by decide
  simp only [unitEscape, List.cons_append, List.nil_append, units?, hhex n hn]
  cases units? cs <;> rfl

lemma units?_escapeChar (hl : l.ascii = false) :
    units? (escapeChar l c ++ cs) = (units? cs).map fun (us, rest) => (c.toNat :: us, rest) := by
  simp only [escapeChar, hl, true_or, if_true]
  split_ifs with hself hn hr ht hb hf hlow
  · refine units?_escaped ?_ ?_
    · rcases hself with rfl | rfl <;> decide
    · rcases hself with rfl | rfl <;> rfl
  · exact hn ▸ units?_escaped (by decide) rfl
  · exact hr ▸ units?_escaped (by decide) rfl
  · exact ht ▸ units?_escaped (by decide) rfl
  · exact hb ▸ units?_escaped (by decide) rfl
  · exact hf ▸ units?_escaped (by decide) rfl
  · exact units?_unitEscape hlow
  · rw [not_or] at hself
    exact units?_plain hself.1 hself.2 (by omega)

lemma units?_escaped_text (hl : l.ascii = false) :
    units? (cs.flatMap (escapeChar l) ++ '"' :: rest) = some (cs.map Char.toNat, rest) := by
  induction cs with
  | nil => rfl
  | cons c cs ih => rw [List.flatMap_cons, List.append_assoc, units?_escapeChar hl, ih]; rfl

lemma toNat_range (c : Char) : c.toNat < 0xD800 ∨ 0xE000 ≤ c.toNat := by
  have h := c.valid
  simp only [UInt32.isValidChar, Nat.isValidChar] at h
  have he : c.val.toNat = c.toNat := rfl
  omega

lemma unitChar_toNat (c : Char) : unitChar c.toNat = c := by
  have h := toNat_range c
  rw [unitChar, if_neg (by omega), Char.ofNat_toNat]

lemma joinPairs_map_toNat (cs : List Char) : joinPairs (cs.map Char.toNat) = cs := by
  induction cs with
  | nil => rfl
  | cons c cs ih =>
    cases cs with
    | nil => rw [List.map_singleton, joinPairs, unitChar_toNat]
    | cons d cs =>
      have h := toNat_range c
      rw [List.map_cons, List.map_cons, joinPairs, if_neg (by omega), unitChar_toNat,
        ← List.map_cons, ih]

lemma stringText_append (s : String) :
    stringText l s ++ rest = '"' :: (s.toList.flatMap (escapeChar l) ++ '"' :: rest) := by
  simp [stringText]

lemma string?_escaped (hl : l.ascii = false) (s : String) :
    string? (s.toList.flatMap (escapeChar l) ++ '"' :: rest) = some (s, rest) := by
  rw [string?, units?_escaped_text hl]
  simp [joinPairs_map_toNat]

end DfaWorkbench.Json
