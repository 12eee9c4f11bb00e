import Mathlib.Tactic.Common
import DfaWorkbench.Name

namespace DfaWorkbench.Name

variable {m n : Name} {ns : List Name} {s : String}

lemma eq_text_of_text? (h : n.text? = some s) : n = text s := by
  cases n with
  | of v => cases v <;> simp_all [text?, value, text]
  | group xs => simp [text?, value] at h

lemma exists_text (h : n.isText = true) : ∃ s, n = text s :=
  (Option.isSome_iff_exists.1 h).imp fun _ => eq_text_of_text?

lemma isAtom_of_isText (h : n.isText = true) : n.isAtom = true := by
  obtain ⟨s, rfl⟩ := exists_text h
  exact isAtom_text s

lemma isAtom_of_mem_nil : ∀ n ∈ ([] : List Name), n.isAtom = true :=
  List.forall_mem_nil _

lemma requireTexts_of_isText (h : ∀ n ∈ ns, n.isText = true) : requireTexts ns = .ok () := by
  rw [requireTexts, if_pos (List.all_eq_true.2 h)]

lemma requireAtoms_eq_ok_iff : requireAtoms ns = .ok () ↔ ∀ n ∈ ns, n.isAtom = true := by
  rw [requireAtoms, ← List.all_eq_true]
  split
  · next h => simp [h]
  · next h => simp [h]

lemma requireAtoms_of_isAtom (h : ∀ n ∈ ns, n.isAtom = true) : requireAtoms ns = .ok () :=
  requireAtoms_eq_ok_iff.2 h

lemma requireAtoms_of_isText (h : ∀ n ∈ ns, n.isText = true) : requireAtoms ns = .ok () :=
  requireAtoms_of_isAtom fun n hn => isAtom_of_isText (h n hn)

lemma eq_text_of_key (h : n.key = .text s) : n = text s := by
  cases n with
  | of v => cases v <;> simp_all [key, keyOf, Json.canonical, text]
  | group xs =>
    rw [key] at h
    split at h
    · cases h
    · cases h

lemma key_mem_map_iff (h : ∀ m ∈ ns, m.isText = true) : n.key ∈ ns.map key ↔ n ∈ ns := by
  refine ⟨fun hmem => ?_, fun hmem => List.mem_map_of_mem hmem⟩
  obtain ⟨m, hm, hk⟩ := List.mem_map.1 hmem
  obtain ⟨s, rfl⟩ := exists_text (h m hm)
  rwa [eq_text_of_key hk.symm]

lemma text_injective : Function.Injective text :=
  fun _ _ h => Key.text.inj (congrArg key h)

lemma ofChar_inj {a b : Char} : ofChar a = ofChar b ↔ a = b := by
  simp [ofChar, text, String.singleton_inj]

lemma isAtom_of_key_eq (h : m.key = n.key) (hm : m.isAtom = true) : n.isAtom = true := by
  rw [← isAtom_key, ← h, isAtom_key, hm]

lemma atomKey_eq_ok_iff {k : Key} : n.atomKey = .ok k ↔ n.isAtom = true ∧ n.key = k := by
  rw [atomKey]
  split
  · next h => simp [h]
  · next h => simp [h]

lemma atomKey_eq_ok (h : n.isAtom = true) : n.atomKey = .ok n.key :=
  atomKey_eq_ok_iff.2 ⟨h, rfl⟩

lemma key_of_atomKey {k : Key} (h : n.atomKey = .ok k) : n.key = k :=
  (atomKey_eq_ok_iff.1 h).2

lemma perm_of_sorted {ms ns : List Name} (h : sorted ns = .ok ms) : ms.Perm ns := by
  rw [sorted] at h
  split at h
  · obtain rfl := Except.ok.inj h
    exact List.mergeSort_perm ns _
  · cases h

end DfaWorkbench.Name
