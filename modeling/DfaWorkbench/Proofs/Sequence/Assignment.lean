import Mathlib.Data.List.Induction
import Mathlib.Tactic.Common
import DfaWorkbench.Sequence.Assignment

/-! Entries that are set one after another: the last one of a key counts, and if their keys are
distinct, all of them are kept. -/

namespace DfaWorkbench.Sequence

variable {α β κ : Type} [DecidableEq κ] {key : α → κ} {entries : List (α × β)}

lemma foldl_assign_of_nodup (front : List (α × β))
    (h : ((front ++ entries).map (key ·.1)).Nodup) :
    entries.foldl (fun es e => assign key es e.1 e.2) front = front ++ entries := by
  induction entries generalizing front with
  | nil => simp
  | cons e entries ih =>
    have hnew : key e.1 ∉ front.map (key ·.1) := by
      rw [List.map_append, List.nodup_append] at h
      exact fun hmem => h.2.2 _ hmem _ List.mem_cons_self rfl
    rw [List.append_cons] at h ⊢
    rw [List.foldl_cons, assign, if_neg hnew, ih _ h]

lemma merged_of_nodup (h : (entries.map (key ·.1)).Nodup) : merged key entries = entries :=
  foldl_assign_of_nodup [] h

lemma merged_concat (key : α → κ) (entries : List (α × β)) (e : α × β) :
    merged key (entries ++ [e]) = assign key (merged key entries) e.1 e.2 := by
  rw [merged, List.foldl_append]
  rfl

lemma exists_of_mem_assign {a : α} {b : β} {e : α × β} (h : e ∈ assign key entries a b) :
    e.1 = a ∨ ∃ e' ∈ entries, e'.1 = e.1 := by
  rw [assign] at h
  split at h
  · obtain ⟨e', he', rfl⟩ := List.mem_map.1 h
    refine .inr ⟨e', he', ?_⟩
    split <;> rfl
  · rcases List.mem_append.1 h with h | h
    · exact .inr ⟨e, h, rfl⟩
    · exact .inl (congrArg Prod.fst (List.mem_singleton.1 h))

lemma exists_of_mem_merged {e : α × β} (h : e ∈ merged key entries) :
    ∃ e' ∈ entries, e'.1 = e.1 := by
  induction entries using List.reverseRecOn generalizing e with
  | nil => cases h
  | append_singleton entries c ih =>
    rw [merged_concat] at h
    rcases exists_of_mem_assign h with hc | ⟨d, hd, hde⟩
    · exact ⟨c, List.mem_append_right _ (List.mem_singleton_self c), hc.symm⟩
    · obtain ⟨e', he', hd'⟩ := ih hd
      exact ⟨e', List.mem_append_left _ he', hd'.trans hde⟩

def value? (key : α → κ) (entries : List (α × β)) (k : κ) : Option β :=
  (entries.find? (key ·.1 = k)).map Prod.snd

lemma value?_assign (key : α → κ) (entries : List (α × β)) (a : α) (b : β) (k : κ) :
    value? key (assign key entries a b) k =
      if key a = k then some b else value? key entries k := by
  rw [assign]
  split
  · next hmem =>
    have hfind : (entries.map fun e => if key e.1 = key a then (e.1, b) else e).find?
        (key ·.1 = k) = (entries.find? (key ·.1 = k)).map fun e =>
          if key e.1 = key a then (e.1, b) else e := by
      rw [List.find?_map]
      congr 2
      funext e
      by_cases he : key e.1 = key a <;> simp [he]
    rw [value?, value?, hfind]
    cases hf : entries.find? (key ·.1 = k) with
    | none =>
      obtain ⟨e, he, hk⟩ := List.mem_map.1 hmem
      have hne : key e.1 ≠ k := by simpa using List.find?_eq_none.1 hf e he
      rw [if_neg (hk ▸ hne)]
      rfl
    | some e =>
      obtain rfl : key e.1 = k := by simpa using List.find?_some hf
      by_cases he : key e.1 = key a
      · simp [he]
      · simp [he, Ne.symm he]
  · next hmem =>
    have hrest : (entries.find? (key ·.1 = key a)) = none := by
      refine List.find?_eq_none.2 fun e he hk => hmem ?_
      exact List.mem_map.2 ⟨e, he, by simpa using hk⟩
    rw [value?, value?, List.find?_append]
    by_cases hk : key a = k
    · subst hk
      simp [hrest]
    · simp [hk]

lemma value?_merged (key : α → κ) (entries : List (α × β)) (k : κ) :
    value? key (merged key entries) k =
      (entries.filter (key ·.1 = k)).getLast?.map Prod.snd := by
  induction entries using List.reverseRecOn with
  | nil => rfl
  | append_singleton entries e ih =>
    rw [merged_concat, value?_assign, ih, List.filter_append]
    by_cases he : key e.1 = k <;> simp [he]

end DfaWorkbench.Sequence
