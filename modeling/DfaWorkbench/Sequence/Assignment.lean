/-!
Lists of entries that are set one after another. A second value for a key takes the place of the
first, and the entry stays where it is.
-/

namespace DfaWorkbench.Sequence

variable {α β κ : Type} [DecidableEq κ]

def assign (key : α → κ) (entries : List (α × β)) (a : α) (b : β) : List (α × β) :=
  if key a ∈ entries.map (key ·.1) then
    entries.map fun e => if key e.1 = key a then (e.1, b) else e
  else entries ++ [(a, b)]

def merged (key : α → κ) (entries : List (α × β)) : List (α × β) :=
  entries.foldl (fun es e => assign key es e.1 e.2) []

theorem keys_assign (key : α → κ) (entries : List (α × β)) (a : α) (b : β) :
    (assign key entries a b).map (key ·.1) =
      if key a ∈ entries.map (key ·.1) then entries.map (key ·.1)
      else entries.map (key ·.1) ++ [key a] := by
  by_cases h : key a ∈ entries.map (key ·.1)
  · rw [assign, if_pos h, if_pos h, List.map_map]
    refine List.map_congr_left fun e _ => ?_
    by_cases he : key e.1 = key a <;> simp [he]
  · rw [assign, if_neg h, if_neg h, List.map_append]
    rfl

theorem nodup_keys_assign {key : α → κ} {entries : List (α × β)}
    (h : (entries.map (key ·.1)).Nodup) (a : α) (b : β) :
    ((assign key entries a b).map (key ·.1)).Nodup := by
  rw [keys_assign]
  split
  · exact h
  · next hn => exact List.nodup_append.2 ⟨h, by simp, by grind⟩

theorem nodup_keys_merged (key : α → κ) (entries : List (α × β)) :
    ((merged key entries).map (key ·.1)).Nodup := by
  have go (es : List (α × β)) (h : (es.map (key ·.1)).Nodup) :
      ((entries.foldl (fun es e => assign key es e.1 e.2) es).map (key ·.1)).Nodup := by
    induction entries generalizing es with
    | nil => exact h
    | cons e entries ih => exact ih _ (nodup_keys_assign h e.1 e.2)
  exact go [] List.nodup_nil

end DfaWorkbench.Sequence
