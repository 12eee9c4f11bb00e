import Mathlib.Algebra.Group.Nat.Defs
import Mathlib.Data.Int.Notation
import Mathlib.Tactic.Common
import DfaWorkbench.Proofs.Simulation.Runs
import DfaWorkbench.Proofs.Validation.Worded
import DfaWorkbench.Table.Contents

/-! Tables over texts, which can always be made. A column of numbers counts from one, so that it
ends or becomes a column of mixed values before a number in it is beyond all floats. -/

namespace DfaWorkbench

variable {A : Automaton} {vs : List Json} {columns : List Name} {rows : List (List Cell)}

namespace Column

lemma exists_scan_texts (h : ∀ v ∈ vs, ∃ s, v = .str s) (seen : Column) :
    ∃ r, seen.scan vs = .ok r := by
  cases vs with
  | nil => exact ⟨_, rfl⟩
  | cons v vs =>
    obtain ⟨s, rfl⟩ := h v List.mem_cons_self
    exact ⟨none, rfl⟩

lemma exists_scan_counting (n k : ℕ) (hk : k ≤ 2 ^ 64) {seen : Column}
    (hseen : seen.hasNegative = false) :
    ∃ r, seen.scan ((List.range' k n).map Json.ofNat) = .ok r := by
  induction n generalizing k seen with
  | zero => exact ⟨_, rfl⟩
  | succ n ih =>
    have hfloat : (Number.toFloat? (.int k)).isNone = false := by
      have hlimit : 2 ^ 64 < Number.floatLimit := by decide
      rw [Number.toFloat?, if_pos (by omega)]
      rfl
    rw [List.range'_succ, List.map_cons, Json.ofNat, scan, hfloat]
    simp only [Bool.false_eq_true, if_false, hseen]
    split
    -- a number that needs more than 64 bits ends the scan
    · exact ⟨none, rfl⟩
    · next h =>
      simp only [Bool.or_eq_true, decide_eq_true_eq, not_or] at h
      exact ih (k + 1) (by omega) (by simp)

lemma exists_holdsFloats (h : ∃ r, scan {} vs = .ok r) : ∃ b, holdsFloats vs = .ok b := by
  obtain ⟨r, hr⟩ := h
  rw [holdsFloats, hr]
  cases r with
  | none => exact ⟨_, rfl⟩
  | some seen => exact ⟨_, rfl⟩

end Column

def Cell.IsText (c : Cell) : Prop :=
  ∃ s, c.value = .str s

namespace Table

def valuesAt (rows : List (List Cell)) (i : ℕ) : List Json :=
  (rows.filterMap (·[i]?)).map Cell.value

lemma mem_valuesAt {v : Json} {i : ℕ} :
    v ∈ valuesAt rows i ↔ ∃ row ∈ rows, ∃ c, row[i]? = some c ∧ c.value = v := by
  simp [valuesAt, List.mem_filterMap]
  grind

lemma exists_make (h : ∀ i < columns.length, ∃ r, Column.scan {} (valuesAt rows i) = .ok r) :
    ∃ t, make columns rows = .ok t := by
  have hcolumns : ∀ i ∈ List.range columns.length,
      ∃ b, Column.holdsFloats (valuesAt rows i) = .ok b := fun i hi =>
    Column.exists_holdsFloats (h i (List.mem_range.1 hi))
  obtain ⟨floats, hfloats⟩ := Result.exists_mapM_eq_ok hcolumns
  exact ⟨_, Result.bind_eq_ok.2 ⟨floats, hfloats, rfl⟩⟩

lemma exists_make_of_texts (columns : List Name) (h : ∀ row ∈ rows, ∀ c ∈ row, c.IsText) :
    ∃ t, make columns rows = .ok t := by
  refine exists_make fun i _ => Column.exists_scan_texts (fun v hv => ?_) _
  obtain ⟨row, hrow, c, hc, rfl⟩ := mem_valuesAt.1 hv
  exact h row hrow c (List.mem_of_getElem? hc)

end Table

lemma Cell.exists_list {ns : List Name} (h : ∀ n ∈ ns, n.isText = true) :
    ∃ c, Cell.list ns = .ok c ∧ c.IsText := by
  rw [Cell.list, Name.requireTexts_of_isText h]
  exact ⟨_, rfl, _, rfl⟩

lemma Automaton.relabel_eq_self {label : State → Name} (h : ∀ q ∈ A.states, label q = q.label) :
    A.relabel label = A := by
  have hstate : ∀ q ∈ A.states, q.relabel (label q) = id q := fun q hq => by
    rw [h q hq, State.relabel, dif_neg (by simp [q.label_ne]), id]
  have hstates : A.states.map (fun q => q.relabel (label q)) = A.states := by
    rw [List.map_congr_left hstate, List.map_id]
  simp only [relabel, hstates]

namespace Automaton.Worded

variable {q : State}

lemma exists_markedLabel (times : ℕ) (h : q.label.isText = true) :
    ∃ c, q.markedLabel times = .ok c ∧ c.IsText := by
  obtain ⟨s, hs⟩ := Name.exists_text h
  rw [State.markedLabel, hs]
  exact ⟨_, rfl, _, rfl⟩

variable (h : A.Worded)

include h

lemma exists_targetsCell (q : State) (a : Name) :
    ∃ c, A.targetsCell A.bySourceAndSymbol q a = .ok c ∧ c.IsText := by
  have hts : ∀ t ∈ A.transitionsOn q.key a.key, t ∈ A.transitions :=
    fun t ht => mem_transitions_of_mem_transitionsOn ht
  rw [targetsCell]
  split
  · exact ⟨_, rfl, _, rfl⟩
  · exact Cell.exists_list (h.targets_of_subset hts)

lemma exists_tableRow (times : ℕ) (hq : q ∈ A.states) :
    ∃ row, A.tableRow A.bySourceAndSymbol times q = .ok row ∧ ∀ c ∈ row, c.IsText := by
  obtain ⟨label, hlabel, htext⟩ := exists_markedLabel times (h.labels q hq)
  obtain ⟨cells, hcells, htexts⟩ :=
    Result.exists_mapM_forall fun a (_ : a ∈ A.alphabet) => h.exists_targetsCell q a
  exact ⟨label :: cells,
    Result.bind_eq_ok.2 ⟨label, hlabel, Result.bind_eq_ok.2 ⟨cells, hcells, rfl⟩⟩,
    List.forall_mem_cons.2 ⟨htext, htexts⟩⟩

lemma exists_transitionTable (times : ℕ) : ∃ t, A.transitionTable times = .ok t := by
  obtain ⟨rows, hrows, htexts⟩ :=
    Result.exists_mapM_forall fun q (hq : q ∈ A.states) => h.exists_tableRow times hq
  obtain ⟨t, ht⟩ := Table.exists_make_of_texts ("State" :: A.alphabet) htexts
  refine ⟨t, ?_⟩
  rw [transitionTable, h.requireAtoms_sources, hrows]
  split <;> exact ht

lemma grown_eq (times : ℕ) : A.grown times = A := by
  refine relabel_eq_self fun q hq => ?_
  obtain ⟨s, hs⟩ := Name.exists_text (h.labels q hq)
  have hlabel : q.grownLabel times = q.label := by
    rw [State.grownLabel, hs]
    rfl
  rw [hlabel, ite_self]

end Automaton.Worded

namespace Diagnostic

variable {d : Diagnostic} {ds : List Diagnostic}

lemma Worded.exists_tableRow (h : d.Worded) :
    ∃ row, d.tableRow = .ok row ∧ ∀ c ∈ row, c.IsText := by
  obtain ⟨c, hc, htext⟩ := Cell.exists_list h.affected
  refine ⟨_, Result.bind_eq_ok.2 ⟨c, hc, rfl⟩, ?_⟩
  have htexts (s : String) : (Cell.text s).IsText := ⟨s, rfl⟩
  simp [htexts, htext]

lemma exists_table (h : ∀ d ∈ ds, d.Worded) : ∃ t, table ds = .ok t := by
  obtain ⟨rows, hrows, htexts⟩ := Result.exists_mapM_forall fun d hd => (h d hd).exists_tableRow
  obtain ⟨t, ht⟩ := Table.exists_make_of_texts
    ["Severity", "Kind", "Message", "Details", "Suggestion", "Affected"] htexts
  refine ⟨t, ?_⟩
  rw [table, hrows]
  exact ht

end Diagnostic

namespace Simulator

variable {s : Simulator}

lemma valuesAt_zero (s : Simulator) :
    Table.valuesAt (s.history.zipIdx.map fun ((source, a, target), i) =>
      [.number (i + 1), .name source, .text (String.singleton a), .name target]) 0 =
      (List.range' 1 s.history.length).map Json.ofNat := by
  have hcounts : List.range' 1 s.history.length = (s.history.zipIdx.map Prod.snd).map (1 + ·) := by
    rw [List.zipIdx_map_snd, List.map_add_range']
  rw [Table.valuesAt, List.filterMap_map, hcounts]
  simp [Function.comp_def, Cell.value, Nat.add_comm, -List.zipIdx_map_snd]

lemma exists_table (h : ∀ m ∈ s.history, m.1.isText = true ∧ m.2.2.isText = true) :
    ∃ t, s.table = .ok t := by
  refine Table.exists_make fun i hi => ?_
  cases i with
  | zero =>
    rw [valuesAt_zero]
    exact Column.exists_scan_counting _ 1 (by decide) rfl
  | succ i =>
    refine Column.exists_scan_texts (fun v hv => ?_) _
    obtain ⟨row, hrow, c, hc, rfl⟩ := Table.mem_valuesAt.1 hv
    obtain ⟨⟨⟨source, a, target⟩, k⟩, hm, rfl⟩ := List.mem_map.1 hrow
    obtain ⟨hsource, htarget⟩ := h _ (List.fst_mem_of_mem_zipIdx hm)
    have htexts : ∀ c ∈ [Cell.name source, .text (String.singleton a), .name target],
        c.IsText := by
      obtain ⟨p, rfl⟩ := Name.exists_text hsource
      obtain ⟨r, rfl⟩ := Name.exists_text htarget
      simp [Cell.IsText, Cell.value, Name.text, Name.value]
    exact htexts c (List.mem_of_getElem? hc)

end Simulator

end DfaWorkbench
