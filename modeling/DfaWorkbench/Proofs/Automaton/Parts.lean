import Mathlib.Tactic.Common
import DfaWorkbench.Automaton.Edit
import DfaWorkbench.Proofs.Sequence.Distinct
import DfaWorkbench.Proofs.Sequence.Fresh

namespace DfaWorkbench

variable {id label source target : Name} {type : StateType} {position : List Json} {q : State}
  {a : Char} {t : Transition} {A : Automaton} {qs : List State} {ts : List Transition}
  {alphabet : List Name}

def State.outline (q : State) : Name × Name × Bool × Bool :=
  (q.id, q.label, q.isStart, q.isAccept)

def Transition.move (t : Transition) : Name × Char × Name :=
  (t.source, t.symbol, t.target)

lemma State.outline_of_make (h : State.make id id type position = .ok q) :
    q.outline = (id, id, type.isStart, type.isAccept) := by
  rw [State.make] at h
  split at h
  · cases h
  · obtain rfl := Except.ok.inj h
    rfl

lemma State.exists_make (h : id.isEmpty = false) :
    ∃ q, State.make id label type position = .ok q := by
  rw [State.make, dif_neg (by simp [h])]
  split
  · exact ⟨_, rfl⟩
  · exact ⟨_, rfl⟩

lemma State.make_parts (q : State) : make q.id q.label q.type q.position = .ok q := by
  rw [make, dif_neg (by simp [q.id_ne]), dif_neg (by simp [q.label_ne])]

lemma StateType.resolve_name (type : StateType) : resolve (.str type.name) = .ok type := by
  cases type <;> rfl

lemma State.eq_of_parts {p q : State} (hid : p.id = q.id) (hlabel : p.label = q.label)
    (htype : p.type = q.type) (hposition : p.position = q.position) : p = q := by
  cases p
  cases q
  simp_all

lemma State.of_make_eq_ok (h : State.make id label type position = .ok q) :
    q.id = id ∧ q.label = (if label.isEmpty then id else label) ∧ q.type = type ∧
      q.position = position := by
  rw [make] at h
  split at h
  · cases h
  · split at h
    · next hl =>
      obtain rfl := Except.ok.inj h
      exact ⟨rfl, (if_pos hl).symm, rfl, rfl⟩
    · next hl =>
      obtain rfl := Except.ok.inj h
      exact ⟨rfl, (if_neg hl).symm, rfl, rfl⟩

lemma State.make_eq_ok_iff : State.make id label type position = .ok q ↔
    q.id = id ∧ q.label = (if label.isEmpty then id else label) ∧ q.type = type ∧
      q.position = position := by
  refine ⟨of_make_eq_ok, fun ⟨hid, hlabel, htype, hposition⟩ => ?_⟩
  obtain ⟨p, hp⟩ : ∃ p, make id label type position = .ok p := exists_make (hid ▸ q.id_ne)
  obtain ⟨hid', hlabel', htype', hposition'⟩ := of_make_eq_ok hp
  rw [hp, eq_of_parts (hid'.trans hid.symm) (hlabel'.trans hlabel.symm)
    (htype'.trans htype.symm) (hposition'.trans hposition.symm)]

lemma StateType.isStart_ofFlags (a b : Bool) : (StateType.ofFlags a b).isStart = a := by
  cases a <;> cases b <;> rfl

lemma StateType.isAccept_ofFlags (a b : Bool) : (StateType.ofFlags a b).isAccept = b := by
  cases a <;> cases b <;> rfl

lemma Automaton.of_make_eq_ok (h : Automaton.make qs ts alphabet = .ok A) :
    A.states = qs ∧ A.transitions = ts ∧ A.alphabet = Sequence.distinct Name.key alphabet := by
  rw [Automaton.make] at h
  split at h
  · split at h
    · cases h
    · obtain rfl := Except.ok.inj h
      exact ⟨rfl, rfl, rfl⟩
  · cases h

lemma Automaton.exists_make (hkeys : (qs.map State.key).Nodup)
    (hids : ∀ q ∈ qs, q.id.isAtom = true) (halphabet : ∀ n ∈ alphabet, n.isAtom = true) :
    ∃ A, Automaton.make qs ts alphabet = .ok A := by
  have hdefect : idDefect? [] qs = none := idDefect?_eq_none.2 ⟨hkeys, by simp, hids⟩
  rw [Automaton.make, dif_pos (List.all_eq_true.2 halphabet)]
  split
  · next d hd =>
    rw [hdefect] at hd
    cases hd
  · exact ⟨_, rfl⟩

lemma Automaton.eq_of_parts {A B : Automaton} (hstates : A.states = B.states)
    (htransitions : A.transitions = B.transitions) (halphabet : A.alphabet = B.alphabet) :
    A = B := by
  cases A
  cases B
  simp_all

lemma Automaton.make_parts (A : Automaton) : make A.states A.transitions A.alphabet = .ok A := by
  have hdefect : idDefect? [] A.states = none :=
    idDefect?_eq_none.2 ⟨A.keys_nodup, by simp, A.ids_atoms⟩
  have hdistinct : Sequence.distinct Name.key A.alphabet = A.alphabet :=
    Sequence.distinct_of_nodup A.alphabet_nodup
  rw [make, dif_pos (List.all_eq_true.2 A.alphabet_atoms)]
  split
  · next d hd =>
    rw [hdefect] at hd
    cases hd
  · simp only [hdistinct]

lemma Transition.of_ofChar_eq_ok (h : Transition.ofChar id source target a = .ok t) :
    t.id = id ∧ t.move = (source, a, target) := by
  rw [Transition.ofChar] at h
  split at h
  · cases h
  · split at h
    · cases h
    · obtain rfl := Except.ok.inj h
      exact ⟨rfl, rfl⟩

lemma Transition.exists_ofChar (hid : id.isEmpty = false) (ha : a ∉ emptyWordSigns) :
    ∃ t, Transition.ofChar id source target a = .ok t := by
  rw [Transition.ofChar, dif_neg (by simp [hid]), dif_neg ha]
  exact ⟨_, rfl⟩

lemma Automaton.transitionKey_injective : Function.Injective transitionKey :=
  fun _ _ h => Sequence.numbered_injective "t" (Key.text.inj h)

lemma Automaton.transitionName_ne (n : ℕ) : (Name.text (transitionName n)).isEmpty = false := by
  apply Name.isEmpty_text
  simp [transitionName]

lemma Transition.make_parts (t : Transition) :
    make t.id t.source t.target (.str t.symbolText) = .ok t := by
  have hsymbol : t.symbolText.toList = [t.symbol] := by
    rw [symbolText, String.toList_singleton]
  simp [make, ofChar, t.id_ne, hsymbol, t.symbol_ne]

end DfaWorkbench
