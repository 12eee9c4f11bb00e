import Mathlib.Tactic.Common
import DfaWorkbench.Conversion.ToAutomaton
import DfaWorkbench.Grammar.Derivation
import DfaWorkbench.Proofs.Name

/-! Derivations one symbol at a time, and the productions that they use as arcs. -/

namespace DfaWorkbench

variable {g : Grammar} {k : Key} {a : Char} {word : List Char} {p : Production} {arc : Arc}

namespace Production

lemma isEmpty_iff : p.isEmpty = true ↔ p = empty := by
  obtain ⟨symbols⟩ := p
  simp [isEmpty, empty]

end Production

namespace Arc

def symbol : Arc → Char
  | stop a => a
  | go a _ => a

def production : Arc → Production
  | stop a => ⟨[Name.ofChar a]⟩
  | go a next => ⟨[Name.ofChar a, next]⟩

lemma isEmpty_production (arc : Arc) : arc.production.isEmpty = false := by
  cases arc <;> rfl

lemma production_injective : Function.Injective production := by
  intro x y h
  cases x <;> cases y <;> simp_all [production, Name.ofChar_inj]

def Continues (g : Grammar) : Arc → List Char → Prop
  | stop _, word => word = []
  | go _ next, word => g.Derives next.key word

end Arc

namespace Grammar

lemma hasEmpty_iff : g.hasEmpty k = true ↔ Production.empty ∈ g.productionsFor k := by
  rw [hasEmpty, List.any_eq_true]
  constructor
  · rintro ⟨p, hp, he⟩
    rwa [← Production.isEmpty_iff.1 he]
  · intro h
    exact ⟨_, h, rfl⟩

lemma derives_nil : g.Derives k [] ↔ g.hasEmpty k = true := by
  rw [hasEmpty_iff]
  constructor
  · intro h
    cases h with
    | empty h => exact h
  · exact .empty

lemma derives_cons : g.Derives k (a :: word) ↔
    ∃ arc : Arc, arc.production ∈ g.productionsFor k ∧ arc.symbol = a ∧ arc.Continues g word := by
  constructor
  · intro h
    cases h with
    | last h => exact ⟨.stop a, h, rfl, rfl⟩
    | more h hnext => exact ⟨.go a _, h, rfl, hnext⟩
  · rintro ⟨arc, h, rfl, hnext⟩
    cases arc with
    | stop a =>
      obtain rfl : word = [] := hnext
      exact .last h
    | go a next => exact .more h hnext

lemma eq_ofChar_of_terminalChar? {n : Name} (h : g.terminalChar? n = some a) :
    n = Name.ofChar a := by
  rw [terminalChar?] at h
  split at h
  · next c hc =>
    split at h
    · obtain rfl := Option.some.inj h
      obtain ⟨s, hs, hc⟩ := Option.map_eq_some_iff.1 hc
      obtain rfl : s = String.singleton c := String.toList_injective (by simp [hc])
      exact Name.eq_text_of_text? hs
    · cases h
  · cases h

lemma isTerminal_of_terminalChar? {n : Name} (h : g.terminalChar? n = some a) :
    g.isTerminal n.key = true := by
  rw [terminalChar?] at h
  split at h
  · split at h
    · assumption
    · cases h
  · cases h

lemma terminalChar?_ofChar (h : g.isTerminal (Name.ofChar a).key = true) :
    g.terminalChar? (Name.ofChar a) = some a := by
  have hchars : (Name.ofChar a).text?.map String.toList = some [a] := by simp [Name.ofChar]
  rw [terminalChar?, hchars]
  exact if_pos h

lemma arc?_stop (ha : g.isTerminal (Name.ofChar a).key = true) :
    g.arc? ⟨[Name.ofChar a]⟩ = some (.stop a) := by
  simp only [arc?, terminalChar?_ofChar ha, Option.map_some]

lemma arc?_go {next : Name} (ha : g.isTerminal (Name.ofChar a).key = true)
    (hnext : g.isNonTerminal next.key = true) :
    g.arc? ⟨[Name.ofChar a, next]⟩ = some (.go a next) := by
  simp only [arc?, hnext, terminalChar?_ofChar ha, if_true, Option.map_some]

lemma of_arc?_eq_some (h : g.arc? p = some arc) : arc.production = p ∧
    g.isTerminal (Name.ofChar arc.symbol).key = true ∧
    ∀ a next, arc = .go a next → g.isNonTerminal next.key = true := by
  rw [arc?] at h
  split at h
  · next n hp =>
    obtain ⟨c, hc, rfl⟩ := Option.map_eq_some_iff.1 h
    obtain rfl := eq_ofChar_of_terminalChar? hc
    exact ⟨by rw [Arc.production, ← hp], isTerminal_of_terminalChar? hc, by simp⟩
  · next n b hp =>
    split at h
    · next hb =>
      obtain ⟨c, hc, rfl⟩ := Option.map_eq_some_iff.1 h
      obtain rfl := eq_ofChar_of_terminalChar? hc
      refine ⟨by rw [Arc.production, ← hp], isTerminal_of_terminalChar? hc, fun a next he => ?_⟩
      obtain ⟨rfl, rfl⟩ := Arc.go.inj he
      exact hb
    · cases h
  · cases h

lemma production_of_arc? (h : g.arc? p = some arc) : arc.production = p :=
  (of_arc?_eq_some h).1

lemma isTerminal_of_arc? (h : g.arc? p = some arc) :
    g.isTerminal (Name.ofChar arc.symbol).key = true :=
  (of_arc?_eq_some h).2.1

lemma isNonTerminal_of_arc? {next : Name} (h : g.arc? p = some (.go a next)) :
    g.isNonTerminal next.key = true :=
  (of_arc?_eq_some h).2.2 a next rfl

lemma isNonTerminal_iff : g.isNonTerminal k = true ↔ ∃ head ∈ g.nonTerminals, head.key = k := by
  simp [isNonTerminal]

lemma mem_steps {head : Name} : (head, p) ∈ g.steps ↔
    head ∈ g.nonTerminals ∧ p ∈ g.productionsFor head.key ∧ p.isEmpty = false := by
  simp [steps]

lemma needsSink_of_stop {head : Name} (h : (head, p) ∈ g.steps) (hp : g.arc? p = some (.stop a)) :
    g.needsSink = true := by
  rw [needsSink, List.any_eq_true]
  exact ⟨(head, p), h, by simp [hp]⟩

end Grammar

end DfaWorkbench
