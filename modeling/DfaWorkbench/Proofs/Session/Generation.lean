import Mathlib.Tactic.Common
import DfaWorkbench.Proofs.Conversion.Refusal
import DfaWorkbench.Proofs.Grammar.Blame
import DfaWorkbench.Proofs.Session.Step

/-! Generating a record from a start symbol and rules. It is generated as a whole, or there is a
fault in the rules. -/

namespace DfaWorkbench.Session

variable {s : Session} {a : Action} {r : Record} {e : GenerateError} {fresh : FreshId}
  {start rules : String}

/-- Faults of rules with a start symbol: one that reading them reports, which is a line without an
arrow, one that is malformed or an unknown start symbol, or a production that is no arc. -/
inductive GenerateError.IsFaultOf (start rules : String) : GenerateError → Prop
  | badLine {number : ℕ} {line : String} {fault : RuleFault} :
      Grammar.parse {} start rules = .error (.badLine number line fault) →
      fault.kind = .missingArrow ∨ fault.kind = .malformed →
      IsFaultOf start rules (.rules (.parse (.badLine number line fault)))
  | unknownStart {symbol : String} :
      Grammar.parse {} start rules = .error (.unknownStart symbol) →
      IsFaultOf start rules (.rules (.parse (.unknownStart symbol)))
  | unsupported {g : Grammar} {head : Name} {p : Production} :
      Grammar.parse {} start rules = .ok g → (head, p) ∈ g.steps → g.arc? p = none →
      IsFaultOf start rules (.conversion (.unsupported head p))

lemma isFaultOf_of_parse {e : ParseError} (h : Grammar.parse {} start rules = .error e) :
    GenerateError.IsFaultOf start rules (.rules (.parse e)) := by
  cases e with
  | unknownStart => exact .unknownStart h
  | badLine number line fault =>
    obtain ⟨_, _, _, hfault⟩ := Grammar.parse_eq_badLine_iff.1 h
    rcases Rule.kind_of_parse hfault with ⟨hkind, _⟩ | ⟨hkind, _⟩
    · exact .badLine h (.inl hkind)
    · exact .badLine h (.inr hkind)

lemma generated_cases (fresh : FreshId) (start rules : String) :
    (∃ r, generated fresh (.str start) (.str rules) = .ok r ∧ r.automaton.Worded ∧
      (∀ q ∈ r.automaton.states, ∃ x y, q.position = [.num (.float x), .num (.float y)]) ∧
      (∃ g A, g.toAutomaton {} = .ok A ∧ r = .ofGrammar fresh g A) ∧
      ∃ q, r.automaton.startStates = [q] ∧
        q.id = .text (String.ofList (Text.trim start.toList))) ∨
    ∃ e, generated fresh (.str start) (.str rules) = .error e ∧ e.IsFaultOf start rules := by
  have hentered : Grammar.ofEntered {} (.str start) (.str rules) =
      (Grammar.parse {} start rules).mapError .parse := rfl
  rw [generated, hentered]
  cases hparse : Grammar.parse {} start rules with
  | error e => exact .inr ⟨_, rfl, isFaultOf_of_parse hparse⟩
  | ok g =>
    rcases Grammar.toAutomaton_of_parse hparse with
      ⟨M, hM, hworded, hplaces, hstart⟩ | ⟨_, _, hstep, hnone, he⟩
    · refine .inl ⟨.ofGrammar fresh g M, ?_, hworded, hplaces, ⟨g, M, hM, rfl⟩, hstart⟩
      simp only [Except.mapError, bind, Except.bind, hM]
      rfl
    · refine .inr ⟨.conversion _, ?_, .unsupported hparse hstep hnone⟩
      simp only [Except.mapError, bind, Except.bind, he]

lemma mem_events_tail {parts : List Section} {es : List Event} {event : Event}
    (h : event ∈ Section.events parts) : event ∈ Section.events (.ok es :: parts) :=
  List.mem_append_right _ h

lemma mem_page_of_generation {text : String} {x : Except GenerateError Record}
    {events : List Event} {event : Event} {tables : ℕ} (hsnapshot : s.snapshot = .ok text)
    (hx : (s.takeUp a).generation a = some x) (hshown : generationSection (some x) = .ok events)
    (h : event ∈ events) : event ∈ s.page a tables := by
  simp only [page, openingSections, snapshotSection, hsnapshot, hx, hshown, List.cons_append]
  exact mem_events_tail (mem_events_tail (List.mem_append_left _ h))

lemma generationSection_of_fault (h : e.IsFaultOf start rules) :
    generationSection (some (.error e)) =
      .ok [.error ("Error processing grammar: " ++ e.message)] := by
  cases h <;> rfl

def emptyWordAutomaton : Automaton where
  states := [⟨GrammarExample.first.start, GrammarExample.first.start, .startAccept,
    [.num (.float 200), .num (.float 200)], by decide, by decide⟩]
  transitions := []
  alphabet := []
  keys_nodup := by decide
  ids_atoms := by decide
  alphabet_nodup := List.nodup_nil
  alphabet_atoms := Name.isAtom_of_mem_nil

def emptyWordRecord (fresh : FreshId) : Record :=
  .ofGrammar fresh (Grammar.assembled "S" [⟨"S", [[]]⟩]) emptyWordAutomaton

def firstId : FreshId :=
  ⟨"s1", by decide⟩

def secondId : FreshId :=
  ⟨"s2", by decide⟩

def generateEmptyWord : Action where
  fresh := secondId
  entered := [(.rules, .str "S -> ε")]
  pressed := some .generate

lemma generated_emptyWord (fresh : FreshId) :
    generated fresh (.str "S") (.str "S -> ε") = .ok (emptyWordRecord fresh) := by
  have hparse : Grammar.parse {} "S" "S -> ε" = .ok (Grammar.assembled "S" [⟨"S", [[]]⟩]) := by
    have hrules : Grammar.parseRules {} "S -> ε".toList = .ok [⟨"S", [[]]⟩] := by decide +kernel
    have hstart : String.ofList (Text.trim "S".toList) = "S" := by decide +kernel
    rw [Grammar.parse_of_rules hrules, hstart, if_pos (by decide +kernel)]
  have hautomaton : (Grammar.assembled "S" [⟨"S", [[]]⟩]).toAutomaton {} =
      .ok emptyWordAutomaton := by
    have hsorted : Name.sorted [] = .ok [] := by simp [Name.sorted]
    have hterminals : (Grammar.assembled "S" [⟨"S", [[]]⟩]).terminals = [] := rfl
    rw [Grammar.toAutomaton, Grammar.fullAutomaton, hterminals, hsorted]
    rfl
  have hentered : Grammar.ofEntered {} (.str "S") (.str "S -> ε") =
      (Grammar.parse {} "S" "S -> ε").mapError .parse := rfl
  rw [generated, hentered, hparse]
  simp only [Except.mapError, bind, Except.bind, hautomaton]
  rfl

end DfaWorkbench.Session
