import DfaWorkbench.Proofs.Grammar.Contents
import DfaWorkbench.Proofs.Grammar.Derivation

/-! A character on a right-hand side is a terminal unless it is a capital letter, and each head is a
non-terminal. A head that is another character than these letters is both wherever it is used. -/

namespace DfaWorkbench.Grammar

variable {rules : List Rule} {start text : String} {g : Grammar} {name next : Name} {a : Char}
  {p : Production} {e : Name × List Production}

lemma isTerminal_assembled_iff : (assembled start rules).isTerminal name.key = true ↔
    name ∈ (assembled start rules).terminals := by
  rw [isTerminal, decide_eq_true_iff]
  refine Name.key_mem_map_iff fun m hm => ?_
  obtain ⟨c, _, rfl⟩ := List.mem_map.1 hm
  rfl

lemma isNonTerminal_assembled_iff : (assembled start rules).isNonTerminal name.key = true ↔
    name ∈ (assembled start rules).nonTerminals := by
  rw [isNonTerminal, decide_eq_true_iff]
  refine Name.key_mem_map_iff fun m hm => ?_
  obtain ⟨s, _, rfl⟩ := List.mem_map.1 hm
  rfl

lemma mem_rightSymbols (he : e ∈ g.productions) (hp : p ∈ e.2) (hname : name ∈ p.symbols) :
    name ∈ g.rightSymbols :=
  List.mem_flatMap.2 ⟨e, he, List.mem_flatMap.2 ⟨p, hp, hname⟩⟩

lemma mem_both_assembled : name ∈ (assembled start rules).terminals ∧
      name ∈ (assembled start rules).nonTerminals ↔
    name ∈ (assembled start rules).rightSymbols ∧ name ∈ (assembled start rules).heads ∧
      ¬ name.IsCapital := by
  rw [mem_terminals_assembled, mem_nonTerminals_assembled]
  tauto

lemma arc?_assembled_eq_go_iff (he : e ∈ (assembled start rules).productions) (hp : p ∈ e.2) :
    (assembled start rules).arc? p = some (.go a next) ↔ p = ⟨[Name.ofChar a, next]⟩ ∧
      ¬ (Name.ofChar a).IsCapital ∧ (next.IsCapital ∨ next ∈ (assembled start rules).heads) := by
  constructor
  · intro harc
    have hterminal := isTerminal_assembled_iff.1 (isTerminal_of_arc? harc)
    have hnext := isNonTerminal_assembled_iff.1 (isNonTerminal_of_arc? harc)
    refine ⟨(production_of_arc? harc).symm, (mem_terminals_assembled.1 hterminal).2, ?_⟩
    rcases mem_nonTerminals_assembled.1 hnext with hhead | ⟨_, hcap⟩
    · exact .inr hhead
    · exact .inl hcap
  · rintro ⟨rfl, ha, hnext⟩
    have hfirst := mem_rightSymbols he hp List.mem_cons_self
    have hsecond := mem_rightSymbols he hp (List.mem_cons_of_mem _ List.mem_cons_self)
    refine arc?_go (isTerminal_assembled_iff.2 (mem_terminals_assembled.2 ⟨hfirst, ha⟩))
      (isNonTerminal_assembled_iff.2 (mem_nonTerminals_assembled.2 ?_))
    rcases hnext with hcap | hhead
    · exact .inr ⟨hsecond, hcap⟩
    · exact .inl hhead

/-- Of a grammar that is read off a text, exactly the heads that are used on the right and are no
capital letters are both terminals and non-terminals, and a production goes on with these as it does
with capital letters. If there is none of them, no symbol is both, and no production goes on with a
terminal. -/
theorem parse_overlap (h : parse {} start text = .ok g) :
    (∀ name, name ∈ g.terminals ∧ name ∈ g.nonTerminals ↔
      name ∈ g.rightSymbols ∧ name ∈ g.heads ∧ ¬ name.IsCapital) ∧
    (∀ e ∈ g.productions, ∀ p ∈ e.2, ∀ a next, g.arc? p = some (.go a next) ↔
      p = ⟨[Name.ofChar a, next]⟩ ∧ ¬ (Name.ofChar a).IsCapital ∧
        (next.IsCapital ∨ next ∈ g.heads)) ∧
    ((∀ name ∈ g.rightSymbols, name ∈ g.heads → name.IsCapital) →
      g.terminals.Disjoint g.nonTerminals ∧
      ∀ p a next, g.arc? p = some (.go a next) → g.isTerminal next.key = false) := by
  obtain ⟨rules, _, _, rfl⟩ := parse_eq_ok_iff.1 h
  refine ⟨fun name => mem_both_assembled, fun e he p hp a next => arc?_assembled_eq_go_iff he hp,
    fun hcapital => ?_⟩
  have hdisjoint : (assembled (String.ofList (Text.trim start.toList)) rules).terminals.Disjoint
      (assembled (String.ofList (Text.trim start.toList)) rules).nonTerminals := by
    intro name hterminal hnonTerminal
    obtain ⟨hright, hhead, hcap⟩ := mem_both_assembled.1 ⟨hterminal, hnonTerminal⟩
    exact hcap (hcapital name hright hhead)
  refine ⟨hdisjoint, fun p a next harc => Bool.eq_false_iff.2 fun hterminal => ?_⟩
  exact hdisjoint (isTerminal_assembled_iff.1 hterminal)
    (isNonTerminal_assembled_iff.1 (isNonTerminal_of_arc? harc))

theorem parse_overlap_capitals : ∃ g, parse {} "S" "S -> aB | b\nB -> aS" = .ok g ∧
    g.terminals.Disjoint g.nonTerminals ∧ g.arc? ⟨["a", "B"]⟩ = some (.go 'a' "B") := by
  have hrules : parseRules {} "S -> aB | b\nB -> aS".toList =
      .ok [⟨"S", [['a', 'B'], ['b']]⟩, ⟨"B", [['a', 'S']]⟩] := by decide +kernel
  have hg := parse_of_start "S" hrules (by decide +kernel) (by decide +kernel)
  obtain ⟨_, harcs, hcapitals⟩ := parse_overlap hg
  refine ⟨_, hg, (hcapitals fun name _ hhead => ?_).1, ?_⟩
  · obtain ⟨r, hr, rfl⟩ := mem_heads_assembled.1 hhead
    rcases List.mem_pair.1 hr with rfl | rfl
    · exact ⟨'S', by decide, by decide, rfl⟩
    · exact ⟨'B', by decide, by decide, rfl⟩
  · refine (harcs _ List.mem_cons_self _ List.mem_cons_self 'a' "B").2 ⟨rfl, ?_, .inl ?_⟩
    · rw [Name.isCapital_ofChar]
      decide
    · exact ⟨'B', by decide, by decide, rfl⟩

def letterRules : List Rule :=
  [⟨"S", [['a', 'b']]⟩, ⟨"b", [['c']]⟩]

theorem parse_letterRules : ∃ g, parse {} "S" "S -> ab\nb -> c" = .ok g ∧
    Name.text "b" ∈ g.terminals ∧ Name.text "b" ∈ g.nonTerminals ∧
      g.arc? ⟨["a", "b"]⟩ = some (.go 'a' "b") := by
  have hrules : parseRules {} "S -> ab\nb -> c".toList = .ok letterRules := by decide +kernel
  have hletter (c : Char) (hc : isNonTerminalSymbol c = false) : ¬ (Name.ofChar c).IsCapital := by
    rw [Name.isCapital_ofChar, hc]
    simp
  have hhead : Name.text "b" ∈ (assembled "S" letterRules).heads :=
    mem_heads_assembled.2 ⟨⟨"b", [['c']]⟩, by simp [letterRules], rfl⟩
  have hright : Name.text "b" ∈ (assembled "S" letterRules).rightSymbols :=
    mem_rightSymbols_assembled.2 ⟨'b', ⟨⟨"S", [['a', 'b']]⟩, by simp [letterRules], by decide⟩, rfl⟩
  obtain ⟨hterminal, hnonTerminal⟩ := mem_both_assembled.2 ⟨hright, hhead, hletter 'b' rfl⟩
  have harc := (arc?_assembled_eq_go_iff List.mem_cons_self List.mem_cons_self).2
    ⟨rfl, hletter 'a' rfl, .inr hhead⟩
  have hparse := parse_of_start "S" hrules (by decide +kernel) (by decide +kernel)
  exact ⟨assembled "S" letterRules, hparse, hterminal, hnonTerminal, harc⟩

end DfaWorkbench.Grammar
