import DfaWorkbench.Proofs.Grammar.Reading

/-! Two texts, one below the other, are read as the rules of the first one and then those of the
second one, whatever break the first one ends in. -/

namespace DfaWorkbench.Grammar

variable {settings : Settings} {rules rules' : List Rule} {g g' : Grammar} {start start' : String}

lemma map_snd_ruleLines_append (cs ds : List Char) :
    (ruleLines (cs ++ '\n' :: ds)).map Prod.snd =
      (ruleLines cs).map Prod.snd ++ (ruleLines ds).map Prod.snd := by
  rw [map_snd_ruleLines, map_snd_ruleLines, map_snd_ruleLines]
  rcases Text.lines_append_cases cs ds with h | h
  · rw [h, List.map_append, List.filter_append]
  · rw [h, List.map_append, List.filter_append]
    rfl

lemma parseRules_append {cs ds : List Char} (h : parseRules settings cs = .ok rules)
    (h' : parseRules settings ds = .ok rules') :
    parseRules settings (cs ++ '\n' :: ds) = .ok (rules ++ rules') := by
  rw [parseRules_eq_ok_iff] at h h' ⊢
  rw [map_snd_ruleLines_append]
  exact List.rel_append h h'

lemma map_eraseDups_append {α : Type} [BEq α] [LawfulBEq α] {f : α → Name}
    (hf : Function.Injective fun a => (f a).key) (xs ys : List α) :
    (xs ++ ys).eraseDups.map f = xs.eraseDups.map f ++
      (ys.eraseDups.map f).filter fun n => !decide (n.key ∈ (xs.eraseDups.map f).map Name.key) := by
  rw [Sequence.eraseDups_append_eq, List.map_append, List.filter_map, List.map_map]
  refine congrArg _ (congrArg _ (List.filter_congr fun a _ => ?_))
  rw [Function.comp_apply, decide_not]
  exact congrArg not (decide_eq_decide.2 (List.mem_map_of_injective hf).symm)

lemma nonTerminals_assembled_append (start start' : String) :
    (assembled start (rules ++ rules')).nonTerminals =
      (assembled start rules).nonTerminals ++
        (assembled start' rules').nonTerminals.filter
          (!(assembled start rules).isNonTerminal ·.key) := by
  have hinj : Function.Injective fun s => (Name.text s).key := fun _ _ h => Key.text.inj h
  rw [assembled, nonTerminalsOf, List.flatMap_append]
  exact map_eraseDups_append hinj _ _

lemma terminals_assembled_append (start start' : String) :
    (assembled start (rules ++ rules')).terminals =
      (assembled start rules).terminals ++
        (assembled start' rules').terminals.filter
          (!(assembled start rules).isTerminal ·.key) := by
  have hinj : Function.Injective fun c => (Name.ofChar c).key :=
    fun _ _ h => String.singleton_inj.1 (Key.text.inj h)
  rw [assembled, terminalsOf, List.flatMap_append]
  exact map_eraseDups_append hinj _ _

lemma productionsFor_assembled (start : String) (rules : List Rule) (head : Key) :
    (assembled start rules).productionsFor head =
      ((rules.filter (Key.text ·.head = head)).flatMap Rule.alternatives).map
        Production.ofChars := by
  have hproductions : (assembled start rules).productions =
      (rules.map Rule.head).eraseDups.map fun s =>
        (Name.text s, ((rules.filter (s == ·.head)).flatMap Rule.alternatives).map
          Production.ofChars) := by
    rw [assembled, alternativesOf, Sequence.groupedBy_eq, List.map_map, List.map_map]
    rfl
  rw [productionsFor, hproductions, List.find?_map, Option.map_map]
  cases hfind : (rules.map Rule.head).eraseDups.find? _ with
  | none =>
    have hnone : rules.filter (Key.text ·.head = head) = [] := by
      refine List.filter_eq_nil_iff.2 fun r hr => ?_
      exact List.find?_eq_none.1 hfind r.head (List.mem_eraseDups.2 (List.mem_map_of_mem hr))
    rw [hnone]
    rfl
  | some s =>
    have hhead := List.find?_some hfind
    obtain rfl : Key.text s = head := of_decide_eq_true hhead
    have hfilter : rules.filter (Key.text ·.head = .text s) = rules.filter (s == ·.head) :=
      List.filter_congr fun r _ => by
        rw [beq_eq_decide]
        exact decide_eq_decide.2 ⟨fun h => (Key.text.inj h).symm, fun h => congrArg Key.text h.symm⟩
    rw [hfilter]
    rfl

lemma productionsFor_assembled_append (start start' : String) (head : Key) :
    (assembled start (rules ++ rules')).productionsFor head =
      (assembled start rules).productionsFor head ++
        (assembled start' rules').productionsFor head := by
  simp only [productionsFor_assembled, List.filter_append, List.flatMap_append, List.map_append]

/-- Texts one below the other, each of which is read as a grammar, are read as the grammar with the
start symbol of the first text. New symbols of the second text come after those of the first one,
and so do the productions of each head. -/
theorem parse_append {text text' : String} (h : parse settings start text = .ok g)
    (h' : parse settings start' text' = .ok g') :
    ∃ both, parse settings start (text ++ "\n" ++ text') = .ok both ∧
      both.start = g.start ∧
      both.nonTerminals =
        g.nonTerminals ++ g'.nonTerminals.filter (!g.isNonTerminal ·.key) ∧
      both.terminals = g.terminals ++ g'.terminals.filter (!g.isTerminal ·.key) ∧
      ∀ head, both.productionsFor head = g.productionsFor head ++ g'.productionsFor head := by
  obtain ⟨rules, hrules, hstart, rfl⟩ := parse_eq_ok_iff.1 h
  obtain ⟨rules', hrules', -, rfl⟩ := parse_eq_ok_iff.1 h'
  have htext : (text ++ "\n" ++ text').toList = text.toList ++ '\n' :: text'.toList := by
    simp
  have hboth : parseRules settings (text ++ "\n" ++ text').toList = .ok (rules ++ rules') :=
    htext ▸ parseRules_append hrules hrules'
  refine ⟨_, parse_eq_ok_iff.2 ⟨_, hboth, ?_, rfl⟩, rfl, ?_, ?_, ?_⟩
  · rw [nonTerminalsOf, List.flatMap_append, List.mem_eraseDups]
    exact List.mem_append_left _ (List.mem_eraseDups.1 hstart)
  · exact nonTerminals_assembled_append _ _
  · exact terminals_assembled_append _ _
  · exact productionsFor_assembled_append _ _

theorem parse_append_sample : ∃ g g' both, parse {} "S" "S -> aS | b\r" = .ok g ∧
    parse {} "A" "A -> bc\nS -> ^" = .ok g' ∧
    parse {} "S" ("S -> aS | b\r" ++ "\n" ++ "A -> bc\nS -> ^") = .ok both ∧
    both.nonTerminals = ["S", "A"] ∧ both.terminals = ["a", "b", "c"] ∧
    both.productionsFor (.text "S") = [⟨["a", "S"]⟩, ⟨["b"]⟩, .empty] := by
  have hrules : parseRules {} "S -> aS | b\r".toList = .ok [⟨"S", [['a', 'S'], ['b']]⟩] := by
    decide +kernel
  have hrules' : parseRules {} "A -> bc\nS -> ^".toList =
      .ok [⟨"A", [['b', 'c']]⟩, ⟨"S", [[]]⟩] := by
    decide +kernel
  have hstart : String.ofList (Text.trim "S".toList) = "S" := by decide +kernel
  have hstart' : String.ofList (Text.trim "A".toList) = "A" := by decide +kernel
  have hg := parse_eq_ok_iff.2 ⟨_, hrules, by rw [hstart]; decide +kernel, rfl⟩
  have hg' := parse_eq_ok_iff.2 ⟨_, hrules', by rw [hstart']; decide +kernel, rfl⟩
  obtain ⟨both, hboth, _, hnonTerminals, hterminals, hproductions⟩ := parse_append hg hg'
  exact ⟨_, _, both, hg, hg', hboth, hnonTerminals, hterminals, hproductions _⟩

end DfaWorkbench.Grammar
