import DfaWorkbench.Grammar.Basic

/-!
Derivations of a right-linear grammar: the words that a non-terminal stands for.
-/

namespace DfaWorkbench.Grammar

/-- The words that can be derived from a non-terminal. A production of one terminal ends the word,
and one of a terminal and a non-terminal goes on from there. -/
inductive Derives (g : Grammar) : Key → List Char → Prop
  | empty {head : Key} : Production.empty ∈ g.productionsFor head → Derives g head []
  | last {head : Key} {a : Char} :
      ⟨[Name.ofChar a]⟩ ∈ g.productionsFor head → Derives g head [a]
  | more {head : Key} {next : Name} {a : Char} {word : List Char} :
      ⟨[Name.ofChar a, next]⟩ ∈ g.productionsFor head → Derives g next.key word →
      Derives g head (a :: word)

def Generates (g : Grammar) (word : List Char) : Prop :=
  g.Derives g.start.key word

end DfaWorkbench.Grammar
