import DfaWorkbench.Name

/-!
Grammars: symbols, a start symbol, and productions for heads. Nothing here asks for a right-linear
shape, nor for symbols that are texts.
-/

namespace DfaWorkbench

structure Production where
  symbols : List Name

namespace Production

def empty : Production :=
  ⟨[]⟩

def ofChars (cs : List Char) : Production :=
  ⟨cs.map Name.ofChar⟩

def isEmpty (p : Production) : Bool :=
  p.symbols.isEmpty

def terminal? (p : Production) : Option Name :=
  p.symbols.head?

def nonTerminal? (p : Production) : Option Name :=
  match p.symbols with
  | [_, b] => some b
  | _ => none

end Production

structure Grammar where
  start : Name
  nonTerminals : List Name
  terminals : List Name
  productions : List (Name × List Production)

namespace Grammar

def isNonTerminal (g : Grammar) (symbol : Key) : Bool :=
  symbol ∈ g.nonTerminals.map Name.key

def isTerminal (g : Grammar) (symbol : Key) : Bool :=
  symbol ∈ g.terminals.map Name.key

def make (start : Name) (nonTerminals terminals : List Name)
    (productions : List (Name × List Production)) : Except Name Grammar :=
  let g : Grammar := ⟨start, nonTerminals, terminals, productions⟩
  if g.isNonTerminal start.key then .ok g else .error start

def foreignStartMessage (start : Name) : String :=
  "start symbol " ++ start.value.display ++ " is not a non-terminal"

def productionsFor (g : Grammar) (head : Key) : List Production :=
  ((g.productions.find? (·.1.key = head)).map Prod.snd).getD []

def hasEmpty (g : Grammar) (head : Key) : Bool :=
  (g.productionsFor head).any Production.isEmpty

end Grammar

end DfaWorkbench
