import DfaWorkbench.Defect

/-!
Transitions of an automaton. A transition names its two states by their ids, whether or not there
are such states.
-/

namespace DfaWorkbench

def emptyWordSigns : List Char :=
  ['ε', '^']

structure Transition where
  id : Name
  source : Name
  target : Name
  symbol : Char
  id_ne : id.isEmpty = false
  symbol_ne : symbol ∉ emptyWordSigns

namespace Transition

def symbolText (t : Transition) : String :=
  String.singleton t.symbol

def symbolKey (t : Transition) : Key :=
  .text t.symbolText

def agrees (t u : Transition) : Bool :=
  t.id.key = u.id.key && t.source.key = u.source.key && t.target.key = u.target.key &&
    t.symbol = u.symbol

def ofChar (id source target : Name) (symbol : Char) : Except Defect Transition :=
  if hi : id.isEmpty then .error .emptyTransitionId
  else if hs : symbol ∈ emptyWordSigns then .error (.emptyWordSymbol id)
  else .ok ⟨id, source, target, symbol, Name.isEmpty_eq_false hi, hs⟩

def make (id source target : Name) (symbol : Json) : Except Defect Transition :=
  if id.isEmpty then .error .emptyTransitionId
  else
    match symbol with
    | .str s =>
      match s.toList with
      | [c] => ofChar id source target c
      | _ => .error (.notOneSymbol id symbol)
    | _ => .error (.notOneSymbol id symbol)

end Transition

end DfaWorkbench
