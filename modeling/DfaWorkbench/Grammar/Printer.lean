import DfaWorkbench.Grammar.Basic
import DfaWorkbench.Settings

/-!
Grammars as text: the rules one head a line, and a description of the parts. Only texts can be put
side by side, and only heads that can be looked up have productions to show.
-/

namespace DfaWorkbench

def Production.render (shownEmpty : Name) (p : Production) : String :=
  if p.isEmpty then shownEmpty.shown else String.join (p.symbols.map Name.shown)

def Production.text (p : Production) : String :=
  p.render ({} : Settings).shownEmpty

def Production.shownNames (shownEmpty : Name) (p : Production) : List Name :=
  if p.isEmpty then [shownEmpty] else p.symbols

def Production.rendered (shownEmpty : Name) (p : Production) : Except NameError String := do
  Name.requireTexts (p.shownNames shownEmpty)
  return p.render shownEmpty

namespace Grammar

def ruleLine (settings : Settings) (head : Name) (ps : List Production) : String :=
  head.shown ++ " " ++ settings.shownArrow.shown ++ " " ++
    " | ".intercalate (ps.map (Production.render settings.shownEmpty))

def headsStartFirst (g : Grammar) : List Name :=
  g.start :: g.nonTerminals.filter (·.key ≠ g.start.key)

def format (g : Grammar) (settings : Settings) : String :=
  "\n".intercalate <| g.headsStartFirst.filterMap fun head =>
    match g.productionsFor head.key with
    | [] => none
    | ps => some (ruleLine settings head ps)

def formatted (g : Grammar) (settings : Settings) : Except NameError String := do
  Name.requireAtoms g.headsStartFirst
  Name.requireTexts <| (g.headsStartFirst.flatMap fun head => g.productionsFor head.key).flatMap
    (Production.shownNames settings.shownEmpty)
  return g.format settings

def description (g : Grammar) : String :=
  "This Regular Grammar is derived from your DFA:\n• Start Symbol: " ++ g.start.shown ++
    "\n• Non-terminals (V): \x7b" ++ ", ".intercalate (g.nonTerminals.map Name.shown) ++
    "\x7d\n• Terminals (Σ): \x7b" ++ ", ".intercalate (g.terminals.map Name.shown) ++
    "\x7d\n• Productions (P) are listed per non-terminal."

def described (g : Grammar) : Except NameError String := do
  Name.requireTexts (g.nonTerminals ++ g.terminals)
  return g.description

end Grammar

end DfaWorkbench
