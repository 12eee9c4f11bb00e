import DfaWorkbench.Grammar.Parser

/-!
Grammars from entered values: a start symbol and rules, which have to be texts.
-/

namespace DfaWorkbench

inductive RulesError
  | notText
  | parse (e : ParseError)

namespace RulesError

def message : RulesError → String
  | notText => "rules need texts"
  | parse e => e.message

end RulesError

namespace Json

/-- A start symbol as text. Anything empty stands for the empty text. -/
def startText (v : Json) : Except RulesError String :=
  match v with
  | str s => .ok s
  | v => if v.isEmpty then .ok "" else .error .notText

def rulesText : Json → Except RulesError String
  | str s => .ok s
  | _ => .error .notText

end Json

def Grammar.ofEntered (settings : Settings) (start rules : Json) : Except RulesError Grammar := do
  (parse settings (← start.startText) (← rules.rulesText)).mapError .parse

end DfaWorkbench
