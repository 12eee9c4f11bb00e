import DfaWorkbench.Conversion.Layout
import DfaWorkbench.Defect
import DfaWorkbench.Grammar.Printer

namespace DfaWorkbench

inductive ConversionError
  | unsupported (head : Name) (production : Production)
  | defect (d : Defect)
  | layout (e : LayoutError)
  | noStates
  | startStates (count : Nat)

namespace ConversionError

def message : ConversionError → String
  | unsupported head production =>
    "Unsupported rule format for DFA conversion: " ++ head.shown ++ " → " ++ production.text ++
      ". Only A → a, A → aB or A → ε are supported for right-linear grammars."
  | defect d => d.message
  | layout e => e.message
  | noStates => "No states could be generated. Check your production rules and start symbol."
  | startStates count =>
    "Expected exactly one start state to derive a grammar, found " ++ count.repr

abbrev unfitName (e : NameError) : ConversionError :=
  defect (.unfitName e)

end ConversionError

end DfaWorkbench
