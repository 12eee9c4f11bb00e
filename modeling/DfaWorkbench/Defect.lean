import DfaWorkbench.Name

namespace DfaWorkbench

inductive Defect
  | emptyStateId
  | unknownType (value : Json)
  | emptyTransitionId
  | notOneSymbol (transition : Name) (value : Json)
  | emptyWordSymbol (transition : Name)
  | repeatedState (id : Name)
  | unfitName (e : NameError)

namespace Defect

def message : Defect → String
  | emptyStateId => "state id must not be empty"
  | unknownType value => value.display ++ " is not a valid StateType"
  | emptyTransitionId => "transition id must not be empty"
  | notOneSymbol transition value =>
    "transition " ++ transition.shown ++ " must carry exactly one input symbol, got " ++
      value.display
  | emptyWordSymbol transition =>
    "transition " ++ transition.shown ++ " cannot be labelled with the empty string"
  | repeatedState id => "duplicate state id: " ++ id.shown
  | unfitName e => e.message

end Defect

end DfaWorkbench
