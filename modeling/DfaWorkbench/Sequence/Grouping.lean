/-!
Grouping a list by a key. The groups stand in the order in which their keys first occur, and a
group keeps the order of its members.
-/

namespace DfaWorkbench.Sequence

variable {α κ : Type} [BEq κ]

def addToGroup (key : κ) (x : α) : List (κ × List α) → List (κ × List α)
  | [] => [(key, [x])]
  | (k, xs) :: gs => if k == key then (k, xs ++ [x]) :: gs else (k, xs) :: addToGroup key x gs

def groupedBy (key : α → κ) (xs : List α) : List (κ × List α) :=
  xs.foldl (fun gs x => addToGroup (key x) x gs) []

def members (gs : List (κ × List α)) (key : κ) : List α :=
  (gs.lookup key).getD []

end DfaWorkbench.Sequence
