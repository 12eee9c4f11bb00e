/-!
Fresh names: of a numbered series of names, the first one that is not taken.
-/

namespace DfaWorkbench.Sequence

variable {κ : Type} [DecidableEq κ]

/-- The first number from `start` on whose name is free. If the names of the series differ, it is
one of the next `taken.length + 1` numbers. -/
def firstFree (name : Nat → κ) (taken : List κ) (start : Nat) : Nat :=
  ((List.range' start (taken.length + 1)).find? fun n => name n ∉ taken).getD start

end DfaWorkbench.Sequence
