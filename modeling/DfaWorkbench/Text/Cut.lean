/-!
Cutting a text at a separator, once or at every occurrence.
-/

namespace DfaWorkbench.Text

def cutAt (sep : List Char) : List Char → Option (List Char × List Char)
  | [] => if sep.isEmpty then some ([], []) else none
  | c :: cs =>
    if sep.isPrefixOf (c :: cs) then some ([], (c :: cs).drop sep.length)
    else (cutAt sep cs).map fun (before, after) => (c :: before, after)

def occursIn (part text : List Char) : Bool :=
  (cutAt part text).isSome

def piecesAfter (sep : List Char) : Nat → List Char → List (List Char)
  | _, [] => [[]]
  | skip + 1, _ :: cs => piecesAfter sep skip cs
  | 0, c :: cs =>
    if sep.isPrefixOf (c :: cs) then [] :: piecesAfter sep (sep.length - 1) cs
    else match piecesAfter sep 0 cs with
      | [] => [[c]]
      | p :: ps => (c :: p) :: ps

def pieces (sep text : List Char) : List (List Char) :=
  piecesAfter sep 0 text

end DfaWorkbench.Text
