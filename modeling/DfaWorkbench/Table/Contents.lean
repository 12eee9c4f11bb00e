import DfaWorkbench.Grammar.Printer
import DfaWorkbench.Simulation.Simulator
import DfaWorkbench.Table.Basic

/-!
Tables of an automaton, its diagnostics, a simulation and a grammar.
-/

namespace DfaWorkbench

namespace State

def marks (q : State) : String :=
  (if q.isStart then " (Start)" else "") ++ (if q.isAccept then " (Final)" else "")

/-- The label after it has stood in `times` tables. A list takes the marks up as further items, each
time anew. -/
def grownLabel (q : State) (times : Nat) : Name :=
  match q.label with
  | .of (.arr xs) =>
    let items := q.marks.toList.map fun c => Json.str (String.singleton c)
    .of (.arr (xs ++ (List.replicate times items).flatten))
  | label => label

def markedLabel (q : State) (times : Nat) : Except NameError Cell :=
  match q.label with
  | .of (.str s) => .ok (.text (s ++ q.marks))
  | .of (.arr _) => .ok (.name (q.grownLabel times))
  | label => if q.marks = "" then .ok (.name label) else .error .notText

end State

namespace Automaton

def targetsCell (A : Automaton) (moves : MoveIndex) (q : State) (a : Name) :
    Except NameError Cell :=
  match Sequence.members moves (q.key, a.key) with
  | [] => .ok (.text "-")
  | ts => Cell.list (ts.map fun t => A.labelOf t.target)

def tableRow (A : Automaton) (moves : MoveIndex) (times : Nat) (q : State) :
    Except NameError (List Cell) := do
  return (← q.markedLabel times) :: (← A.alphabet.mapM (A.targetsCell moves q))

/-- Where each symbol of the alphabet leads from each state, as it looks once the table has been
drawn `times` times. The sources are looked up if there is anything to look for. -/
def transitionTable (A : Automaton) (times : Nat) : Except TableError Table := do
  if !A.states.isEmpty && !A.alphabet.isEmpty then
    (Name.requireAtoms (A.transitions.map Transition.source)).mapError .unfitName
  let rows ← (A.states.mapM (A.tableRow A.bySourceAndSymbol times)).mapError .unfitName
  Table.make ("State" :: A.alphabet) rows

/-- The automaton after its table has been drawn `times` times. Labels grow up to the first row that
cannot be drawn. -/
def grown (A : Automaton) (times : Nat) : Automaton :=
  let moves := A.bySourceAndSymbol
  let (drawn, rest) := A.states.span fun q => (A.tableRow moves 1 q).isOk
  let keys := (drawn ++ rest.take 1).map State.key
  A.relabel fun q => if q.key ∈ keys then q.grownLabel times else q.label

end Automaton

namespace Diagnostic

def tableRow (d : Diagnostic) : Except NameError (List Cell) := do
  return [.text d.severity.heading, .text d.kind.name, .text d.message, .text d.details,
    .text d.suggestion, ← Cell.list d.affected]

def table (ds : List Diagnostic) : Except TableError Table := do
  let rows ← (ds.mapM tableRow).mapError .unfitName
  Table.make ["Severity", "Kind", "Message", "Details", "Suggestion", "Affected"] rows

end Diagnostic

namespace Simulator

def table (s : Simulator) : Except TableError Table :=
  Table.make ["Step", "From", "Input", "To"] <| s.history.zipIdx.map fun ((source, a, target), i) =>
    [.number (i + 1), .name source, .text (String.singleton a), .name target]

end Simulator

namespace Grammar

def tableRow (g : Grammar) (head : Name) : Except NameError (List Cell) := do
  let rules ← (g.productionsFor head.key).mapM (Production.rendered ({} : Settings).shownEmpty)
  return [.name head, .text (" | ".intercalate rules)]

def table (g : Grammar) : Except TableError Table := do
  (Name.requireAtoms g.nonTerminals).mapError .unfitName
  let heads := g.nonTerminals.filter fun head => !(g.productionsFor head.key).isEmpty
  let rows ← (heads.mapM g.tableRow).mapError .unfitName
  Table.make ["Non-terminal", "Productions"] rows

end Grammar

end DfaWorkbench
