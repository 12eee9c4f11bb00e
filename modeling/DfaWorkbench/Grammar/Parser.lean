import DfaWorkbench.Grammar.Basic
import DfaWorkbench.Settings
import DfaWorkbench.Sequence.Grouping
import DfaWorkbench.Text.Blank
import DfaWorkbench.Text.Lines

/-!
Reading a grammar from rules, one head a line with alternatives after an arrow. A line is read on
its own; the rules of all lines then make up the grammar.
-/

namespace DfaWorkbench

inductive RuleFault
  | noArrow (arrows : List String)
  | emptySide
  | severalHeads (head : String)
  | emptyAlternative
  | markerInside (alternative : String)
  | noSpelling
  deriving DecidableEq

inductive FaultKind
  | missingArrow
  | malformed
  | unfitSettings
  deriving DecidableEq

def RuleFault.kind : RuleFault → FaultKind
  | noArrow _ => .missingArrow
  | emptySide | severalHeads _ | emptyAlternative | markerInside _ => .malformed
  | noSpelling => .unfitSettings

inductive ParseError
  | badLine (number : Nat) (line : String) (fault : RuleFault)
  | unknownStart (start : String)
  deriving DecidableEq

namespace ParseError

def faultMessage (line : String) : RuleFault → String
  | .noArrow arrows =>
    "Invalid production rule format: \"" ++ line ++ "\". Use '" ++ "' or '".intercalate arrows ++
      "'"
  | .emptySide => "Invalid production rule: " ++ line
  | .severalHeads head => "Left-hand side must be a single non-terminal: " ++ head
  | .emptyAlternative => "Empty alternative in production rule: " ++ line
  | .markerInside alternative => "Empty-string marker must stand alone: " ++ alternative
  | .noSpelling => NameError.notText.message

def message : ParseError → String
  | badLine number line fault => "Line " ++ number.repr ++ ": " ++ faultMessage line fault
  | unknownStart start =>
    "Start symbol \"" ++ start ++ "\" is not defined as a non-terminal in your rules."

end ParseError

/-- A head and the symbols of one of its alternatives after another. An alternative without symbols
stands for the empty word. -/
structure Rule where
  head : String
  alternatives : List (List Char)
  deriving DecidableEq

namespace Rule

def need {α : Type} : Option α → Except RuleFault α
  | some a => .ok a
  | none => .error .noSpelling

def splitAt? (line : List Char) : List Name → Except RuleFault (Option (List Char × List Char))
  | [] => .ok none
  | arrow :: arrows => do
    match Text.cutAt (← need arrow.text?).toList line with
    | some sides => return some sides
    | none => splitAt? line arrows

def holdsMarker (cs : List Char) : List Name → Except RuleFault Bool
  | [] => .ok false
  | marker :: markers => do
    if Text.occursIn (← need marker.text?).toList cs then return true
    else holdsMarker cs markers

/-- An alternative is a marker for the empty word, or holds none; its blanks do not count. -/
def parseAlternative (settings : Settings) (piece : List Char) : Except RuleFault (List Char) :=
  let cs := Text.withoutBlanks piece
  if cs.isEmpty then .error .emptyAlternative
  else do
    if ← need (settings.emptyMarkers.recognises? cs) then return []
    else if ← holdsMarker cs (← need settings.emptyMarkers.words?) then
      throw (.markerInside (String.ofList cs))
    else return cs

def parseSides (left right : List Char) : Except RuleFault (List Char × List Char) :=
  let head := Text.trim left
  let body := Text.trim right
  if head.isEmpty || body.isEmpty then .error .emptySide
  else if !Text.isOneWord head then .error (.severalHeads (String.ofList head))
  else .ok (head, body)

def parse (settings : Settings) (line : List Char) : Except RuleFault Rule := do
  let arrows ← need settings.arrows.words?
  match ← splitAt? line arrows with
  | none => throw (.noArrow (arrows.map Name.shown))
  | some (left, right) =>
    let (head, body) ← parseSides left right
    let alternation ← need settings.alternation.text?
    let alternatives ← (Text.pieces alternation.toList body).mapM (parseAlternative settings)
    return ⟨String.ofList head, alternatives⟩

def symbols (r : Rule) : List Char :=
  r.alternatives.flatten

end Rule

def isNonTerminalSymbol (c : Char) : Bool :=
  'A' ≤ c && c ≤ 'Z'

namespace Grammar

def ruleLines (text : List Char) : List (Nat × List Char) :=
  ((Text.lines text).zipIdx.map fun (line, i) => (i + 1, Text.trim line)).filter
    fun (_, line) => !line.isEmpty

def parseLine (settings : Settings) (number : Nat) (line : List Char) : Except ParseError Rule :=
  match Rule.parse settings line with
  | .ok r => .ok r
  | .error fault => .error (.badLine number (String.ofList line) fault)

def parseRules (settings : Settings) (text : List Char) : Except ParseError (List Rule) :=
  (ruleLines text).mapM fun (number, line) => parseLine settings number line

def nonTerminalsOf (rules : List Rule) : List String :=
  (rules.flatMap fun r =>
    r.head :: (r.symbols.filter isNonTerminalSymbol).map String.singleton).eraseDups

def terminalsOf (rules : List Rule) : List Char :=
  (rules.flatMap fun r => r.symbols.filter (!isNonTerminalSymbol ·)).eraseDups

def alternativesOf (rules : List Rule) : List (String × List (List Char)) :=
  (Sequence.groupedBy Rule.head rules).map fun (head, rs) => (head, rs.flatMap Rule.alternatives)

def ofRules (start : String) (rules : List Rule) : Except ParseError Grammar :=
  let productions := (alternativesOf rules).map fun (head, alternatives) =>
    (Name.text head, alternatives.map Production.ofChars)
  match make start ((nonTerminalsOf rules).map Name.text) ((terminalsOf rules).map Name.ofChar)
      productions with
  | .ok g => .ok g
  | .error _ => .error (.unknownStart start)

/-- Reads a grammar. The start symbol is looked at after all lines. -/
def parse (settings : Settings) (start text : String) : Except ParseError Grammar := do
  let rules ← parseRules settings text.toList
  ofRules (String.ofList (Text.trim start.toList)) rules

end Grammar

end DfaWorkbench
