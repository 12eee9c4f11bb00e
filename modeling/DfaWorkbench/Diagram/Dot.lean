import DfaWorkbench.Diagram.Basic
import DfaWorkbench.Text.Cut

/-!
Diagrams in the DOT language. An identifier is quoted unless it is a plain name, a number or an
HTML-like text.
-/

namespace DfaWorkbench.Diagram

def keywords : List String :=
  ["node", "edge", "graph", "digraph", "subgraph", "strict"]

def isNameStart (c : Char) : Bool :=
  c.isAlpha || c == '_'

def chomp (cs : List Char) : List Char :=
  if cs.getLast? = some '\n' then cs.dropLast else cs

def isPlainName : List Char → Bool
  | c :: cs => isNameStart c && cs.all fun c => isNameStart c || c.isDigit
  | [] => false

def isNumeral (cs : List Char) : Bool :=
  let cs := match cs with
    | '-' :: rest => rest
    | cs => cs
  match cs.span Char.isDigit with
  | ([], '.' :: rest) => !rest.isEmpty && rest.all Char.isDigit
  | ([], _) => false
  | (_, []) => true
  | (_, '.' :: rest) => rest.all Char.isDigit
  | _ => false

def isHtml : List Char → Bool
  | '<' :: cs => (chomp cs).getLast? = some '>'
  | _ => false

def needsNoQuotes (s : String) : Bool :=
  let cs := chomp s.toList
  (isPlainName cs || isNumeral cs) && s.toLower ∉ keywords

/-- Escapes each quote. Of the `run` backslashes right before it the pairs are kept, and an odd one
is taken as the escape of the quote. -/
def escapeQuotes (run : Nat) : List Char → List Char
  | [] => List.replicate run '\\'
  | '\\' :: cs => escapeQuotes (run + 1) cs
  | '"' :: cs => List.replicate (run / 2 * 2) '\\' ++ '\\' :: '"' :: escapeQuotes 0 cs
  | c :: cs => List.replicate run '\\' ++ c :: escapeQuotes 0 cs

def identifier (s : String) : String :=
  if isHtml s.toList || needsNoQuotes s then s
  else "\"" ++ String.ofList (escapeQuotes 0 s.toList) ++ "\""

/-- The end of an edge as it is read back: a node and what follows its first colon, which is a place
on the node to anchor the edge at and, after a second colon, a point of the compass. -/
structure EdgeEnd where
  node : String
  anchor : Option String
  compass : String
  deriving DecidableEq

def splitColon (cs : List Char) : List Char × List Char :=
  (Text.cutAt [':'] cs).getD (cs, [])

def EdgeEnd.ofId (id : String) : EdgeEnd :=
  let (node, rest) := splitColon id.toList
  let (anchor, compass) := splitColon rest
  ⟨String.ofList node, if rest.isEmpty then none else some (String.ofList anchor),
    String.ofList compass⟩

def EdgeEnd.text (e : EdgeEnd) : String :=
  identifier e.node ++
    (match e.anchor with
      | some anchor => ":" ++ identifier anchor
      | none => "") ++
    (if e.compass = "" then "" else ":" ++ e.compass)

def Fill.name : Fill → String
  | .grey => "lightgrey"
  | .gold => "gold"

def Shape.name : Shape → String
  | .circle => "circle"
  | .doubleCircle => "doublecircle"
  | .invisible => "none"

def attr (name value : String) : String :=
  name ++ "=" ++ identifier value

def attributeList : List String → String
  | [] => ""
  | attributes => " [" ++ " ".intercalate attributes ++ "]"

def Node.attributes (n : Node) : List String :=
  attr "label" n.label :: (if n.red then [attr "color" "red"] else []) ++
    (match n.fill with
      | some fill => [attr "fillcolor" (Fill.name fill)]
      | none => []) ++
    [attr "shape" (Shape.name n.shape)] ++
    (if n.fill.isSome then [attr "style" "filled"] else [])

def Edge.attributes (e : Edge) : List String :=
  (match e.label with
    | some label => [attr "label" label]
    | none => []) ++
    (if e.red then [attr "color" "red", attr "fontcolor" "red"] else [])

def Statement.text : Statement → String
  | .node n => "\t" ++ identifier n.id ++ attributeList n.attributes ++ "\n"
  | .edge e =>
    "\t" ++ (EdgeEnd.ofId e.tail).text ++ " -> " ++ (EdgeEnd.ofId e.head).text ++
      attributeList e.attributes ++ "\n"

def source (d : Diagram) : String :=
  (if d.title.isEmpty then "" else "// " ++ d.title.shown ++ "\n") ++
    "digraph \x7b\n\trankdir=LR\n" ++ String.join (d.statements.map Statement.text) ++ "\x7d\n"

/-- The source, for an automaton whose ids and labels are texts. The ends of its transitions are
looked up, the target if there is the source, and so are the transitions of a bundle up to the first
highlighted one. -/
def written (d : Diagram) : Except NameError String := do
  let A := d.automaton
  Name.requireTexts (A.states.map State.id ++ A.states.map State.label)
  Name.requireAtoms (A.transitions.map Transition.source)
  Name.requireAtoms ((A.transitions.filter (A.hasState ·.source.key)).map Transition.target)
  Name.requireAtoms ((bundles A).flatMap fun (_, ts) =>
    (ts.takeWhile (·.id.key ∉ d.marks.highlight)).map Transition.id)
  return d.source

end DfaWorkbench.Diagram
