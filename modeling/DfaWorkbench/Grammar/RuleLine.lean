import DfaWorkbench.Text.Blank
import DfaWorkbench.Text.Lines

/-!
What a line with a rule looks like, whichever way it is read: a head, an arrow, and alternatives.
The first line of a text that is neither blank nor a rule is the one to blame. One rule can be spelt
in many ways.
-/

namespace DfaWorkbench.RuleLine

def HasArrow (line : List Char) : Prop :=
  '→' ∈ line ∨ ['-', '>'] <:+: line

/-- The two sides of a line at its first arrow of one sign or, if it has none of these, at its
first arrow of two signs. -/
inductive SidesAt : List Char → List Char → List Char → Prop
  | sign {left right : List Char} : '→' ∉ left → SidesAt (left ++ '→' :: right) left right
  | ascii {left right : List Char} : '→' ∉ left → '→' ∉ right → ¬ ['-', '>'] <:+: left →
      SidesAt (left ++ '-' :: '>' :: right) left right

def IsHead (left : List Char) : Prop :=
  Text.trim left ≠ [] ∧ ∀ c ∈ Text.trim left, Text.isBlank c = false

def IsEmptyWord (cs : List Char) : Prop :=
  cs = ['ε'] ∨ cs = ['^']

/-- Without its blanks, an alternative is a sign for the empty word or has none of these signs in
it. -/
def IsAlternative (piece : List Char) : Prop :=
  let cs := Text.withoutBlanks piece
  cs ≠ [] ∧ (IsEmptyWord cs ∨ 'ε' ∉ cs ∧ '^' ∉ cs)

def IsGood (line : List Char) : Prop :=
  ∃ left right, SidesAt line left right ∧ IsHead left ∧
    ∀ piece ∈ right.splitOn '|', IsAlternative piece

/-- A non-terminal comes up on a line as its head, or as a capital letter in an alternative that is
not the empty word. -/
def Mentions (line name : List Char) : Prop :=
  ∃ left right, SidesAt line left right ∧
    (Text.trim left = name ∨
      ∃ piece ∈ right.splitOn '|', ¬ IsEmptyWord (Text.withoutBlanks piece) ∧
        ∃ c ∈ piece, 'A' ≤ c ∧ c ≤ 'Z' ∧ name = [c])

def Passes (raw : List Char) : Prop :=
  Text.trim raw = [] ∨ IsGood (Text.trim raw)

/-- The line of index `i` among the lines of a text is the first one that does not pass. It is
`line` without the blanks around it. -/
structure FirstBad (raws : List (List Char)) (i : Nat) (line : List Char) : Prop where
  line_eq : raws[i]?.map Text.trim = some line
  line_ne : line ≠ []
  bad : ¬ IsGood line
  before : ∀ raw ∈ raws.take i, Passes raw

/-- The arrow in front of a body has one sign or, if the body has none of these in it, two signs. -/
inductive Leads : List Char → List Char → Prop
  | sign {body : List Char} : Leads ['→'] body
  | ascii {body : List Char} : '→' ∉ body → Leads ['-', '>'] body

/-- A line that spells out a rule: the head, which is one word without an arrow, then an arrow, then
the body, with any blanks around each of them. -/
structure Spells (line head body : List Char) : Prop where
  head_ne : head ≠ []
  head_word : ∀ c ∈ head, Text.isBlank c = false
  head_bare : ¬ HasArrow head
  parts : ∃ before between after behind arrow, Leads arrow body ∧
    (∀ c ∈ before ++ between ++ after ++ behind, Text.isBlank c = true) ∧
    line = before ++ head ++ between ++ arrow ++ after ++ body ++ behind

/-- Two lines spell out rules of one head, whose bodies differ in their blanks at most. -/
def SameRule (line line' : List Char) : Prop :=
  ∃ head body body', Spells line head body ∧ Spells line' head body' ∧
    Text.withoutBlanks body = Text.withoutBlanks body'

def linesOf (text : List Char) : List (List Char) :=
  (Text.lines text).filter (Text.trim · ≠ [])

end DfaWorkbench.RuleLine
