import DfaWorkbench.Conversion.ToAutomaton
import DfaWorkbench.Entry.Grammar
import DfaWorkbench.Gallery
import DfaWorkbench.Record
import DfaWorkbench.Table.Contents

/-!
Sessions of the front end. A session keeps a record, a simulator and what was entered, which can be
any values.
-/

namespace DfaWorkbench

inductive Widget
  | example
  | startSymbol
  | rules
  | word
  deriving DecidableEq

inductive Button
  | generate
  | start
  | step
  | finish
  | reset
  deriving DecidableEq

def Widget.label : Widget → String
  | .example => "Select a grammar example:"
  | .startSymbol => "Start symbol:"
  | .rules => "Production rules:"
  | .word => "Input string:"

def Button.label : Button → String
  | .generate => "Generate DFA"
  | .start => "Start"
  | .step => "Step"
  | .finish => "Run to end"
  | .reset => "Reset"

structure Action where
  fresh : FreshId
  entered : List (Widget × Json) := []
  pressed : Option Button := none

structure Session where
  record : Record
  simulator : Simulator
  selected : GrammarExample
  /-- What was entered into a widget while it had a certain default. -/
  remembered : List ((Widget × String) × Json)
  /-- How often the transition table of the record has been drawn. -/
  tables : Nat

namespace Session

def ofRecord (r : Record) : Session :=
  ⟨r, .idle, .first, [], 0⟩

def sampleRecord (fresh : FreshId) : Record where
  id := fresh.text
  name := "Example DFA"
  description := .str "Three-state DFA over \x7ba, b\x7d."
  automaton := .sample
  curvatures := []
  name_ne := by decide
  keys_nodup := List.nodup_nil

def initial (fresh : FreshId) : Session :=
  ofRecord (sampleRecord fresh)

def replaceRecord (s : Session) (r : Record) : Session :=
  { s with record := r, simulator := .idle, tables := 0 }

/-- The record with its labels as the tables drawn so far have left them. -/
def shownRecord (s : Session) : Record :=
  { s.record with automaton := s.record.automaton.grown s.tables }

def snapshot (s : Session) : Except Json.WriteError String :=
  s.shownRecord.toText (.ofWidth (some 2))

def enter (s : Session) (w : Widget) (default : String) (value : Option Json) : Session :=
  match value with
  | some v => { s with remembered := ((w, default), v) :: s.remembered }
  | none => s

def value (s : Session) (w : Widget) (default : String) : Json :=
  (s.remembered.lookup (w, default)).getD (.str default)

def select (s : Session) (title : Option Json) : Session :=
  match title with
  | some (.str title) =>
    match GrammarExample.all.find? (·.title == title) with
    | some e => { s with selected := e }
    | none => s
  | _ => s

/-- Takes up the values entered for a grammar. The selected example decides the defaults of the same
draw. -/
def takeUp (s : Session) (a : Action) : Session :=
  let s := s.select (a.entered.lookup .example)
  let s := s.enter .startSymbol s.selected.start (a.entered.lookup .startSymbol)
  s.enter .rules s.selected.rules (a.entered.lookup .rules)

def defaultWord : String :=
  "ab"

def takeUpWord (s : Session) (a : Action) : Session :=
  s.enter .word defaultWord (a.entered.lookup .word)

def startSymbol (s : Session) : Json := s.value .startSymbol s.selected.start

def rules (s : Session) : Json := s.value .rules s.selected.rules

def word (s : Session) : Json := s.value .word defaultWord

inductive GenerateError
  | rules (e : RulesError)
  | conversion (e : ConversionError)

def GenerateError.message : GenerateError → String
  | .rules e => e.message
  | .conversion e => e.message

def generated (fresh : FreshId) (start rules : Json) : Except GenerateError Record := do
  let g ← (Grammar.ofEntered {} start rules).mapError .rules
  let A ← (g.toAutomaton {}).mapError .conversion
  return Record.ofGrammar fresh g A

def generation (s : Session) (a : Action) : Option (Except GenerateError Record) :=
  if a.pressed = some .generate then some (generated a.fresh s.startSymbol s.rules) else none

def replaces (s : Session) (a : Action) : Bool :=
  match s.snapshot, (s.takeUp a).generation a with
  | .ok _, some (.ok _) => true
  | _, _ => false

/-- The session once the grammar has been taken up and the record generated. Failing leaves the
record as it was, and without a snapshot of it the grammar is not reached. -/
def settle (s : Session) (a : Action) : Session :=
  match s.snapshot with
  | .error _ => s
  | .ok _ =>
    let t := s.takeUp a
    match t.generation a with
    | some (.ok r) => t.replaceRecord r
    | _ => t

end Session

end DfaWorkbench
