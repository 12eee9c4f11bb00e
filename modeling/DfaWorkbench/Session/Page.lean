import DfaWorkbench.Conversion.ToGrammar
import DfaWorkbench.Session.Event

/-!
Pages of a session. Every action draws the whole page anew.
-/

namespace DfaWorkbench.Session

def grammarEvents (s : Session) : List Event :=
  [.subheader "Production Rules → DFA", .selection ("Example: " ++ s.selected.title)]

/-- Entered values that are no texts cannot be shown to be wrong: the page ends there. -/
def generationSection : Option (Except GenerateError Record) → Section
  | none => .ok []
  | some (.ok r) =>
    .ok [.success ("Successfully converted grammar to a DFA with " ++
      r.automaton.states.length.repr ++ " states")]
  | some (.error (.rules .notText)) => .error .notText
  | some (.error e) => .ok [.error ("Error processing grammar: " ++ e.message)]

def automatonSections (r : Record) (tables : Nat) : List Section :=
  [.ok (.subheader r.name ::
      (if r.description.isEmpty then [] else [.caption r.description.plainText]) ++
        [.heading "### Transition Table"]),
    .ofTable (r.automaton.transitionTable tables),
    .ok [.heading "### Visualization",
      .caption "Double circles are accepting states. Red marks elements involved in errors."]]

def consoleSections (ds : List Diagnostic) : List Section :=
  .ok [.heading "### DFA Console",
    .heading ("**" ++ (Diagnostic.errors ds).length.repr ++ " errors, " ++
      (Diagnostic.warnings ds).length.repr ++ " warnings**")] ::
  if ds.isEmpty then [.ok [.success "No issues detected."]]
  else [.ofTable (Diagnostic.table ds), .ok [.code (Diagnostic.report ds)]]

def finishFrom (sim : Simulator) (A : Automaton) (word : Json) :
    Except SimulationError Simulator :=
  if sim.isRunning then sim.run else do (← Simulator.start A word).run

def operate (sim : Simulator) (A : Automaton) (word : Json) (pressed : Option Button) :
    Except SimulationError Simulator :=
  match pressed with
  | some .start => Simulator.start A word
  | some .step => if sim.isRunning then sim.step else .ok sim
  | some .finish => finishFrom sim A word
  | some .reset => .ok .idle
  | _ => .ok sim

/-- A step button is drawn after the start button has been handled and before the others are. -/
def stepEvents (before : Simulator) (after : Except SimulationError Simulator)
    (pressed : Option Button) : List Event :=
  match pressed, after with
  | some .start, .error _ => []
  | some .start, .ok sim => if sim.isRunning then [] else [.disabled .step]
  | _, _ => if before.isRunning then [] else [.disabled .step]

def verdictEvents (sim : Simulator) : List Event :=
  match sim.summary with
  | .ok text => [if sim.status = .accepted then .success text else .error text]
  | .error _ => []

def pathEvents (sim : Simulator) : List Event :=
  .heading ("**Path:** " ++ " → ".intercalate (sim.path.map Name.shown)) ::
    match sim.nextSymbol with
    | some a => [.caption ("Next symbol: '" ++ String.singleton a ++ "'")]
    | none => []

def runSections (sim : Simulator) : List Section :=
  (if sim.path.isEmpty then [] else
    [.ofName (Name.requireTexts sim.path) fun _ => pathEvents sim, .ofTable sim.table]) ++
  [.ok (verdictEvents sim)]

/-- Handles the simulation buttons, which an automaton with errors does not have. The word is taken
up as they are drawn. -/
def simulate (s : Session) (a : Action) : Session × List Section :=
  let s := s.takeUpWord a
  let A := s.record.automaton
  let title := Event.heading "### Test a String"
  if !A.isReady then
    (s, [.ok [title, .warning "Fix the errors in the console before simulating."]])
  else
    let result := operate s.simulator A s.word a.pressed
    let buttons := title :: stepEvents s.simulator result a.pressed
    match result with
    | .error e => (s, [.ok (buttons ++ [.error e.message])])
    | .ok sim => ({ s with simulator := sim }, .ok buttons :: runSections sim)

def diagram (s : Session) : Diagram where
  automaton := s.record.automaton
  title := s.record.name
  marks := {
    highlight := (s.record.automaton.errors.flatMap Diagnostic.affected).map Name.key
    current := s.simulator.current?.map State.key }

def diagramSection (d : Diagram) : Section :=
  .ofName d.written fun _ => [.diagram d]

def derivedSections (A : Automaton) : List Section :=
  .ok [.heading "### Generated Regular Grammar"] ::
  match A.derived with
  | .error (.defect (.unfitName e)) => [.error (.unfitName e)]
  | .error e => [.ok [.info ("No grammar can be generated: " ++ e.message)]]
  | .ok g =>
    [.ofTable g.table, .ofName (g.formatted {}) fun text => [.code text],
      .ofName g.described fun text => [.text text]]

def snapshotSection : Except Json.WriteError String → Section
  | .ok text => .ok [.download text]
  | .error e => .error (.unwritable e)

/-- What a page shows above the transition table. The snapshot to download is that of the record
from before the page is drawn. -/
def openingSections (s : Session) (a : Action) : List Section :=
  let t := s.takeUp a
  [snapshotSection s.snapshot, .ok t.grammarEvents, generationSection (t.generation a),
    .ofName (s.settle a).record.automaton.validated fun _ => []]

def reportSections (s : Session) (tables : Nat) : List Section :=
  automatonSections s.record tables ++ consoleSections s.shownRecord.automaton.validate

def closingSections (s : Session) : List Section :=
  diagramSection s.diagram :: derivedSections s.record.automaton

/-- The session after a draw of the page. If the upper part cannot be drawn, the buttons of the
simulation are not reached. -/
def next (s : Session) (a : Action) : Session :=
  let t := s.settle a
  if Section.allDrawn (s.openingSections a) then
    let u := { t with tables := t.tables + 1 }
    if Section.allDrawn (t.reportSections u.tables) then (u.simulate a).1 else u
  else t

def page (s : Session) (a : Action) (tables : Nat) : List Event :=
  let t := s.settle a
  let upper := s.openingSections a ++ t.reportSections tables
  let (u, simulation) := t.simulate a
  Section.events (upper ++ simulation ++ u.closingSections)

def pagesFrom (s : Session) : List Action → List (List Event) × Nat
  | [] => ([], s.tables)
  | a :: as =>
    let (pages, tables) := (s.next a).pagesFrom as
    (s.page a tables :: pages, if s.replaces a then s.tables else tables)

/-- The pages of a list of actions. They are looked at in the end, so each shows the labels in its
table as they are by then. -/
def pages (s : Session) (as : List Action) : List (List Event) :=
  (s.pagesFrom as).1

def after (s : Session) (as : List Action) : Session :=
  as.foldl next s

end DfaWorkbench.Session
