import DfaWorkbench.Automaton.Basic
import DfaWorkbench.Automaton.Edit
import DfaWorkbench.Automaton.Lookup
import DfaWorkbench.Conversion.Error
import DfaWorkbench.Conversion.Layout
import DfaWorkbench.Conversion.ToAutomaton
import DfaWorkbench.Conversion.ToGrammar
import DfaWorkbench.Decimal.Form
import DfaWorkbench.Decimal.Shortest
import DfaWorkbench.Defect
import DfaWorkbench.Diagnostic
import DfaWorkbench.Diagram.Basic
import DfaWorkbench.Diagram.Dot
import DfaWorkbench.Entry.Automaton
import DfaWorkbench.Entry.Basic
import DfaWorkbench.Entry.Grammar
import DfaWorkbench.Entry.Parts
import DfaWorkbench.Entry.Settings
import DfaWorkbench.Gallery
import DfaWorkbench.Grammar.Basic
import DfaWorkbench.Grammar.Derivation
import DfaWorkbench.Grammar.Parser
import DfaWorkbench.Grammar.Printer
import DfaWorkbench.Grammar.RuleLine
import DfaWorkbench.Json.Basic
import DfaWorkbench.Json.Display
import DfaWorkbench.Json.Printer
import DfaWorkbench.Json.Reader
import DfaWorkbench.Name
import DfaWorkbench.Proofs.Automaton.Draft
import DfaWorkbench.Proofs.Automaton.Edit
import DfaWorkbench.Proofs.Automaton.History
import DfaWorkbench.Proofs.Automaton.Lookup
import DfaWorkbench.Proofs.Automaton.NewTransitions
import DfaWorkbench.Proofs.Automaton.Parts
import DfaWorkbench.Proofs.Automaton.Reachability
import DfaWorkbench.Proofs.Automaton.Restriction
import DfaWorkbench.Proofs.Automaton.Restyled
import DfaWorkbench.Proofs.Automaton.Scan
import DfaWorkbench.Proofs.Automaton.Search
import DfaWorkbench.Proofs.Automaton.Worded
import DfaWorkbench.Proofs.Conversion.Containment
import DfaWorkbench.Proofs.Conversion.Convertible
import DfaWorkbench.Proofs.Conversion.Diagnosis
import DfaWorkbench.Proofs.Conversion.FullAutomaton
import DfaWorkbench.Proofs.Conversion.NormalForm
import DfaWorkbench.Proofs.Conversion.Outcomes
import DfaWorkbench.Proofs.Conversion.Overlap
import DfaWorkbench.Proofs.Conversion.Places
import DfaWorkbench.Proofs.Conversion.Rebuilding
import DfaWorkbench.Proofs.Conversion.Redrawn
import DfaWorkbench.Proofs.Conversion.Refusal
import DfaWorkbench.Proofs.Conversion.Relabelled
import DfaWorkbench.Proofs.Conversion.Sink
import DfaWorkbench.Proofs.Conversion.TextRoundTrip
import DfaWorkbench.Proofs.Conversion.ToAutomaton
import DfaWorkbench.Proofs.Conversion.ToGrammar
import DfaWorkbench.Proofs.Conversion.Unsupported
import DfaWorkbench.Proofs.Curvature
import DfaWorkbench.Proofs.Diagram.Edges
import DfaWorkbench.Proofs.Diagram.Nodes
import DfaWorkbench.Proofs.Entry.Faithful
import DfaWorkbench.Proofs.Entry.RoundTrip
import DfaWorkbench.Proofs.Grammar.Blame
import DfaWorkbench.Proofs.Grammar.Concatenation
import DfaWorkbench.Proofs.Grammar.Contents
import DfaWorkbench.Proofs.Grammar.Derivation
import DfaWorkbench.Proofs.Grammar.Reading
import DfaWorkbench.Proofs.Grammar.Respelling
import DfaWorkbench.Proofs.Grammar.RoundTrip
import DfaWorkbench.Proofs.Grammar.Rule
import DfaWorkbench.Proofs.Grammar.RuleLine
import DfaWorkbench.Proofs.Grammar.Spellings
import DfaWorkbench.Proofs.Json.Escape
import DfaWorkbench.Proofs.Json.Limits
import DfaWorkbench.Proofs.Json.Numeral
import DfaWorkbench.Proofs.Json.RoundTrip
import DfaWorkbench.Proofs.Name
import DfaWorkbench.Proofs.Record
import DfaWorkbench.Proofs.Result
import DfaWorkbench.Proofs.Sequence.Assignment
import DfaWorkbench.Proofs.Sequence.Distinct
import DfaWorkbench.Proofs.Sequence.Fresh
import DfaWorkbench.Proofs.Sequence.Grouping
import DfaWorkbench.Proofs.Sequence.Image
import DfaWorkbench.Proofs.Sequence.Related
import DfaWorkbench.Proofs.Session.Buttons
import DfaWorkbench.Proofs.Session.Drawing
import DfaWorkbench.Proofs.Session.Generation
import DfaWorkbench.Proofs.Session.Outcome
import DfaWorkbench.Proofs.Session.Run
import DfaWorkbench.Proofs.Session.Snapshot
import DfaWorkbench.Proofs.Session.Sound
import DfaWorkbench.Proofs.Session.Step
import DfaWorkbench.Proofs.Simulation.Acceptance
import DfaWorkbench.Proofs.Simulation.Calls
import DfaWorkbench.Proofs.Simulation.Extension
import DfaWorkbench.Proofs.Simulation.Invariant
import DfaWorkbench.Proofs.Simulation.Moves
import DfaWorkbench.Proofs.Simulation.Partiality
import DfaWorkbench.Proofs.Simulation.Pruning
import DfaWorkbench.Proofs.Simulation.Runs
import DfaWorkbench.Proofs.Simulation.Schedule
import DfaWorkbench.Proofs.Simulation.Verdict
import DfaWorkbench.Proofs.Simulation.Visits
import DfaWorkbench.Proofs.Table
import DfaWorkbench.Proofs.Text.Blank
import DfaWorkbench.Proofs.Text.Cut
import DfaWorkbench.Proofs.Text.Lines
import DfaWorkbench.Proofs.Validation.Alphabet
import DfaWorkbench.Proofs.Validation.Checks
import DfaWorkbench.Proofs.Validation.Edits
import DfaWorkbench.Proofs.Validation.Listing
import DfaWorkbench.Proofs.Validation.Readiness
import DfaWorkbench.Proofs.Validation.Restyled
import DfaWorkbench.Proofs.Validation.Worded
import DfaWorkbench.Reachability
import DfaWorkbench.Record
import DfaWorkbench.Sequence.Assignment
import DfaWorkbench.Sequence.Distinct
import DfaWorkbench.Sequence.Fresh
import DfaWorkbench.Sequence.Grouping
import DfaWorkbench.Session.Basic
import DfaWorkbench.Session.Event
import DfaWorkbench.Session.Page
import DfaWorkbench.Settings
import DfaWorkbench.Simulation.Branching
import DfaWorkbench.Simulation.Calls
import DfaWorkbench.Simulation.Run
import DfaWorkbench.Simulation.Simulator
import DfaWorkbench.State
import DfaWorkbench.Table.Basic
import DfaWorkbench.Table.Contents
import DfaWorkbench.Text.Blank
import DfaWorkbench.Text.Cut
import DfaWorkbench.Text.Lines
import DfaWorkbench.Text.Printable
import DfaWorkbench.Text.Quoted
import DfaWorkbench.Transition
import DfaWorkbench.Validation
