import DfaWorkbench.Automaton.Edit
import DfaWorkbench.Conversion.Error
import DfaWorkbench.Reachability

/-!
From a right-linear grammar to an automaton. Every non-terminal becomes a state; the productions of
a single terminal lead to one shared accepting state, the sink. Only what can be reached from the
start symbol is kept, and the result may be non-deterministic.
-/

namespace DfaWorkbench

inductive Arc
  | stop (symbol : Char)
  | go (symbol : Char) (next : Name)

namespace Grammar

def terminalChar? (g : Grammar) (symbol : Name) : Option Char :=
  match symbol.text?.map String.toList with
  | some [c] => if g.isTerminal symbol.key then some c else none
  | _ => none

def arc? (g : Grammar) (p : Production) : Option Arc :=
  match p.symbols with
  | [a] => (g.terminalChar? a).map .stop
  | [a, b] => if g.isNonTerminal b.key then (g.terminalChar? a).map (.go · b) else none
  | _ => none

def lookedUp (g : Grammar) (p : Production) : List Name :=
  match p.symbols with
  | [a] => [a]
  | [a, b] => if (g.terminalChar? a).isSome then [a, b] else [a]
  | _ => []

def measured (g : Grammar) (p : Production) : List Name :=
  (g.lookedUp p).take 1 |>.filter (g.isTerminal ·.key)

/-- What arc a production is, if its names allow to say. One that is none has to be put into
words. -/
def arc (g : Grammar) (head : Name) (p : Production) : Except ConversionError Arc := do
  (Name.requireAtoms (g.terminals ++ g.lookedUp p)).mapError .unfitName
  (Name.requireTexts (g.measured p)).mapError .unfitName
  match g.arc? p with
  | some a => return a
  | none =>
    (Name.requireTexts p.symbols).mapError .unfitName
    throw (.unsupported head p)

def sinkName (base : Name) (n : Nat) : Name :=
  if n = 0 then base else .text (base.shown ++ n.repr)

def sinkId (g : Grammar) (settings : Settings) : Name :=
  sinkName settings.sinkId
    (Sequence.firstFree (fun n => (sinkName settings.sinkId n).key) (g.nonTerminals.map Name.key) 0)

def steps (g : Grammar) : List (Name × Production) :=
  g.nonTerminals.flatMap fun head =>
    ((g.productionsFor head.key).filter (!·.isEmpty)).map fun p => (head, p)

def needsSink (g : Grammar) : Bool :=
  g.steps.any fun (_, p) =>
    match g.arc? p with
    | some (.stop _) => true
    | _ => false

def headState (g : Grammar) (layout : Layout) (head : Name) (index : Nat) :
    Except ConversionError State := do
  let key ← head.atomKey.mapError .unfitName
  let x ← (layout.slot index).mapError .layout
  (State.make head head (StateType.ofFlags (key = g.start.key) (g.hasEmpty key))
    [x, layout.y]).mapError .defect

def sinkState (g : Grammar) (settings : Settings) (layout : Layout) :
    Except ConversionError State := do
  let x ← (layout.slotAfter g.nonTerminals.length).mapError .layout
  (State.make (g.sinkId settings) (g.sinkId settings) .accept [x, layout.y]).mapError .defect

def sinkStates (g : Grammar) (settings : Settings) (layout : Layout) :
    Except ConversionError (List State) :=
  if g.needsSink then (g.sinkState settings layout).map fun q => [q] else .ok []

def stepTransition (g : Grammar) (settings : Settings) (head : Name) (p : Production)
    (index : Nat) : Except ConversionError Transition := do
  let id := Automaton.transitionName index
  match ← g.arc head p with
  | .stop a => (Transition.ofChar id head (g.sinkId settings) a).mapError .defect
  | .go a next => (Transition.ofChar id head next a).mapError .defect

def fullAutomaton (g : Grammar) (settings : Settings) : Except ConversionError Automaton := do
  let layout ← (Layout.ofSettings settings).mapError .layout
  let states ← g.nonTerminals.zipIdx.mapM fun (head, i) => g.headState layout head i
  (Name.requireAtoms [settings.sinkId]).mapError .unfitName
  let transitions ← g.steps.zipIdx.mapM fun ((head, p), i) => g.stepTransition settings head p i
  let sink ← g.sinkStates settings layout
  let alphabet ← (Name.sorted g.terminals).mapError .unfitName
  (Automaton.make (states ++ sink) transitions alphabet).mapError .defect

def toAutomaton (g : Grammar) (settings : Settings) : Except ConversionError Automaton := do
  let full ← g.fullAutomaton settings
  match full.reachableFrom (← g.start.atomKey.mapError .unfitName) with
  | [] => .error .noStates
  | ids => return full.restrict ids

end Grammar

end DfaWorkbench
