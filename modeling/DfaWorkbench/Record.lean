import DfaWorkbench.Entry.Automaton
import DfaWorkbench.Grammar.Basic
import DfaWorkbench.Json.Printer
import DfaWorkbench.Json.Reader

/-!
Records: named automata with the bends of their drawn edges, as plain data and as JSON text.
-/

namespace DfaWorkbench

structure FreshId where
  text : String
  text_ne : text ≠ ""

def Transition.curvatureKey (t : Transition) : String :=
  t.source.shown ++ "-" ++ t.target.shown

structure Record where
  id : Name
  name : Name
  description : Json
  automaton : Automaton
  curvatures : List (Name × Json)
  name_ne : name.isEmpty = false
  keys_nodup : (curvatures.map (·.1.key)).Nodup

inductive RecordError
  | text (e : Json.ReadError)
  | emptyName
  | entry (e : EntryError)

namespace RecordError

def message : RecordError → String
  | text e => e.message
  | emptyName => "record name must not be empty"
  | entry e => e.message

end RecordError

namespace Record

def make (id name : Name) (description : Json) (A : Automaton)
    (curvatures : List (Name × Json)) : Except RecordError Record :=
  if h : name.isEmpty then .error .emptyName
  else
    .ok ⟨id, name, description, A, Sequence.merged Name.key curvatures, Name.isEmpty_eq_false h,
      Sequence.nodup_keys_merged Name.key curvatures⟩

def fieldName (n : Name) : String :=
  match n.text? with
  | some s => s
  | none => Json.render {} n.value

def ownFields (r : Record) : List (String × Json) :=
  ("id", r.id.value) :: ("name", r.name.value) :: ("description", r.description) ::
    r.automaton.toFields

def toFields (r : Record) : List (String × Json) :=
  r.ownFields ++ [("curvatures", .obj (r.curvatures.map fun (n, v) => (fieldName n, v)))]

/-- The id as text. In place of an empty one a fresh id is taken. -/
def idOf (fresh : FreshId) (v : Json) : Name :=
  if v.isEmpty then fresh.text else v.plainText

def pairOf (v : Json) (index : Nat) : Except EntryError (Name × Json) := do
  match ← v.entries with
  | [key, value] =>
    let _ ← (Name.of key).atomKey.mapError EntryError.unfitName
    return (.of key, value)
  | parts => .error (.notPair index parts.length)

def curvaturesOf (v : Json) : Except EntryError (List (Name × Json)) :=
  match v with
  | .obj fs => .ok (fs.map fun f => (f.1, f.2))
  | v =>
    if v.isEmpty then .ok []
    else do (← v.entries).zipIdx.mapM fun (pair, i) => pairOf pair i

/-- The name is looked up before the automaton is read, and has to be non-empty after that. -/
def ofFields (fresh : FreshId) (fs : List (String × Json)) : Except RecordError Record := do
  let name ← (Json.need fs "name").mapError .entry
  let A ← (Automaton.ofFields fs).mapError .entry
  let curvatures ← (curvaturesOf (Json.fieldOr fs "curvatures" .null)).mapError .entry
  make (idOf fresh (Json.fieldOr fs "id" .null)) (.of name)
    (Json.fieldOr fs "description" (.str "")) A curvatures

def ofJson (fresh : FreshId) (v : Json) : Except RecordError Record := do
  ofFields fresh (← v.fields.mapError .entry)

def requireKey (l : Json.Layout) (room : Nat) (n : Name) : Except Json.WriteError Unit :=
  match n with
  | .of v => if v.isAtom then v.requireWritable l room else .error .notKey
  | .group _ => .error .notKey

/-- Whether the text of a record can be written. Each name of a field is looked at before its
value. -/
def requireWritable (l : Json.Layout) (r : Record) : Except Json.WriteError Unit := do
  let room ← l.enter Json.maxDepth false
  Json.requireFields l room r.ownFields
  let room ← l.enter room r.curvatures.isEmpty
  r.curvatures.forM fun (n, v) => do
    requireKey l room n
    v.requireWritable l room

def toText (l : Json.Layout) (r : Record) : Except Json.WriteError String := do
  r.requireWritable l
  return Json.render l (.obj r.toFields)

def ofText (fresh : FreshId) (text : String) : Except RecordError Record := do
  ofJson fresh (← (Json.parse text).mapError .text)

def agrees (r s : Record) : Bool :=
  r.id.key = s.id.key && r.name.key = s.name.key && r.description.agrees s.description &&
    r.automaton.agrees s.automaton && r.curvatures.length = s.curvatures.length &&
    (r.curvatures.zip s.curvatures).all fun (c, d) => c.1.key = d.1.key && c.2.agrees d.2

def ofGrammar (fresh : FreshId) (g : Grammar) (A : Automaton) : Record where
  id := fresh.text
  name := "DFA from Grammar (Start: " ++ g.start.shown ++ ")"
  description := .str ("Generated from production rules with start symbol " ++ g.start.shown ++
    ". Only right-linear grammars are fully supported.")
  automaton := A
  curvatures := []
  name_ne := Name.isEmpty_text (by simp)
  keys_nodup := List.nodup_nil

end Record

end DfaWorkbench
