import DfaWorkbench.Defect

/-!
Reading entered data: the fields of an object, the entries of a list, and texts.
-/

namespace DfaWorkbench

inductive EntryError
  | notObject
  | notEntry
  | notList
  | notPair (index size : Nat)
  | missing (name : Json)
  | required (field : String)
  | unknownField (field : String)
  | takenField (field : String)
  | defect (d : Defect)

namespace EntryError

def message : EntryError → String
  | notObject => "an object is needed"
  | notEntry => "an entry needs fields"
  | notList => "a list is needed"
  | notPair index size =>
    "dictionary update sequence element #" ++ index.repr ++ " has length " ++ size.repr ++
      "; 2 is required"
  | missing name => name.display
  | required field => "required: " ++ field
  | unknownField field => "unknown: " ++ field
  | takenField field => "given twice: " ++ field
  | defect d => d.message

abbrev unfitName (e : NameError) : EntryError :=
  defect (.unfitName e)

end EntryError

namespace Json

def fields : Json → Except EntryError (List (String × Json))
  | obj fs => .ok fs
  | _ => .error .notObject

def entryFields : Json → Except EntryError (List (String × Json))
  | obj fs => .ok fs
  | _ => .error .notEntry

def freeFields (taken : List String) (v : Json) : Except EntryError (List (String × Json)) := do
  let fs ← v.entryFields
  match fs.find? (·.1 ∈ taken) with
  | some f => throw (.takenField f.1)
  | none => return fs

def entries (v : Json) : Except EntryError (List Json) :=
  match v.entries? with
  | some xs => .ok xs
  | none => .error .notList

def names (v : Json) : Except EntryError (List Name) := do
  return (← v.entries).map Name.of

def fieldOr (fs : List (String × Json)) (name : String) (default : Json) : Json :=
  (field? fs name).getD default

def need (fs : List (String × Json)) (name : String) : Except EntryError Json :=
  match field? fs name with
  | some v => .ok v
  | none => .error (.missing (.str name))

end Json

end DfaWorkbench
