import DfaWorkbench.Defect

namespace DfaWorkbench

inductive StateType
  | normal
  | start
  | accept
  | startAccept
  | dead
  deriving DecidableEq, Inhabited

namespace StateType

def name : StateType → String
  | normal => "normal"
  | start => "start"
  | accept => "accept"
  | startAccept => "start-accept"
  | dead => "dead"

def ofName? : String → Option StateType
  | "normal" => some normal
  | "start" => some start
  | "accept" => some accept
  | "start-accept" => some startAccept
  | "dead" => some dead
  | _ => none

def resolve (value : Json) : Except Defect StateType :=
  match value with
  | .str s =>
    match ofName? s with
    | some t => .ok t
    | none => .error (.unknownType value)
  | _ => .error (.unknownType value)

def isStart : StateType → Bool
  | start | startAccept => true
  | _ => false

def isAccept : StateType → Bool
  | accept | startAccept => true
  | _ => false

def ofFlags : Bool → Bool → StateType
  | true, true => startAccept
  | true, false => start
  | false, true => accept
  | false, false => normal

end StateType

structure State where
  id : Name
  label : Name
  type : StateType
  /-- A place on the canvas, a pair as a rule. It is carried along untouched. -/
  position : List Json
  id_ne : id.isEmpty = false
  label_ne : label.isEmpty = false

namespace State

def origin : List Json :=
  [.num (.float 0), .num (.float 0)]

def make (id label : Name) (type : StateType) (position : List Json) : Except Defect State :=
  if hi : id.isEmpty then .error .emptyStateId
  else if hl : label.isEmpty then
    .ok ⟨id, id, type, position, Name.isEmpty_eq_false hi, Name.isEmpty_eq_false hi⟩
  else .ok ⟨id, label, type, position, Name.isEmpty_eq_false hi, Name.isEmpty_eq_false hl⟩

def key (s : State) : Key :=
  s.id.key

def isStart (s : State) : Bool :=
  s.type.isStart

def isAccept (s : State) : Bool :=
  s.type.isAccept

def isPlaced (s : State) : Bool :=
  2 ≤ s.position.length

def x (s : State) : Json :=
  s.position[0]?.getD .null

def y (s : State) : Json :=
  s.position[1]?.getD .null

def relabel (s : State) (label : Name) : State :=
  if hl : label.isEmpty then s else { s with label, label_ne := Name.isEmpty_eq_false hl }

@[simp] theorem id_relabel (s : State) (label : Name) : (s.relabel label).id = s.id := by
  rw [relabel]
  split <;> rfl

def agrees (s t : State) : Bool :=
  s.key = t.key && s.label.key = t.label.key && s.type = t.type &&
    Json.itemsAgree s.position t.position

end State

end DfaWorkbench
