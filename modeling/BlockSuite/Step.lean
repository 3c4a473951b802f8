import BlockSuite.Check.Form

/-!
Steps: the instances of blocks in a test. A step binds the inputs of its block to literals or to
nested steps that produce their values, and holds lists of steps in named slots. A document
mapping is a nested step where it is one in full; any other value is a literal.
-/

namespace BlockSuite

mutual

/-- What an input is bound to. -/
inductive Input where
  | nested (step : Step)
  | literal (v : Value)

/-- A block at its place in a test. -/
structure Step where
  id : String
  type : String
  params : List (String × Input)
  slots : List (String × List Step)

end

deriving instance Repr, BEq, Inhabited for Input
deriving instance Repr, BEq, Inhabited for Step

namespace Step

/-- The steps in a slot, in order; a slot that is absent is empty. -/
def slot (s : Step) (name : String) : List Step := (Dict.get? s.slots name).getD []

mutual

/-- A step and all steps inside it, inputs before slots. -/
def walk : Step → List Step
  | ⟨id, type, params, slots⟩ => ⟨id, type, params, slots⟩ :: (walkInputs params ++ walkSlots slots)

def walkInput : Input → List Step
  | .nested s => walk s
  | .literal _ => []

def walkInputs : List (String × Input) → List Step
  | [] => []
  | (_, i) :: rest => walkInput i ++ walkInputs rest

def walkSlots : List (String × List Step) → List Step
  | [] => []
  | (_, steps) :: rest => walkSteps steps ++ walkSlots rest

def walkSteps : List Step → List Step
  | [] => []
  | s :: rest => walk s ++ walkSteps rest

end

mutual

/-- A step as a document has it. -/
def toValue : Step → Value
  | ⟨id, type, params, slots⟩ =>
    .record [("id", .text id), ("type", .text type), ("params", .dict (paramValues params)),
      ("slots", .dict (slotValues slots))]

def inputValue : Input → Value
  | .nested s => toValue s
  | .literal v => v

def paramValues : List (String × Input) → List (Value × Value)
  | [] => []
  | (name, i) :: rest => (.text name, inputValue i) :: paramValues rest

def slotValues : List (String × List Step) → List (Value × Value)
  | [] => []
  | (name, steps) :: rest => (.text name, .list (stepValues steps)) :: slotValues rest

def stepValues : List Step → List Value
  | [] => []
  | s :: rest => toValue s :: stepValues rest

end

mutual

/-- A step in short: its slots give the number of their steps. -/
def summary : Step → Value
  | ⟨id, type, params, slots⟩ =>
    .record [("id", .text id), ("type", .text type), ("params", .dict (paramSummaries params)),
      ("slots", .record (slots.map fun e => (e.1, .int e.2.length)))]

def inputSummary : Input → Value
  | .nested s => summary s
  | .literal v => v

def paramSummaries : List (String × Input) → List (Value × Value)
  | [] => []
  | (name, i) :: rest => (.text name, inputSummary i) :: paramSummaries rest

end

/-- The identifier of a step that was given none; it does nothing but label reports. -/
def unnamed : String := "step-000000000000"

/-- The form of a step whose parameters and slots were checked before. -/
def form (params : Option (Checked (List (String × Input))))
    (slots : Option (Checked (List (String × List Step)))) : Form Step :=
  Step.mk <$> Form.field ["id"] Check.nonemptyText unnamed <*>
    Form.required "type" Check.blockType <*> Form.known "params" params [] <*>
    Form.known "slots" slots []

mutual

/-- Reads a step from a document. -/
def check : Value → Checked Step
  | .dict es => (form (paramsIn es) (slotsIn es)).close es
  | v => Checked.refuse (.notRecord "StepNode") v

/-- The parameters among the members of a step. -/
def paramsIn : List (Value × Value) → Option (Checked (List (String × Input)))
  | [] => none
  | (.text "params", v) :: _ => some (checkParams v)
  | _ :: rest => paramsIn rest

def checkParams : Value → Checked (List (String × Input))
  | .dict es => (checkInputs es).map Dict.ofPairs
  | v => Checked.refuse .notMapping v

def checkInputs : List (Value × Value) → Checked (List (String × Input))
  | [] => .ok []
  | (k, v) :: rest =>
    let name := ((Check.text k).within (.name "[key]")).within (Key.ofValue k)
    let input : Checked Input :=
      match check v with
      | .ok s => .ok (.nested s)
      | .error _ => .ok (.literal v)
    ((name.both input).both (checkInputs rest)).map fun p => p.1 :: p.2

/-- The slots among the members of a step. -/
def slotsIn : List (Value × Value) → Option (Checked (List (String × List Step)))
  | [] => none
  | (.text "slots", v) :: _ => some (checkSlots v)
  | _ :: rest => slotsIn rest

def checkSlots : Value → Checked (List (String × List Step))
  | .dict es => (checkSlotEntries es).map Dict.ofPairs
  | v => Checked.refuse .notMapping v

def checkSlotEntries : List (Value × Value) → Checked (List (String × List Step))
  | [] => .ok []
  | (k, v) :: rest =>
    let name := ((Check.text k).within (.name "[key]")).within (Key.ofValue k)
    let entry := name.both ((checkSteps v).within (Key.ofValue k))
    (entry.both (checkSlotEntries rest)).map fun p => p.1 :: p.2

/-- Reads a list of steps from a document. -/
def checkSteps : Value → Checked (List Step)
  | .list xs => checkItems 0 xs
  | .tuple xs => checkItems 0 xs
  | .set xs => checkItems 0 xs
  | v => Checked.refuse .notList v

def checkItems (start : Nat) : List Value → Checked (List Step)
  | [] => .ok []
  | v :: rest =>
    (((check v).within (.index start)).both (checkItems (start + 1) rest)).map
      fun p => p.1 :: p.2

end

end Step

/-- How the literals and the steps of a record are shown. -/
structure Display where
  literal : Value → Value
  step : Step → Value

namespace Display

/-- Literals as they are and steps as a document has them. -/
def plain : Display := ⟨id, Step.toValue⟩

/-- A list of steps. -/
def steps (d : Display) (xs : List Step) : Value := .list (xs.map d.step)

end Display

end BlockSuite
