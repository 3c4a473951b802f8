import BlockSuite.Assertion
import BlockSuite.Signal

/-!
Blocks: what a step may be made of. A block declares its inputs and whether it stands in a list
of steps or gives a value, and has an executor, which is given the inputs of a step and answers
with a value or a control signal.
-/

namespace BlockSuite

/-- How an input is edited: in place, as a literal or nested step, or as a list of steps. -/
inductive InputKind where
  | field
  | value
  | statement
deriving DecidableEq, Repr, Inhabited

namespace InputKind

/-- The name of a kind. -/
def name : InputKind → String
  | field => "field"
  | value => "value"
  | statement => "statement"

/-- All kinds. -/
def every : List InputKind := [field, value, statement]

def check : Check InputKind := fun v => do
  let s ← Check.choice (every.map name) v
  return (every.find? (·.name == s)).getD .value

end InputKind

/-- One or several names of value types. -/
inductive TypeNames where
  | one (name : String)
  | several (names : List String)
deriving DecidableEq, Repr, Inhabited

namespace TypeNames

def check : Check TypeNames := fun v =>
  match Check.either "str" "list[str]" Check.text (Check.list Check.text) v with
  | .ok (.inl name) => .ok (one name)
  | .ok (.inr names) => .ok (several names)
  | .error issues => .error issues

/-- Names as a value. -/
def toValue : TypeNames → Value
  | one name => .text name
  | several names => .list (names.map .text)

end TypeNames

/-- A declared input of a block. -/
structure InputSpec where
  name : String
  kind : InputKind := .value
  fieldType : Option String := none
  accepts : Option TypeNames := none
  options : Option (List (String × String)) := none
  default : Value := .null
  required : Bool := false
deriving Repr, Inhabited

namespace InputSpec

def form : Form InputSpec :=
  InputSpec.mk <$> Form.required "name" Check.nonemptyText <*>
    Form.field ["kind"] InputKind.check .value <*>
    Form.field ["field_type"] (Check.optional Check.text) none <*>
    Form.field ["check"] (Check.optional TypeNames.check) none <*>
    Form.field ["options"] (Check.optional (Check.list (Check.pair Check.text Check.text))) none <*>
    Form.field ["default"] Check.any .null <*> Form.field ["required"] Check.truth false

def check : Check InputSpec := form.check "BlockInput"

/-- An input as a record. -/
def record (d : Display) (i : InputSpec) : Value :=
  .record [("name", .text i.name), ("kind", .text i.kind.name),
    ("field_type", .ofText? i.fieldType),
    ("check", (i.accepts.map TypeNames.toValue).getD .null),
    ("options", (i.options.map fun os =>
      d.literal (.list (os.map fun o => .tuple [.text o.1, .text o.2]))).getD .null),
    ("default", d.literal i.default), ("required", .bool i.required)]

end InputSpec

/-- The output of a block that gives a value. -/
structure OutputSpec where
  type : Option TypeNames := none
deriving Repr, Inhabited

namespace OutputSpec

def form : Form OutputSpec :=
  OutputSpec.mk <$> Form.field ["type"] (Check.optional TypeNames.check) none

def check : Check OutputSpec := form.check "BlockOutput"

/-- An output as a record. -/
def record (o : OutputSpec) : Value :=
  .record [("type", (o.type.map TypeNames.toValue).getD .null)]

end OutputSpec

/-- What an executor answers. -/
inductive Answer where
  | value (v : Value)
  | signal (s : Signal)
deriving Repr, Inhabited

/-- What a block does with the inputs of a step. -/
abbrev Executor := Dict Value → Run Answer

/-- A block. Its origin names where it was made, in warnings. -/
structure Block where
  type : String
  category : String := "custom"
  color : Option String := none
  tooltip : Option String := none
  inputs : List InputSpec := []
  output : Option OutputSpec := none
  previous : Bool := true
  next : Bool := true
  snapshot : Bool := false
  executor : Executor
  origin : String := ""
deriving Inhabited

namespace Block

/-- Whether a block stands in a list of steps. -/
def isStatement (b : Block) : Bool := b.previous || b.next

/-- Whether a block gives a value. -/
def isValue (b : Block) : Bool := b.output.isSome

/-- The names of the slots. -/
def slotNames (b : Block) : List String := (b.inputs.filter (·.kind == .statement)).map (·.name)

/-- The inputs that are resolved before the executor runs, in declared order. -/
def parameters (b : Block) : List InputSpec := b.inputs.filter (·.kind != .statement)

/-- A block as a record, its executor aside. -/
def record (d : Display) (b : Block) : Value :=
  .record [("type", .text b.type), ("category", .text b.category), ("color", .ofText? b.color),
    ("tooltip", .ofText? b.tooltip), ("inputs", .list (b.inputs.map (InputSpec.record d))),
    ("output", (b.output.map OutputSpec.record).getD .null),
    ("previous_statement", .bool b.previous), ("next_statement", .bool b.next),
    ("snapshot_on_failure", .bool b.snapshot)]

/-- The form of a block, given how its inputs, its output and its executor are read. -/
def formOf (inputs : Form (List InputSpec)) (output : Form (Option OutputSpec))
    (executor : Form Executor) (origin : String) : Form Block :=
  (fun type category color tooltip inputs output previous next snapshot executor =>
      ⟨type, category, color, tooltip, inputs, output, previous, next, snapshot, executor,
        origin⟩) <$>
    Form.required "type" Check.blockType <*> Form.field ["category"] Check.text "custom" <*>
    Form.field ["color"] (Check.optional Check.text) none <*>
    Form.field ["tooltip"] (Check.optional Check.text) none <*> inputs <*> output <*>
    Form.field ["previous_statement"] Check.truth true <*>
    Form.field ["next_statement"] Check.truth true <*>
    Form.field ["snapshot_on_failure"] Check.truth false <*> executor

/-- The form of a block in a document, which has no way to give an executor. -/
def form : Form Block :=
  formOf (Form.field ["inputs"] (Check.list InputSpec.check) [])
    (Form.field ["output"] (Check.optional OutputSpec.check) none)
    ((fun e : Empty => nomatch e) <$> Form.required "executor" Check.callable) ""

def check : Check Block := form.check "BlockDescriptor"

@[simp] theorem mem_slotNames {b : Block} {name : String} :
    name ∈ b.slotNames ↔ ∃ i ∈ b.inputs, i.kind = .statement ∧ i.name = name := by
  simp [slotNames, and_assoc]

end Block

end BlockSuite
