import BlockSuite.Block.Basic
import BlockSuite.Json.Reader

/-!
What the blocks of the library are built with: how they declare their inputs and how they read
them when they run.
-/

namespace BlockSuite.Library

/-- A text field. -/
def textField (name : String) (default : Value := .null) (required : Bool := false) : InputSpec :=
  { name, kind := .field, fieldType := some "text", default, required }

/-- A number field. -/
def numberField (name : String) (default : Int) (required : Bool := false) : InputSpec :=
  { name, kind := .field, fieldType := some "number", default := .int default, required }

/-- A field with a choice of labelled options. -/
def choiceField (name : String) (options : List (String × String)) (default : String) :
    InputSpec :=
  { name, kind := .field, fieldType := some "dropdown", options := some options,
    default := .text default }

/-- A required input that takes a value, perhaps of one type. -/
def valueInput (name : String) (accepts : Option String := none) : InputSpec :=
  { name, accepts := accepts.map .one, required := true }

/-- A slot. -/
def slot (name : String) : InputSpec := { name, kind := .statement }

/-- The types of blocks that may give any value. -/
def anyOutput : TypeNames := .several ["String", "Number", "Boolean", "Object", "Array"]

/-- A block that stands in a list of steps. -/
def action (type category color tooltip : String) (inputs : List InputSpec)
    (executor : Executor) : Block :=
  { type, category, color := some color, tooltip := some tooltip, inputs, executor }

/-- A block that gives a value. -/
def value (type : String) (output : TypeNames) (category color tooltip : String)
    (inputs : List InputSpec) (executor : Executor) : Block :=
  { type, category, color := some color, tooltip := some tooltip, inputs,
    output := some ⟨some output⟩, previous := false, next := false, executor }

/-- The input of a name, null if it is absent. -/
def input (params : Dict Value) (name : String) : Value := (params.get? name).getD .null

/-- The input of a name; it is a fault if it is absent. -/
def need (params : Dict Value) (name : String) : Run Value :=
  match params.get? name with
  | some v => return v
  | none => Action.fail (.fault .key (some (.text name)))

/-- A value, or another one in its place where it counts as false. -/
def orElse (v w : Value) : Value := if v.isTruthy then v else w

/-- The text of a value. -/
def textOf (v : Value) : Run String := Action.compute v.toText

/-- The text of an input that has to be there. -/
def needText (params : Dict Value) (name : String) : Run String := do textOf (← need params name)

/-- The number that a value is. -/
def numberOf (v : Value) : Run Numeric := Action.compute v.toNumber

/-- Ends with an error of the block. -/
def refuse {α : Type} (message : String) : Run α := Action.fail (.raised (.leaf message))

/-- A text unless it is empty. -/
def nonempty (s : String) : Option String := if s.isEmpty then none else some s

/-- Reads the JSON text that a value is; a text that is none is refused under a label. -/
def readJson (label : String) (v : Value) : Run Value := do
  match Json.read (← textOf v) with
  | .ok v => return v
  | .error (.tooManyDigits n) => Action.fail (.ofFault (.tooManyDigitsIn n))
  | .error e => refuse ("Invalid " ++ label ++ " JSON: " ++ e.message)

/-- The items of an array to go through; null has none. -/
def itemsOf (purpose : String) (v : Value) : Run (List Value) :=
  match v with
  | .null => return []
  | v =>
    match v.items? with
    | some xs => return xs
    | none => refuse ("Expected an array " ++ purpose ++ ", got " ++ v.typeName)

/-- A loop over items; what they are bound to has to have a name. -/
def loopOver (items : List Value) (binding : String) (indexBinding : Option String) :
    Run Answer :=
  match Check.nonemptyText (.text binding) with
  | .ok binding => return .signal (.collectionLoop items binding Signal.bodySlot indexBinding)
  | .error issues =>
    Action.fail (.invalid ⟨"CollectionLoop", issues.map (Issue.within (.name "binding"))⟩)

end BlockSuite.Library
