import BlockSuite.Block.Basic
import BlockSuite.Text.Upper

/-!
Procedures as blocks of their own. Such a block has a field per parameter, named in upper case,
and runs the body of the procedure in a frame that binds the parameters.
-/

namespace BlockSuite.Procedure

/-- The value a parameter is bound to: that of its field, or its default where the field is null. -/
def fieldValue (params : Dict Value) (p : Param) : Value :=
  match params.get? (Text.upper p.name) with
  | none | some .null => p.default
  | some v => v

/-- What a block of a procedure does. -/
def expansion (p : Procedure) (params : Dict Value) : Signal :=
  .expand p.steps (some p.name) true
    (Dict.ofPairs (p.params.map fun param => (param.name, fieldValue params param)))

/-- The block of a procedure. -/
def block (p : Procedure) (category : String := "Custom") : Block where
  type := Name.customBlockType p.name
  category
  tooltip := some (match p.description with
    | some s => if s.isEmpty then "Run procedure " ++ Quoted.ofText p.name else s
    | none => "Run procedure " ++ Quoted.ofText p.name)
  inputs := p.params.map fun param =>
    { name := Text.upper param.name
      kind := .field
      fieldType := some "text"
      default := param.default }
  executor := fun params => return .signal (p.expansion params)
  origin := "pytest_blocks.core.procedures"

/-- The field of a parameter, read like a declared input. -/
def readField (param : Param) : Checked InputSpec :=
  InputSpec.form.close [(.text "name", .text (Text.upper param.name)),
    (.text "kind", .text "field"), (.text "field_type", .text "text"),
    (.text "default", param.default)]

/-- The block of a procedure, read like a declared block with the inputs that were read. -/
def readBlock (p : Procedure) (category : String) (inputs : List InputSpec) : Checked Block :=
  let given := p.block category
  let form := Block.formOf (Form.known "inputs" (some (.ok inputs)) [])
    (Form.known "output" none none)
    (Form.known "executor" (some (.ok given.executor)) given.executor) given.origin
  form.close [(.text "type", .text given.type), (.text "category", .text given.category),
    (.text "tooltip", .ofText? given.tooltip), (.text "inputs", .null), (.text "executor", .null)]

/-- Makes the block of a procedure: its fields are read one after the other, then the block itself,
and what is not allowed in them is refused. -/
def makeBlock (p : Procedure) (category : String := "Custom") : Except Failure Block := do
  let invalid (model : String) (issues : List Issue) : Failure := .invalid ⟨model, issues⟩
  let inputs ← p.params.mapM fun param => (readField param).mapError (invalid "BlockInput")
  (p.readBlock category inputs).mapError (invalid "BlockDescriptor")

end BlockSuite.Procedure
