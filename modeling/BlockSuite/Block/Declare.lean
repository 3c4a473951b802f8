import BlockSuite.Block.Basic

/-!
Declaring blocks with options. Blocks without an output stand in lists of steps, blocks with one
do not, unless the options say otherwise.
-/

namespace BlockSuite.Block

/-- Kinds of blocks that are declared with options. -/
inductive Style where
  | plain
  | action
  | value
  | assertion
deriving DecidableEq, Repr, Inhabited

/-- The options a declaration takes. -/
def optionNames : List String :=
  ["category", "inputs", "output", "tooltip", "color", "previous_statement", "next_statement",
    "snapshot_on_failure"]

/-- The options as a style has them: actions and assertions drop an output, values have one, and
assertions have a category. -/
def styledOptions (style : Style) (options : Dict Value) : Dict Value :=
  match style with
  | .plain => options
  | .action => options.erase "output"
  | .value => if options.has "output" then options else options ++ [("output", .text "Any")]
  | .assertion =>
    let options := options.erase "output"
    if options.has "category" then options else options ++ [("category", .text "assertions")]

/-- The declarations that the option of inputs lists. -/
def listed (v : Value) : Except Failure (List Value) :=
  if !v.isTruthy then .ok []
  else
    match v with
    | .list xs | .tuple xs | .set xs => .ok xs
    | .dict es => .ok (es.map (·.1))
    | .text s => .ok (s.toList.map fun c => .text c.toString)
    | .bytes bs => .ok (bs.map fun b => .int b.toNat)
    | v =>
      .error (.fault .type (some (.text ("'" ++ v.fullTypeName ++ "' object is not iterable"))))

/-- A flag, or what it is without an option. -/
def flag (options : Dict Value) (name : String) (default : Bool) : Value :=
  match options.get? name with
  | none | some .null => .bool default
  | some v => v

/-- Declares a block. Inputs are read one after the other, then the output, then all else. -/
def declare (style : Style) (type : Value) (executor : Option Executor) (origin : String)
    (options : Dict Value) : Except Failure Block := do
  let options := styledOptions style options
  match options.find? fun e => !optionNames.contains e.1 with
  | some (name, _) =>
    .error (.fault .type (some (.text ("create_block() got an unexpected keyword argument '" ++
      name ++ "'"))))
  | none => .ok ()
  let option (name : String) : Value := (options.get? name).getD .null
  let invalid (model : String) (issues : List Issue) : Failure := .invalid ⟨model, issues⟩
  let inputs ← (← listed (option "inputs")).mapM fun v =>
    (InputSpec.check v).mapError (invalid "BlockInput")
  let output ← match option "output" with
    | .null => .ok none
    | v =>
      ((OutputSpec.form.close [(.text "type", v)]).map some).mapError (invalid "BlockOutput")
  let members : Dict Value :=
    [("type", type), ("category", (options.get? "category").getD (.text "custom")),
      ("color", option "color"), ("tooltip", option "tooltip"), ("inputs", .null),
      ("output", .null), ("previous_statement", flag options "previous_statement" output.isNone),
      ("next_statement", flag options "next_statement" output.isNone),
      ("snapshot_on_failure", (options.get? "snapshot_on_failure").getD (.bool false)),
      ("executor", .null)]
  let executorForm : Form Executor := match executor with
    | some e => Form.known "executor" (some (.ok e)) e
    | none => (fun e : Empty => nomatch e) <$> Form.required "executor" Check.callable
  let form := formOf (Form.known "inputs" (some (.ok inputs)) [])
    (Form.known "output" (some (.ok output)) none) executorForm origin
  (form.close (members.map fun e => (.text e.1, e.2))).mapError (invalid "BlockDescriptor")

/-- An executor that applies an assertion and answers whether it holds. -/
def asserting (check : Dict Value → Run Assertion) : Executor := fun params => do
  let a ← check params
  a.handle
  return .value (.bool a.holds)

end BlockSuite.Block
