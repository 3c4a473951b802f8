import BlockSuite.Json.Writer

/-!
The JSON schema of suites as documents: what the members of each record are, with a title, what
they mean, and their defaults.
-/

namespace BlockSuite.Document.Schema

/-- A schema as the members of a JSON object. -/
abbrev Members := Dict Value

/-- The dialect that the schema is written in. -/
def dialect : String := "https://json-schema.org/draft/2020-12/schema"

/-- Values of a kind. -/
def kind (name : String) : Members := [("type", .text name)]

def text : Members := kind "string"

/-- Any value. -/
def anything : Members := []

/-- Values of a record that is defined once. -/
def named (record : String) : Members := [("$ref", .text ("#/$defs/" ++ record))]

/-- Values of either of two kinds. -/
def either (a b : Members) : Members := [("anyOf", .list [.record a, .record b])]

/-- A value that may be left out; then it is null. -/
def optional (s : Members) : Members := either s (kind "null") ++ [("default", .null)]

/-- Any value that may be left out. -/
def optionalValue : Members := [("default", .null)]

def listOf (s : Members) : Members := kind "array" ++ [("items", .record s)]

/-- Mappings from names to values. -/
def mappingOf (s : Members) : Members :=
  kind "object" ++ [("additionalProperties", if s.isEmpty then .bool true else .record s)]

/-- A text that may be left out. -/
def textOr (default : String) : Members := text ++ [("default", .text default)]

def nonempty (s : Members) : Members := s ++ [("minLength", .int 1)]

def matching (pattern : String) (s : Members) : Members := s ++ [("pattern", .text pattern)]

/-- A schema with a title. -/
def titled (title : String) (s : Members) : Members := s ++ [("title", .text title)]

/-- A schema with what its values mean. -/
def meaning (description : String) (s : Members) : Members :=
  s ++ [("description", .text description)]

def examples (xs : List String) (s : Members) : Members :=
  s ++ [("examples", .list (xs.map .text))]

/-- A record with the members that it has and those that it must have. It has no others. -/
def record (members : Dict Members) (required : List String) : Members :=
  let properties := members.map fun e => (e.1, Value.record e.2)
  kind "object" ++
    [("additionalProperties", .bool false), ("properties", .record properties)] ++
    (if required.isEmpty then [] else [("required", .list (required.map .text))])

/-- The pattern of variable names. -/
def namePattern : String := "^[a-zA-Z_][\\w]*$"

/-- The pattern of block types. -/
def typePattern : String := "^([a-zA-Z_][\\w]*\\.)?[a-zA-Z_][\\w]*$"

/-- What is said of variable names. -/
def aboutNames (s : Members) : Members :=
  s
    |> meaning ("Name of a variable used to store or reference values within a test execution " ++
      "context. Names are restricted to ASCII letters, digits and underscores.")
    |> examples ["userId", "api_token"]

/-- A description that may be left out. -/
def description : Members := optional text |> titled "Description"

/-- A description with what it means. -/
def detailedDescription : Members :=
  description |> meaning "Detailed human-readable description of the element."

/-- Steps under a title. -/
def steps (title : String) : Members := listOf (named "StepNode") |> titled title

def row : Members :=
  record
    [("name", optional text |> titled "Row name"
        |> meaning "Optional label used in reports and item names."),
      ("values", mappingOf anything |> titled "Row values")]
    []
  |> meaning "One row of a data-driven test case."

def procedure : Members :=
  record
    [("name", nonempty text |> titled "Procedure name"
        |> meaning "Name of a reusable procedure, unique within its registry."
        |> examples ["login", "create_user"]),
      ("description", description),
      ("params", listOf (named "ProcedureParam") |> titled "Parameters"
        |> meaning "Declared parameters, in positional order."),
      ("return_type", optional text |> titled "Return type"),
      ("steps", steps "Body" |> meaning "Steps executed when the procedure is called.")]
    ["name"]
  |> meaning "Named, parameterized body of steps."

def parameter : Members :=
  record
    [("name", matching namePattern text |> titled "Variable identifier" |> aboutNames),
      ("type", textOr "any" |> titled "Declared type"
        |> meaning "Informational type name (for example, `string` or `number`)."),
      ("default", optionalValue |> titled "Default value"
        |> meaning "Value bound when a call does not supply the parameter."),
      ("description", description)]
    ["name"]
  |> meaning "Declared parameter of a procedure."

def step : Members :=
  record
    [("id", nonempty text |> titled "Step identifier"
        |> meaning "Identifier of the step, used in results and error reports."),
      ("type", matching typePattern text |> titled "Block type identifier"
        |> meaning ("Type of the block instantiated by a step. A block type may be a builtin " ++
          "name (for example, `logic_if`) or a plugin-qualified name using dot notation " ++
          "(for example, `http.get`).")
        |> examples ["logic_if", "http.get"]),
      ("params", mappingOf (either (named "StepNode") anything) |> titled "Step parameters"
        |> meaning ("Inputs of the step bound to literal values or to nested value-producing " ++
          "steps. A mapping that validates as a step is treated as a nested step; any other " ++
          "value is a literal.")),
      ("slots", mappingOf (listOf (named "StepNode")) |> titled "Statement slots"
        |> meaning ("Named lists of child steps consumed by control-flow blocks (for example, " ++
          "`DO`, `ELSE`, `TRY` and `CATCH`)."))]
    ["type"]
  |> meaning "A block instance inside a step tree."

def case : Members :=
  record
    [("name", text |> titled "Test name"),
      ("description", detailedDescription),
      ("id", optional text |> titled "Test identifier"),
      ("tags", listOf text |> titled "Tags"),
      ("soft_assertions", optional (kind "boolean") |> titled "Soft assertions"
        |> meaning ("Collect assertion failures and report them at the end of the test case. " ++
          "Falls back to the engine settings when unset.")),
      ("data", listOf (named "DataRow") |> titled "Data rows"
        |> meaning "Rows of values; the test case runs once per row."),
      ("before_each", steps "Before each"),
      ("after_each", steps "After each"),
      ("steps", steps "Steps")]
    ["name"]
  |> meaning "Executable test case."

def declaration : Members :=
  record
    [("type", text |> titled "Variable type"),
      ("default", optionalValue |> titled "Default value"),
      ("description", description)]
    ["type"]
  |> meaning "Typed variable declaration with a default value."

/-- Variables: under each name that is one, a declaration or any value. -/
def bindings : Members :=
  let value := Value.record (either (named "VariableDefinition") anything)
  kind "object" ++
    [("patternProperties", .record [(namePattern, value)]),
      ("propertyNames", .record (aboutNames anything))]

/-- The records that are defined once, under their names. -/
def records : Dict Members :=
  [("DataRow", row), ("ProcedureDefinition", procedure), ("ProcedureParam", parameter),
    ("StepNode", step), ("TestCase", case), ("VariableDefinition", declaration)]

/-- The schema of suites. -/
def suite : Members :=
  let definitions := records.map fun e => (e.1, Value.record (titled e.1 e.2))
  record
    [("name", textOr "Untitled" |> titled "Test file name"),
      ("description", detailedDescription),
      ("version", textOr "1.0" |> titled "Format version"),
      ("variables", bindings |> titled "Variables"
        |> meaning ("File-level variables, given either as plain values or as " ++
          "`\x7btype, default\x7d` definitions.")),
      ("procedures", listOf (named "ProcedureDefinition") |> titled "Procedures"
        |> meaning "Reusable procedures, also exposed as `custom_<name>` blocks."),
      ("before_all", steps "Before all"),
      ("after_all", steps "After all"),
      ("before_each", steps "Before each"),
      ("after_each", steps "After each"),
      ("tests", listOf (named "TestCase") |> titled "Test cases"),
      ("metadata", mappingOf anything |> titled "Metadata")]
    []
  |> titled "pytest-blocks"
  |> meaning "JSON Schema for pytest-blocks test files"
  |> fun s => s ++ [("$defs", .record definitions), ("$schema", .text dialect)]

/-- The schema of suites as JSON, its members in the order of their names. -/
def write (layout : Json.Layout) : Except Fault String :=
  Json.write layout 0 (Json.sortKeys (.record suite))

end BlockSuite.Document.Schema
