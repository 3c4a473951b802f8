import BlockSuite.Check.Basic
import BlockSuite.Yaml.Writer
import BlockSuite.Text.Lines
import BlockSuite.Value.Coerce

/-!
Failures: what ends a step before it is done. Errors of blocks carry the place where they arose,
which the frames they pass on their way out complete: what is known first is kept. A failure is
reported with its place and an excerpt of what it is about.
-/

namespace BlockSuite

/-- Where an error arose, as far as it is known. A part may be known to be absent, which null
stands for. What is known besides is not shown. -/
structure Place where
  filename : Option Value := none
  line : Option Value := none
  column : Option Value := none
  testName : Option Value := none
  row : Option Value := none
  stepId : Option Value := none
  stepType : Option Value := none
  excerpt : Option String := none
  bindings : Option Value := none
  element : Option Value := none
  other : Option Value := none
  origins : Origins := .unknown
deriving Repr, BEq, Inhabited

namespace Place

/-- The names of what a place shows. -/
def parts : List String :=
  ["filename", "line_num", "column_num", "test_name", "data_iteration", "step_id", "step_type",
    "context", "element"]

/-- Whether a name is one of a part that is shown. -/
def isPart : Value → Bool
  | .text s => parts.contains s
  | _ => false

/-- What is known of two sources of a part: the second counts only where it is present. -/
def orPresent (inner around : Option Value) : Option Value :=
  inner <|> around.filter (· != .null)

/-- A place from a record that has what is known of it. -/
def ofRecord (es : List (Value × Value)) : Place where
  filename := Value.member? es "filename"
  line := Value.member? es "line_num"
  column := Value.member? es "column_num"
  testName := Value.member? es "test_name"
  row := Value.member? es "data_iteration"
  stepId := Value.member? es "step_id"
  stepType := Value.member? es "step_type"
  bindings := Value.member? es "context"
  element := Value.member? es "element"
  other :=
    let others := (es.filter fun e => !isPart e.1).map Prod.snd
    others.find? (· != .null) <|> others.head?

/-- A place from a value: nothing is known from one that counts as false, and only a mapping has
what is known. -/
def ofValue : Value → Except Fault Place
  | .dict es => .ok (ofRecord es)
  | v =>
    if v.isTruthy then
      .error ⟨.attribute, "'" ++ v.fullTypeName ++ "' object has no attribute 'get'"⟩
    else .ok {}

/-- Whether nothing is known. -/
def isUnknown (p : Place) : Bool :=
  p.filename.isNone && p.line.isNone && p.column.isNone && p.testName.isNone && p.row.isNone &&
    p.stepId.isNone && p.stepType.isNone && p.excerpt.isNone && p.bindings.isNone &&
    p.element.isNone && p.other.isNone

/-- A place completed by a surrounding one. -/
def within (inner around : Place) : Place where
  filename := orPresent inner.filename around.filename
  line := orPresent inner.line around.line
  column := orPresent inner.column around.column
  testName := orPresent inner.testName around.testName
  row := orPresent inner.row around.row
  stepId := orPresent inner.stepId around.stepId
  stepType := orPresent inner.stepType around.stepType
  excerpt := inner.excerpt <|> around.excerpt
  bindings := orPresent inner.bindings around.bindings
  element := orPresent inner.element around.element
  other := orPresent inner.other around.other
  origins := if inner.element.isSome then inner.origins else around.origins

/-- The text of a part between two texts; nothing of one that is absent or empty. -/
def named (before after : String) (part : Option Value) : Except Fault (Option String) :=
  match part.filter Value.isTruthy with
  | some v => do return some (before ++ (← v.plainText) ++ after)
  | none => .ok none

/-- The text of a position, counted from one, behind another text; nothing of an absent one. -/
def counted (before : String) (part : Option Value) : Except Fault (Option String) :=
  match part.filter (· != .null) with
  | some v => do return some (before ++ (← v.nextText))
  | none => .ok none

/-- A text followed by another one, if it is there at all. -/
def followed (first second : Except Fault (Option String)) (ending : String) :
    Except Fault String := do
  match ← first with
  | some s => return s ++ (← second).getD "" ++ ending
  | none => return ""

/-- The lines that say where: the file, the test and the step. -/
def locationText (indent : String) (p : Place) : Except Fault String := do
  let file := (← named (indent ++ "in \"") "\"" p.filename).getD
    (indent ++ "in \"<unicode string>\"")
  let position ← followed (counted ", line " p.line) (counted ", column " p.column) ""
  let test ← followed (named (indent ++ "in test \"") "\"" p.testName)
    (counted ", data row " p.row) "\n"
  let step ← followed (named (indent ++ "on step \"") "\"" p.stepId)
    (named " (" ")" p.stepType) "\n"
  return file ++ position ++ "\n" ++ test ++ step

end Place

namespace Excerpt

mutual

/-- A value as an excerpt shows it: handles are replaced, and sequences of any kind are lists. -/
def shielded : Value → Value
  | .list xs => .list (shieldedAll xs)
  | .tuple xs => .list (shieldedAll xs)
  | .set xs => .list (shieldedAll xs)
  | .dict es => .dict (shieldedEntries es)
  | .handle _ | .inner .. => .text "<runtime object>"
  | v => v

def shieldedAll : List Value → List Value
  | [] => []
  | v :: rest => shielded v :: shieldedAll rest

def shieldedEntries : List (Value × Value) → List (Value × Value)
  | [] => []
  | (k, v) :: rest => (k, shielded v) :: shieldedEntries rest

end

/-- Lines behind an indentation, blank ones dropped; without an indentation all is kept. -/
def indented (indent s : String) : String :=
  if indent.isEmpty then s
  else "\n".intercalate (((Text.lines s).filter (!Text.isBlankText ·)).map (indent ++ ·))

/-- A value as indented lines, given where its dates come from. -/
def lines (indent : String) (origins : Origins) (v : Value) : Except Fault String := do
  return indented indent (← Yaml.write origins.places (shielded v))

/-- The indentation that a value asks for: a text, or a number of blanks. -/
def indentOf : Value → Except Fault String
  | .text s => .ok s
  | .int i => Json.Layout.blanks (max 0 i)
  | .bool true => .ok " "
  | _ => .ok ""

/-- What an excerpt shows of the variables. -/
def variableLines (indent : String) : Value → Except Fault String
  | .dict es => do
    let shown ← lines indent .unknown (.record [("variables", .dict es)])
    return shown ++ "\n" ++ indent ++ " ---\n"
  | v => .error (.type ("'" ++ v.fullTypeName ++ "' object is not a mapping"))

/-- The excerpt that belongs to a place: that of the document read, or else the element with the
variables before it. -/
def text (indent : String) (p : Place) : Except Fault String :=
  match p.excerpt with
  | some s => .ok (indented indent s)
  | none =>
    match p.element.filter Value.isTruthy with
    | none => .ok ""
    | some element => do
      let head ← match p.bindings.filter Value.isTruthy with
        | some v => variableLines indent v
        | none => .ok ""
      return indent ++ " ...\n" ++ head ++ (← lines indent p.origins element) ++ "\n"

end Excerpt

/-- The report of a message at a place. -/
def Place.report (message : Value) (p : Place) : Except Fault Value :=
  if p.isUnknown then .ok message
  else do
    let begun ← message.followedBy "\n"
    let begun ← begun.followedBy (← p.locationText "    ")
    begun.followedBy (← Excerpt.text "        " p)

/-- An assertion failure that was collected. -/
structure SoftError where
  message : String
  stepId : Option String
  stepType : Option String
  expected : Value
  actual : Value
  timestamp : Option Moment := none
deriving Repr, BEq, Inhabited

/-- Why an error was raised. -/
inductive Reason where
  | block
  | plugin
  | schema
  | runtime
  | unknownBlock (type : Value)
  | unknownProcedure (name : Value)
  | unresolved
  | hardAssertion (expected actual : Value)
  | softAssertions (errors : List SoftError)
  | leaf (trace cause : Option String)
  | cancelled
deriving Repr, BEq, Inhabited

namespace Reason

/-- The name of a kind of error in reports. -/
def label : Reason → String
  | block => "BlockError"
  | plugin => "PluginError"
  | schema => "BlockSchemaError"
  | runtime => "BlockRuntimeError"
  | unknownBlock _ => "UnknownBlockType"
  | unknownProcedure _ => "ProcedureNotFound"
  | unresolved => "ResolveError"
  | hardAssertion _ _ => "HardAssertionFailed"
  | softAssertions _ => "SoftAssertionAggregate"
  | leaf _ _ => "LeafExecutionError"
  | cancelled => "ExecutionCancelled"

/-- The plain kind of error of a label. -/
def ofLabel? (s : String) : Option Reason :=
  [block, plugin, schema, runtime, unresolved, leaf none none, cancelled].find? (·.label == s)

/-- The stable code of a kind of error. -/
def code : Reason → String
  | block => "block_error"
  | plugin => "plugin_error"
  | schema => "schema_error"
  | runtime => "runtime_error"
  | unknownBlock _ => "unknown_block_type"
  | unknownProcedure _ => "procedure_not_found"
  | unresolved => "resolve_error"
  | hardAssertion _ _ => "assertion_failed"
  | softAssertions _ => "soft_assertions_failed"
  | leaf _ _ => "leaf_error"
  | cancelled => "cancelled"

/-- Errors that arise while a step runs. -/
def isRuntime : Reason → Bool
  | block | plugin | schema => false
  | _ => true

/-- Errors that report assertions. -/
def isAssertion : Reason → Bool
  | hardAssertion _ _ | softAssertions _ => true
  | _ => false

end Reason

/-- An error of a block or of the engine. Its message is a text, unless a block made it
otherwise. -/
structure BlockError where
  reason : Reason
  message : Value
  place : Place := {}
deriving Repr, BEq, Inhabited

/-- What ends a step before it is done: a skip, an error, a fault of a computation, or a record
that cannot be made of what it is given. -/
inductive Failure where
  | skip (reason : Value)
  | raised (e : BlockError)
  | fault (kind : FaultKind) (argument : Option Value)
  | invalid (e : Invalid)
deriving Repr, BEq, Inhabited

namespace BlockError

/-- An error with a text for a message. -/
def of (reason : Reason) (message : String) : BlockError := { reason, message := .text message }

/-- The error of a type no block is registered for. -/
def unknownBlock (type : String) : BlockError :=
  of (.unknownBlock (.text type)) ("Unknown block type: " ++ Quoted.ofText type)

/-- The error of a value that was given for the type of a block. -/
def unknownBlockOf (type : Value) : Except Fault BlockError := do
  return of (.unknownBlock type) ("Unknown block type: " ++ (← type.quoted))

/-- The error of a name no procedure has. -/
def unknownProcedure (name : String) : BlockError :=
  of (.unknownProcedure (.text name)) ("Procedure not found: " ++ Quoted.ofText name)

/-- The error of a value that was given for the name of a procedure. -/
def unknownProcedureOf (name : Value) : Except Fault BlockError := do
  return of (.unknownProcedure name) ("Procedure not found: " ++ (← name.quoted))

/-- The error of a run that was aborted. -/
def cancelled : BlockError := of .cancelled "Execution cancelled"

/-- An error of a block itself. -/
def leaf (message : String) : BlockError := of (.leaf none none) message

/-- All collected assertion failures as one error. -/
def ofSoft (errors : List SoftError) : BlockError :=
  let line (e : Nat × SoftError) : String := "\n  " ++ Nat.repr (e.1 + 1) ++ ". " ++ e.2.message
  of (.softAssertions errors)
    (Nat.repr errors.length ++ " assertion(s) failed:" ++
      String.join (((List.range errors.length).zip errors).map line))

/-- An error at a place, what is known of it already aside. -/
def at_ (e : BlockError) (around : Place) : BlockError := { e with place := e.place.within around }

/-- The report of an error with its place. Only a report that is a text can be shown. -/
def text (e : BlockError) : Except Fault String := do
  match ← e.place.report e.message with
  | .text s => return s
  | v => .error (.type ("__str__ returned non-string (type " ++ v.fullTypeName ++ ")"))

end BlockError

/-- What a result tells of a failure. The trace stands for a record of how a fault arose. -/
structure ErrorInfo where
  message : String
  trace : Option String
  code : Option String
deriving Repr, BEq, Inhabited

namespace Failure

/-- A fault of a computation as a failure. -/
def ofFault (f : Fault) : Failure := fault f.kind (some (.text f.message))

instance : Coe BlockError Failure := ⟨raised⟩

/-- The name of a kind of failure in reports. -/
def label : Failure → String
  | skip _ => "SkipStep"
  | raised e => e.reason.label
  | fault kind _ => kind.label
  | invalid _ => "ValidationError"

/-- What a failure says. A key that is missing is shown in quotes. -/
def text : Failure → Except Fault String
  | skip reason => reason.plainText
  | raised e => e.text
  | fault _ none => .ok ""
  | fault .key (some v) => v.quoted
  | fault _ (some v) => v.plainText
  | invalid e => .ok e.text

/-- What stands for the record of how a fault arose. -/
def traceMark : String := "<trace>\n"

/-- The trace of a failure: only an error that wraps another failure has one. -/
def trace : Failure → Option String
  | raised ⟨.leaf trace _, _, _⟩ => trace
  | _ => none

/-- The code of a failure. -/
def code : Failure → String
  | raised e => e.reason.code
  | f => f.label

/-- A message for a record: it has to be a text. -/
def recordText (model : String) (v : Value) : Except Failure String :=
  match Check.text v with
  | .ok s => .ok s
  | .error issues => .error (invalid ⟨model, issues.map (Issue.within (.name "message"))⟩)

/-- What a result tells of a failure. -/
def info (f : Failure) : Except Failure ErrorInfo := do
  let message ← match f with
    | raised e => .ok e.message
    | f => (f.text.mapError ofFault).map Value.text
  let message ← recordText "ErrorInfo" (if message.isTruthy then message else .text f.label)
  return ⟨message, f.trace, some f.code⟩

/-- A failure that is no runtime error, wrapped as one. -/
def wrapped (f : Failure) : Except Failure BlockError := do
  let s ← f.text.mapError ofFault
  return .of (.leaf (some traceMark) (some f.label)) (if s.isEmpty then f.label else s)

end Failure

end BlockSuite
