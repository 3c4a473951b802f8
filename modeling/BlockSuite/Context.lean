import BlockSuite.Action
import BlockSuite.Message
import BlockSuite.Registry
import BlockSuite.Suite
import BlockSuite.Template

/-!
Contexts: the state of one run of a test. A context binds variables, knows the row of data it
runs for, collects assertion failures and tells which step is being evaluated and how many call
frames are open. What all contexts of a session share, the procedures, the request to stop and
the journal, travels with the context that is running.
-/

namespace BlockSuite

/-- How urgent a log record is. -/
inductive Level where
  | debug
  | info
  | warning
  | error
  | critical
deriving DecidableEq, Repr, Inhabited

namespace Level

/-- The name of a level. -/
def name : Level → String
  | debug => "DEBUG"
  | info => "INFO"
  | warning => "WARNING"
  | error => "ERROR"
  | critical => "CRITICAL"

def rank : Level → Nat
  | debug => 10
  | info => 20
  | warning => 30
  | error => 40
  | critical => 50

/-- All levels. -/
def every : List Level := [debug, info, warning, error, critical]

/-- The level of a name. -/
def ofName? (s : String) : Option Level := every.find? (·.name == s)

/-- The ways to write a record, each with the level it writes at. -/
def ways : List (String × Level) :=
  [("debug", debug), ("info", info), ("warning", warning), ("warn", warning), ("error", error),
    ("exception", error), ("critical", critical)]

end Level

/-- What was written during a session, newest first: log records from a level on, and notes. -/
structure Journal where
  level : Level := .info
  records : List (Level × String) := []
  notes : List String := []
deriving Repr, Inhabited

namespace Journal

/-- Whether records of a level are kept. -/
def keeps (j : Journal) (level : Level) : Bool := j.level.rank ≤ level.rank

/-- Writes a record, if records of its level are kept. -/
def log (j : Journal) (level : Level) (text : String) : Journal :=
  if j.keeps level then { j with records := (level, text) :: j.records } else j

/-- Writes a note. -/
def note (j : Journal) (text : String) : Journal := { j with notes := text :: j.notes }

end Journal

/-- What the contexts of a session share. -/
structure Shared where
  procedures : Layers Procedure := Layers.empty
  cancelled : Bool := false
  journal : Journal := {}
deriving Repr, Inhabited

/-- The state of one run. -/
structure Context where
  bindings : Dict Value := []
  row : Option Row := none
  position : Option Position := none
  soft : Bool := false
  softErrors : List SoftError := []
  resources : Dict Value := []
  testName : Option String := none
  currentStep : Option Step := none
  callDepth : Nat := 0
  shared : Shared := {}
deriving Repr, Inhabited

/-- An action of a run. -/
abbrev Run (α : Type) := Action Context α

namespace Context

/-- Where placeholders are looked up: in the row of data, then in the variables. -/
def scopes (c : Context) : Scopes :=
  match c.row with
  | some row => [row.values, c.bindings]
  | none => [c.bindings]

/-- A context for another run that starts from the variables of this one. A name that is absent
or empty is inherited. -/
def fork (c : Context) (bindings : Dict Value) (row : Option Row)
    (position : Option Position) (soft : Option Bool) (testName : Option String) : Context :=
  { bindings := c.bindings.update bindings
    row
    position
    soft := soft.getD c.soft
    resources := c.resources
    testName := if testName.getD "" == "" then c.testName else testName
    shared := c.shared }

/-- The position of the row as a value. -/
def rowValue (c : Context) : Value := (c.position.map Position.toValue).getD .null

/-- What the records of a run are marked with. -/
def marks (c : Context) : Dict Value :=
  [("test_name", .ofText? c.testName), ("data_iteration", c.rowValue)]

/-- The names that every record has of its own, which no mark may take. -/
def recordFields : List String :=
  ["name", "msg", "args", "levelname", "levelno", "pathname", "filename", "module", "exc_info",
    "exc_text", "stack_info", "lineno", "funcName", "created", "msecs", "relativeCreated",
    "thread", "threadName", "processName", "process", "message", "asctime"]

/-- How the records with some marks begin: with the test and the position of its row. -/
def logHead (marks : Dict Value) : Except Fault String := do
  let name := (marks.get? "test_name").filter Value.isTruthy
  let name := name.getD (.text "blocks")
  let name ← match (marks.get? "data_iteration").filter (· != .null) with
    | some row => name.followedBy ("[" ++ (← row.plainText) ++ "]")
    | none => .ok name
  return "[" ++ (← name.plainText) ++ "] "

/-- Changes the journal. -/
def onJournal (change : Journal → Journal) (c : Context) : Context :=
  { c with shared := { c.shared with journal := change c.shared.journal } }

/-- Writes a log record under a head. The head is part of the template, and data that is not null
is one more argument at its end. A record that is not kept is not written out. -/
def logUnder (head : Except Fault String) (level : Level) (template : String)
    (arguments : List Value) (data : Value := .null) : Run Unit := do
  if (← Action.get).shared.journal.keeps level then
    let (template, arguments) := match data with
      | .null => (template, arguments)
      | v => (template ++ " %r", arguments ++ [v])
    let text ← Action.compute (do Message.render ((← head) ++ template) arguments)
    Action.modify (onJournal (·.log level text))

/-- Writes a log record of the run, with more marks. -/
def logMarked (more : Dict Value) (level : Level) (template : String) (arguments : List Value)
    (data : Value := .null) : Run Unit := do
  let marks := (← Action.get).marks.update more
  let head := match marks.keys.find? recordFields.contains with
    | some name => .error ⟨.key, "Attempt to overwrite " ++ Quoted.ofText name ++ " in LogRecord"⟩
    | none => logHead marks
  logUnder head level template arguments data

/-- Writes a log record of the run. -/
def log (level : Level) (template : String) (arguments : List Value)
    (data : Value := .null) : Run Unit :=
  logMarked [] level template arguments data

/-- Writes a note into the journal. -/
def note (text : String) : Run Unit := Action.modify (onJournal (·.note text))

/-- Binds variables silently. -/
def bindAll (bindings : Dict Value) : Run Unit :=
  Action.modify fun c => { c with bindings := c.bindings.update bindings }

/-- Binds a variable. -/
def setVariable (name : String) (v : Value) : Run Unit := do
  bindAll [(name, v)]
  log .debug "Set variable %s" [.text name] v

/-- The value a path leads to among the variables, null if it leads nowhere. -/
def readPath (path : Value) : Run Value := do
  let c ← Action.get
  Action.compute do
    let p ← Path.ofValue path
    return (← Scopes.lookup [c.bindings] p).getD .null

/-- Fills the placeholders in a value. -/
def fill (v : Value) : Run Value := do
  let c ← Action.get
  Action.compute (Template.fillValue c.scopes v)

/-- Asks for the run to stop. -/
def abort : Run Unit :=
  Action.modify fun c => { c with shared := { c.shared with cancelled := true } }

/-- Fails if the run is asked to stop. -/
def ensureRunning : Run Unit := do
  if (← Action.get).shared.cancelled then Action.fail (.raised .cancelled)

/-- Waits for an operation, unless the run is asked to stop before or while it waits. An operation
that is still pending after it has run its course never ends. -/
def guard (operation : Run (Option Value)) : Run Value := do
  ensureRunning
  match ← operation with
  | some v => return v
  | none =>
    ensureRunning
    Action.exhaust

/-- Defines a procedure under a name. -/
def defineProcedure (name : String) (p : Procedure) : Run Unit :=
  Action.modify fun c =>
    { c with shared := { c.shared with procedures := c.shared.procedures.define name p } }

/-- The procedure of a name. -/
def procedure (name : String) : Run Procedure := do
  match (← Action.get).shared.procedures.lookup name with
  | some p => return p
  | none => Action.fail (.raised (.unknownProcedure name))

/-- The state of a run in short. -/
def summary (c : Context) : Value :=
  let sorted (names : List String) : Value :=
    .list ((names.mergeSort fun a b => decide (a ≤ b)).map .text)
  .record [("call_depth", .int c.callDepth),
    ("current_step", .ofText? (c.currentStep.map (·.id))),
    ("data_index", c.rowValue),
    ("data", (c.row.map fun r => Value.record r.values).getD .null),
    ("test_name", .ofText? c.testName), ("soft", .bool c.soft),
    ("soft_errors", .int c.softErrors.length), ("cancelled", .bool c.shared.cancelled),
    ("resources", sorted c.resources.keys), ("procedures", sorted c.shared.procedures.names),
    ("variables", sorted c.bindings.keys)]

@[simp] theorem abort_cancelled (c : Context) : (abort c).2.shared.cancelled = true := rfl

end Context

end BlockSuite
