import BlockSuite.Failure
import BlockSuite.Step

/-!
Results: what was observed of steps and of test cases. The result of a step holds the results of
the nested steps that produced its inputs and of the steps run on its behalf.
-/

namespace BlockSuite

/-- Outcomes of steps and test cases. -/
inductive Status where
  | passed
  | failed
  | skipped
  | error
deriving DecidableEq, Repr, Inhabited

namespace Status

/-- The name of an outcome. -/
def name : Status → String
  | passed => "passed"
  | failed => "failed"
  | skipped => "skipped"
  | error => "error"

/-- All outcomes. -/
def every : List Status := [passed, failed, skipped, error]

/-- Reads an outcome by its name. -/
def check : Check Status := fun v =>
  let refused : Checked Status := Checked.refuse (.notMember (every.map name)) v
  match v with
  | .text s =>
    match every.find? (·.name == s) with
    | some status => .ok status
    | none => refused
  | _ => refused

end Status

namespace ErrorInfo

def form : Form ErrorInfo :=
  ErrorInfo.mk <$> Form.required "message" Check.text <*>
    Form.field ["trace"] (Check.optional Check.text) none <*>
    Form.field ["code"] (Check.optional Check.text) none

def check : Check ErrorInfo := form.check "ErrorInfo"

/-- The description of a failure as a record. -/
def record (e : ErrorInfo) : Value :=
  .record [("message", .text e.message), ("trace", .ofText? e.trace), ("code", .ofText? e.code)]

end ErrorInfo

namespace SoftError

def form : Form SoftError :=
  SoftError.mk <$> Form.required "message" Check.text <*>
    Form.field ["step_id"] (Check.optional Check.text) none <*>
    Form.field ["step_type"] (Check.optional Check.text) none <*>
    Form.field ["expected"] Check.any .null <*> Form.field ["actual"] Check.any .null <*>
    Form.field ["timestamp"] (fun v => (Check.moment v).map some) none

def check : Check SoftError := form.check "SoftAssertionError"

/-- The members of a collected failure, its time aside. -/
def members (d : Display) (e : SoftError) : Dict Value :=
  [("message", .text e.message), ("step_id", .ofText? e.stepId),
    ("step_type", .ofText? e.stepType), ("expected", d.literal e.expected),
    ("actual", d.literal e.actual)]

/-- A collected failure as a record, its time aside. -/
def record (d : Display) (e : SoftError) : Value := .record (e.members d)

/-- A collected failure as a record with its time. -/
def timedRecord (d : Display) (e : SoftError) : Value :=
  .record (e.members d ++ [("timestamp", Value.ofMoment? e.timestamp)])

end SoftError

/-- The result of a step. -/
structure StepResult where
  stepId : String
  stepType : String
  status : Status := .passed
  duration : Double := .ofInt 0
  output : Value := .null
  error : Option ErrorInfo := none
  artifact : Value := .null
  inputs : List (String × StepResult) := []
  children : List StepResult := []
  soft : Bool := false
  returned : Bool := false
  failure : Option Failure := none
deriving Repr, Inhabited

namespace StepResult

/-- The result of a step that has not run yet. -/
def blank (step : Step) : StepResult := { stepId := step.id, stepType := step.type }

/-- Failures that stop the list of steps they occur in: all but collected ones. -/
def isFatal (r : StepResult) : Bool :=
  (match r.status with
    | .failed | .error => true
    | _ => false) && !r.soft

def isSkipped (r : StepResult) : Bool := r.status == .skipped

/-- Whether the list of steps ends with this result. -/
def stops (r : StepResult) : Bool := r.isFatal || r.returned || r.isSkipped

mutual

/-- A result and all results inside it, inputs before children. -/
def walk : StepResult → List StepResult
  | ⟨id, type, status, time, output, error, artifact, inputs, children, soft, returned, failure⟩ =>
    ⟨id, type, status, time, output, error, artifact, inputs, children, soft, returned, failure⟩ ::
      (walkInputs inputs ++ walkAll children)

def walkInputs : List (String × StepResult) → List StepResult
  | [] => []
  | (_, r) :: rest => walk r ++ walkInputs rest

def walkAll : List StepResult → List StepResult
  | [] => []
  | r :: rest => walk r ++ walkAll rest

end

mutual

/-- A result as a record. What a step raised is never written; a whole record says so. -/
def record (whole : Bool) : StepResult → Value
  | ⟨id, type, status, duration, output, error, artifact, inputs, children, soft, returned, _⟩ =>
    .record ([("step_id", .text id), ("step_type", .text type), ("status", .text status.name),
      ("duration", .float duration), ("output", output),
      ("error", (error.map ErrorInfo.record).getD .null),
      ("artifact", artifact), ("inputs", .dict (inputRecords whole inputs)),
      ("children", .list (records whole children)), ("soft", .bool soft),
      ("returned", .bool returned)] ++ if whole then [("exception", .null)] else [])

def inputRecords (whole : Bool) : List (String × StepResult) → List (Value × Value)
  | [] => []
  | (name, r) :: rest => (.text name, record whole r) :: inputRecords whole rest

def records (whole : Bool) : List StepResult → List Value
  | [] => []
  | r :: rest => record whole r :: records whole rest

end

/-- The form of a result whose inputs and children were checked before. -/
def form (inputs : Option (Checked (List (String × StepResult))))
    (children : Option (Checked (List StepResult))) : Form StepResult :=
  (fun id type status duration output error artifact inputs children soft returned
      (_ : Unit) =>
    (⟨id, type, status, duration, output, error, artifact, inputs, children, soft, returned, none⟩ :
      StepResult)) <$>
    Form.required "step_id" Check.text <*> Form.required "step_type" Check.text <*>
    Form.field ["status"] Status.check .passed <*>
    Form.field ["duration"] Check.number (.ofInt 0) <*>
    Form.field ["output"] Check.any .null <*>
    Form.field ["error"] (Check.optional ErrorInfo.check) none <*>
    Form.field ["artifact"] Check.any .null <*> Form.known "inputs" inputs [] <*>
    Form.known "children" children [] <*> Form.field ["soft"] Check.truth false <*>
    Form.field ["returned"] Check.truth false <*>
    Form.field ["exception"] (fun v => match v with
      | .null => .ok ()
      | v => Checked.refuse (.notInstance "BaseException") v) ()

mutual

/-- Reads a result from a record. -/
def check : Value → Checked StepResult
  | .dict es => (form (inputsIn es) (childrenIn es)).close es
  | v => Checked.refuse (.notRecord "StepResult") v

/-- The inputs among the members of a result. -/
def inputsIn : List (Value × Value) → Option (Checked (List (String × StepResult)))
  | [] => none
  | (.text "inputs", v) :: _ => some (checkInputs v)
  | _ :: rest => inputsIn rest

def checkInputs : Value → Checked (List (String × StepResult))
  | .dict es => (checkEntries es).map Dict.ofPairs
  | v => Checked.refuse .notMapping v

def checkEntries : List (Value × Value) → Checked (List (String × StepResult))
  | [] => .ok []
  | (k, v) :: rest =>
    let name := ((Check.text k).within (.name "[key]")).within (Key.ofValue k)
    let entry := name.both ((check v).within (Key.ofValue k))
    (entry.both (checkEntries rest)).map fun p => p.1 :: p.2

/-- The children among the members of a result. -/
def childrenIn : List (Value × Value) → Option (Checked (List StepResult))
  | [] => none
  | (.text "children", v) :: _ => some (checkAll v)
  | _ :: rest => childrenIn rest

/-- Reads a list of results. -/
def checkAll : Value → Checked (List StepResult)
  | .list xs => checkItems 0 xs
  | .tuple xs => checkItems 0 xs
  | .set xs => checkItems 0 xs
  | v => Checked.refuse .notList v

def checkItems (start : Nat) : List Value → Checked (List StepResult)
  | [] => .ok []
  | v :: rest =>
    (((check v).within (.index start)).both (checkItems (start + 1) rest)).map
      fun p => p.1 :: p.2

end

end StepResult

/-- When a test ran, as far as a record tells. -/
structure Times where
  duration : Double := .ofInt 0
  started : Option Moment := none
  finished : Option Moment := none
deriving Repr, Inhabited

/-- The result of a run of a test case, or of a phase around the cases of a suite. -/
structure TestResult where
  testId : String
  testName : String
  status : Status := .passed
  steps : List StepResult := []
  error : Option ErrorInfo := none
  finished : Bool := false
  row : Option Int := none
  lifecycle : Option String := none
  softErrors : List SoftError := []
  times : Times := {}
deriving Repr, Inhabited

namespace TestResult

def form : Form TestResult :=
  (fun id name status duration steps error started (finished : Option Moment) row lifecycle soft =>
      (⟨id, name, status, steps, error, finished.isSome, row, lifecycle, soft,
        ⟨duration, started, finished⟩⟩ : TestResult)) <$>
    Form.required "test_id" Check.text <*> Form.required "test_name" Check.text <*>
    Form.field ["status"] Status.check .passed <*>
    Form.field ["duration"] Check.number (.ofInt 0) <*>
    Form.field ["steps"] StepResult.checkAll [] <*>
    Form.field ["error"] (Check.optional ErrorInfo.check) none <*>
    Form.field ["started_at"] (fun v => (Check.moment v).map some) none <*>
    Form.field ["finished_at"] (Check.optional Check.moment) none <*>
    Form.field ["data_iteration"] (Check.optional Check.whole) none <*>
    Form.field ["lifecycle"] (Check.optional Check.text) none <*>
    Form.field ["soft_errors"] (Check.list SoftError.check) []

def check : Check TestResult := form.check "TestResult"

/-- A result as a record, times aside. -/
def record (r : TestResult) : Value :=
  .record [("test_id", .text r.testId), ("test_name", .text r.testName),
    ("status", .text r.status.name), ("steps", .list (StepResult.records false r.steps)),
    ("error", (r.error.map ErrorInfo.record).getD .null),
    ("data_iteration", (r.row.map Value.int).getD .null), ("lifecycle", .ofText? r.lifecycle),
    ("soft_errors", .list (r.softErrors.map (SoftError.record .plain)))]

/-- A result as a record with its times. -/
def timedRecord (r : TestResult) : Value :=
  .record [("test_id", .text r.testId), ("test_name", .text r.testName),
    ("status", .text r.status.name), ("duration", .float r.times.duration),
    ("steps", .list (StepResult.records true r.steps)),
    ("error", (r.error.map ErrorInfo.record).getD .null),
    ("started_at", .ofMoment? r.times.started), ("finished_at", .ofMoment? r.times.finished),
    ("data_iteration", (r.row.map Value.int).getD .null), ("lifecycle", .ofText? r.lifecycle),
    ("soft_errors", .list (r.softErrors.map (SoftError.timedRecord .plain)))]

/-- The innermost failed step of the first failed step: the last failed result inside it. -/
def failedStep? (r : TestResult) : Option StepResult :=
  match r.steps.find? (·.isFatal) with
  | none => none
  | some step => (step.walk.filter (·.isFatal)).getLast?

/-- The report of a test that did not pass, with the step at which it failed. -/
def failureText (r : TestResult) (filename : Option String) : Except Fault String := do
  let place : Place :=
    { filename := some (.ofText? filename)
      testName := some (.text r.testName)
      row := some ((r.row.map Value.int).getD .null) }
  let place := match r.failedStep? with
    | some step =>
      { place with stepId := some (.text step.stepId), stepType := some (.text step.stepType) }
    | none => place
  let message := match r.error with
    | some e =>
      e.message ++
        (match e.trace with
          | some t => if t.isEmpty then "" else "\n" ++ t
          | none => "")
    | none => "Test " ++ r.status.name
  return message ++ "\n" ++ (← place.locationText "    ")

end TestResult

end BlockSuite
