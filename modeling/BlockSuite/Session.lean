import BlockSuite.Block.Custom
import BlockSuite.Machine

/-!
Sessions: the run of a suite. A session works in a scope of an environment, in which the
procedures of the suite are defined and have blocks of their own. The phase before all cases and
the one after them share a context; every run of a case starts from a fork of it. The steps
around a case that follow it always run, and what a run fails with is a result.
-/

namespace BlockSuite

/-- A run of a suite. -/
structure Session where
  suite : Suite
  environment : Environment
  context : Context
  setupError : Option TestResult := none
deriving Inhabited

/-- The state of a run of a case: its context and the result under construction. -/
structure Trial where
  context : Context
  result : TestResult
deriving Inhabited

namespace TestResult

/-- Closes a result with a status, and what it failed with, if anything. -/
def finish (r : TestResult) (status : Status) (f : Option Failure) : Except Failure TestResult := do
  match f with
  | some f => return { r with status, error := some (← f.info), finished := true }
  | none => return { r with status, finished := true }

end TestResult

namespace Trial

/-- An action on a trial. -/
abbrev Act (α : Type) := Action Trial α

/-- An action on the context of a trial. -/
def inContext {α : Type} (x : Run α) : Act α :=
  Action.zoom Trial.context (fun t c => { t with context := c }) x

/-- Changes the result. -/
def note (change : TestResult → TestResult) : Act Unit :=
  Action.modify fun t => { t with result := change t.result }

/-- Closes the result. -/
def close (status : Status) (f : Option Failure) : Act Unit := do
  let r ← Action.lift ((← Action.get).result.finish status f)
  note fun _ => r

/-- The first result that fails or skips. -/
def firstFailure (results : List StepResult) : Option StepResult :=
  results.find? fun r => r.isFatal || r.isSkipped

/-- Runs a list of steps and keeps its results; gives the first that fails or skips. -/
def runPart (m : Machine) (steps : List Step) : Act (Option StepResult) := do
  let results ← inContext (m.runSteps steps)
  note fun r => { r with steps := r.steps ++ results }
  return firstFailure results

/-- Runs lists of steps up to the first that fails or skips. -/
def runUntilFailure (m : Machine) : List (List Step) → Act (Option StepResult)
  | [] => return none
  | steps :: rest => do
    match ← runPart m steps with
    | some r => return some r
    | none => runUntilFailure m rest

/-- Runs all of some lists of steps; gives a failure that was known or the first among them. -/
def runAll (m : Machine) (known : Option StepResult) : List (List Step) → Act (Option StepResult)
  | [] => return known
  | steps :: rest => do
    let failure ← runPart m steps
    runAll m (known <|> failure) rest

/-- Settles the status of a run from its first failure and the collected ones. -/
def settle (failure : Option StepResult) : Act Unit := do
  let errors ← inContext Context.takeSoftErrors
  if !errors.isEmpty then note fun r => { r with softErrors := errors }
  match failure with
  | none =>
    if errors.isEmpty then close .passed none
    else close .failed (some (.raised (.ofSoft errors)))
  | some step =>
    if step.isSkipped then
      close .skipped none
      note fun r => { r with error := step.error }
    else
      close .failed step.failure
      note fun r => { r with error := r.error <|> step.error }

/-- Runs a case with the steps around it. -/
def run (m : Machine) (suite : Suite) (c : Case) : Act Unit := do
  let failure ← runUntilFailure m [suite.beforeEach, c.beforeEach, c.steps]
  let failure ← runAll m failure [c.afterEach, suite.afterEach]
  settle failure

end Trial

namespace Session

/-- An action on a session. -/
abbrev Act (α : Type) := Action Session α

/-- An action on the shared context of a session. -/
def inContext {α : Type} (x : Run α) : Act α :=
  Action.zoom Session.context (fun s c => { s with context := c }) x

/-- The scope of an environment in which a suite runs. -/
def prepare (suite : Suite) : Install :=
  Action.each (fun p : Procedure => do
    Environment.defineProcedure p.name p
    Environment.addBlock p.block) suite.procedures

/-- Starts a session; warnings are added to those there were. -/
def start (s : Setup) (suite : Suite) (resources : Dict Value) (journal : Journal) :
    Outcome Session × List String :=
  let (outcome, prepared) := prepare suite { s with environment := s.environment.scope }
  let e := prepared.environment
  let context : Context :=
    { e.context suite.initialVariables none journal with
      resources
      testName := some suite.name }
  (match outcome with
    | .done _ => .done { suite, environment := e, context }
    | .failed f => .failed f
    | .exhausted => .exhausted, prepared.warnings)

/-- Runs a phase around all cases. It has a result only if it fails or skips. -/
def runPhase (name : String) (steps : List Step) (event : Hooks → Option (Suite → Run Unit)) :
    Act (Option TestResult) := do
  let s ← Action.get
  let blank : TestResult :=
    { testId := name, testName := s.suite.name ++ " " ++ name, lifecycle := some name }
  inContext do
    let outcome ← Action.attempt do
      Hooks.runAll s.environment.hooks fun h => (event h).map fun f => f s.suite
      s.environment.machine.runSteps steps
    match outcome with
    | .error f =>
      Context.log .error "Lifecycle %s raised an unexpected error" [.text name]
      return some (← Action.lift (blank.finish .error (some f)))
    | .ok results =>
      match Trial.firstFailure results with
      | none => return none
      | some r =>
        Context.log .error "Lifecycle %s failed on step %s" [.text name, .text r.stepId]
        return some (← Action.lift ({ blank with steps := results }.finish .error r.failure))

/-- The phase before all cases. -/
def beforeAll : Act (Option TestResult) := do
  let r ← runPhase "before_all" (← Action.get).suite.beforeAll Hooks.beforeAll
  Action.modify fun s => { s with setupError := r }
  return r

/-- The phase after all cases. -/
def afterAll : Act (Option TestResult) := do
  runPhase "after_all" (← Action.get).suite.afterAll Hooks.afterAll

/-- Runs a case in a trial: what it fails with becomes an error of the result. -/
def runTrial (s : Session) (c : Case) : Trial.Act Unit := do
  let hooks := s.environment.hooks
  let outcome ← Action.attempt do
    Trial.inContext (Hooks.runAll hooks fun h => h.beforeTest.map fun f => f c)
    Trial.run s.environment.machine s.suite c
  let closed ← match outcome with
    | .ok _ => pure (.ok ())
    | .error f => do
      Trial.inContext (Context.log .error "Test case raised an unexpected error" [])
      Trial.note fun r => { r with status := .error }
      Action.attempt (Trial.close .error (some f))
  let r := (← Action.get).result
  match ← Action.attempt
      (Trial.inContext (Hooks.runAll hooks fun h => h.afterTest.map fun f => f c r)) with
  | .ok _ => pure ()
  | .error _ => Trial.inContext (Context.log .error "Hook after_test failed" [])
  Action.lift closed

/-- The result of a case that does not run since the phase before all cases failed. -/
def notRun (r : TestResult) : TestResult :=
  { r with
    status := .skipped
    error := some ⟨"before_all failed", none, some "skipped"⟩
    finished := true }

/-- Runs a case, for one of its rows if it has any. -/
def runCase (c : Case) (position : Option Position) : Act TestResult := do
  let s ← Action.get
  let row ← Action.compute (position.mapM fun p => p.pick c.data)
  let blank : TestResult :=
    { testId := c.key
      testName := c.runName position
      row := position.map Position.index }
  if s.setupError.isSome then return notRun blank
  let soft := c.soft.getD s.environment.settings.soft
  let forked := s.context.fork ((row.map (·.values)).getD []) row position (some soft) (some c.name)
  let (outcome, t) := runTrial s c ⟨forked, blank⟩
  Action.modify fun s => { s with context := { s.context with shared := t.context.shared } }
  match outcome with
  | .done _ => return t.result
  | .failed f => Action.fail f
  | .exhausted => Action.exhaust

/-- Runs cases in order and logs the outcome of each. -/
def runCases : List (Case × Option Position) → Act (List TestResult)
  | [] => return []
  | (c, i) :: rest => do
    let r ← runCase c i
    inContext (Context.logUnder (.ok "") .info "Test %s %s" [.text r.testName, .text r.status.name])
    return r :: (← runCases rest)

/-- Runs the whole suite. The phase after all cases runs whatever came before. -/
def runSuite : Act (List TestResult) := do
  let outcome ← Action.attempt do
    let setup ← beforeAll
    return setup.toList ++ (← runCases (← Action.get).suite.runs)
  let teardown ← afterAll
  return (← Action.lift outcome) ++ teardown.toList

end Session

end BlockSuite
