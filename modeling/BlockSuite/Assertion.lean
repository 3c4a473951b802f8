import BlockSuite.Context
import BlockSuite.Result

/-!
Assertions. A failed assertion ends the step at once, or, where assertions are soft, is collected
in the context and reported with all others at the end of the test.
-/

namespace BlockSuite

/-- What an assertion found. -/
structure Assertion where
  holds : Bool
  message : Value
  expected : Value := .null
  actual : Value := .null
deriving Repr, Inhabited

namespace Assertion

/-- A name that was given and is not empty, or that of the current step. -/
def orCurrent (given current : Option String) : Option String :=
  match current with
  | none => given
  | some name => if given.getD "" == "" then some name else given

/-- The step a failure is reported for: the one that was named, or the current one. -/
def source (c : Context) (stepId stepType : Option String) : Option String × Option String :=
  (orCurrent stepId (c.currentStep.map (·.id)), orCurrent stepType (c.currentStep.map (·.type)))

/-- The record of a failure; its message has to be a text. -/
def softError (a : Assertion) (stepId stepType : Option String) : Except Failure SoftError :=
  match Check.text a.message with
  | .ok message => .ok { message, stepId, stepType, expected := a.expected, actual := a.actual }
  | .error issues =>
    .error (.invalid ⟨"SoftAssertionError", issues.map (Issue.within (.name "message"))⟩)

/-- The error of a failure. -/
def hardError (a : Assertion) (c : Context) (stepId stepType : Option String) : BlockError where
  reason := .hardAssertion a.expected a.actual
  message := a.message
  place :=
    { stepId := some (.ofText? stepId)
      stepType := some (.ofText? stepType)
      testName := some (.ofText? c.testName)
      row := some c.rowValue }

/-- Applies an assertion to a run. -/
def handle (a : Assertion) (stepId : Option String := none) (stepType : Option String := none) :
    Run Unit := do
  if a.holds then return
  let c ← Action.get
  let (stepId, stepType) := source c stepId stepType
  if c.soft then
    let e ← Action.lift (a.softError stepId stepType)
    Action.modify fun c => { c with softErrors := c.softErrors ++ [e] }
    Context.log .warning "Soft assertion failed: %s" [a.message]
  else Action.fail (.raised (a.hardError c stepId stepType))

end Assertion

namespace Context

/-- Forgets the collected failures. -/
def clearSoftErrors : Run Unit := Action.modify fun c => { c with softErrors := [] }

/-- Gives the collected failures and forgets them. -/
def takeSoftErrors : Run (List SoftError) := do
  let errors := (← Action.get).softErrors
  clearSoftErrors
  return errors

/-- Fails with the collected failures, if there are any, and forgets them. -/
def flushSoftErrors : Run Unit := do
  let errors ← takeSoftErrors
  if !errors.isEmpty then Action.fail (.raised (.ofSoft errors))

@[simp] theorem takeSoftErrors_run (c : Context) :
    takeSoftErrors c = (.done c.softErrors, { c with softErrors := [] }) := rfl

end Context

end BlockSuite
