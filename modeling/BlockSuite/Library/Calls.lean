import BlockSuite.Library.Control

/-!
Blocks that define, call and leave procedures.
-/

namespace BlockSuite.Library

/-- The category of the blocks of this module. -/
def procedures : String := "Procedures"

/-- Defines a slot as a procedure. -/
def defineProcedure : Block :=
  action "procedure_define" procedures "#9C27B0" "Define a reusable procedure with parameters"
    [textField "NAME" .null true, textField "DESCRIPTION" (.text ""),
      textField "PARAMS" (.text ""), slot "DO"] fun params => do
      let name ← needText params "NAME"
      let description ← textOf (orElse (input params "DESCRIPTION") (.text ""))
      let list ← textOf (orElse (input params "PARAMS") (.text ""))
      let declared ← Action.lift ((Param.ofText list).mapError .invalid)
      match Check.nonemptyText (.text name) with
      | .ok name =>
        return .signal (.define name declared (nonempty description) none Signal.bodySlot)
      | .error issues =>
        Action.fail (.invalid ⟨"ProcedureDefine", issues.map (Issue.within (.name "name"))⟩)

/-- Calls the procedure `NAME` with `ARGS`. The names of the arguments have to be texts. -/
def callWith (expectReturn : Bool) : Executor := fun params => do
  let name ← needText params "NAME"
  let procedure ← Context.procedure name
  let bound ← Action.lift ((procedure.arguments (input params "ARGS")).mapError .raised)
  match Check.mapping Check.text Check.any (.dict bound) with
  | .ok args => return .signal (.call name args procedure expectReturn)
  | .error issues =>
    Action.fail (.invalid ⟨"ProcedureCall", issues.map (Issue.within (.name "args"))⟩)

/-- The inputs of a call. -/
def callInputs : List InputSpec := [textField "NAME" .null true, textField "ARGS" (.text "")]

/-- Calls a procedure. -/
def call : Block :=
  action "procedure_call" procedures "#9C27B0" "Call a defined procedure" callInputs
    (callWith false)

/-- Calls a procedure for the value it is left with. -/
def callForValue : Block :=
  value "procedure_call_with_return" anyOutput procedures "#9C27B0"
    "Call a procedure and get return value" callInputs (callWith true)

/-- Leaves the nearest procedure. -/
def leave : Block :=
  { action "procedure_return" procedures "#9C27B0" "Return a value from a procedure"
      [{ name := "VALUE" }] (fun params => return .signal (.leave (input params "VALUE"))) with
    next := false }

/-- Reads a parameter; parameters are variables. -/
def getParameter : Block :=
  value "procedure_get_param" anyOutput procedures "#9C27B0" "Get a procedure parameter value"
    [textField "NAME" .null true] readVariable

end BlockSuite.Library
