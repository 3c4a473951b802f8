import BlockSuite.Library.Basic
import BlockSuite.Block.Declare

/-!
Blocks for variables, branches, loops and the handling of failures, and those that report or end
a test.
-/

namespace BlockSuite.Library

/-- The category of the blocks of this module. -/
def logic : String := "Logic"

/-- Binds `NAME` to `VALUE`. -/
def setVariable : Block :=
  action "logic_set_variable" logic "#795548" "Set a variable value"
    [textField "NAME" .null true, valueInput "VALUE"] fun params => do
      Context.setVariable (← needText params "NAME") (input params "VALUE")
      return .value .null

/-- Reads the variable or path `NAME`. -/
def readVariable : Executor := fun params => do
  return .value (← Context.readPath (.text (← needText params "NAME")))

/-- Reads a variable. -/
def getVariable : Block :=
  value "logic_get_variable" anyOutput logic "#795548" "Get a variable value"
    [textField "NAME" .null true] readVariable

/-- Runs one of two slots. -/
def branch : Block :=
  action "logic_if" logic "#5C6BC0" "Execute blocks if condition is true"
    [valueInput "CONDITION" "Boolean", slot "DO", slot "ELSE"] fun params =>
      return .signal (.branch (if (input params "CONDITION").toBool then "DO" else "ELSE"))

/-- A number cut to a whole one. -/
def wholePart : Numeric → Except Fault Int
  | .whole i => .ok i
  | .real .nan => .error (.value "cannot convert float NaN to integer")
  | .real (.infinite _) => .error (.overflow "cannot convert float infinity to integer")
  | .real d => .ok (d.truncate?.getD 0)

/-- Runs a slot a number of times. -/
def repeatTimes : Block :=
  action "logic_repeat" logic "#5C6BC0" "Repeat blocks a specified number of times"
    [numberField "TIMES" 10 true, slot "DO"] fun params => do
      let times ← Action.compute (wholePart (← numberOf (← need params "TIMES")))
      return .signal (.countedLoop times.toNat Signal.bodySlot)

/-- Runs a slot for each item of an array. -/
def forEach : Block :=
  action "logic_foreach" logic "#5C6BC0" "Iterate over an array"
    [valueInput "ARRAY" "Array", textField "VAR" (.text "item") true, slot "DO"] fun params => do
      let items ← itemsOf "to iterate over" (input params "ARRAY")
      loopOver items (← needText params "VAR") none

/-- Runs a slot, and another one should it fail. -/
def tryCatch : Block :=
  action "logic_try_catch" logic "#5C6BC0" "Handle errors gracefully"
    [textField "ERROR_VAR", slot "TRY", slot "CATCH"] fun params => do
      let v := input params "ERROR_VAR"
      let binding ← if v.isTruthy then some <$> textOf v else pure none
      return .signal (.tryCatch "TRY" "CATCH" binding)

/-- The levels that messages may be logged at; any other name stands for the second. -/
def logLevels : List (String × Level) :=
  [("debug", .debug), ("info", .info), ("warn", .warning), ("warning", .warning),
    ("error", .error)]

/-- Logs a message. -/
def logMessage : Block :=
  action "logic_log" logic "#607D8B" "Log a message"
    [choiceField "LEVEL" [("Info", "info"), ("Warning", "warn"), ("Error", "error"),
        ("Debug", "debug")] "info",
      textField "MESSAGE" .null true] fun params => do
      let name ← textOf (orElse (input params "LEVEL") (.text "info"))
      let level := (Dict.get? logLevels (Text.asciiLower name)).getD .info
      let message ← textOf (input params "MESSAGE")
      Context.log level message []
      return .value (.text message)

/-- Does nothing. -/
def comment : Block :=
  action "logic_comment" logic "#9E9E9E" "Add a comment (does nothing)"
    [textField "TEXT" (.text "Comment")] fun _ => return .value .null

/-- Fails with a message. -/
def failWith : Block :=
  { action "logic_fail" logic "#f44336" "Fail the test with a message"
      [textField "MESSAGE" (.text "Test failed")] (fun params => do
        refuse ((nonempty (← textOf (input params "MESSAGE"))).getD "Test failed")) with
    next := false }

/-- Asserts a condition. -/
def assertThat : Block :=
  action "logic_assert" logic "#FF9800" "Assert a condition is true"
    [valueInput "CONDITION" "Boolean", textField "MESSAGE" (.text "Assertion failed")] <|
    Block.asserting fun params => do
      let holds := (input params "CONDITION").toBool
      let message ← textOf (input params "MESSAGE")
      return { holds, message := .text message, expected := .bool true, actual := .bool holds }

/-- Skips the rest of the test where a condition holds. -/
def skipIf : Block :=
  action "lifecycle_skip_if" "Lifecycle" "#757575" "Skip the rest of the test if condition is true"
    [valueInput "CONDITION" "Boolean", textField "REASON" (.text "Condition not met")]
    fun params => do
      if (input params "CONDITION").toBool then
        let reason ← textOf (orElse (input params "REASON") (.text "Condition not met"))
        Context.log .info "Skipping: %s" [.text reason]
        Action.fail (.skip (.text reason))
      else return .value .null

end BlockSuite.Library
