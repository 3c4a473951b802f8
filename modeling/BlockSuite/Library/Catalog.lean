import BlockSuite.Library.Calls
import BlockSuite.Library.Rows

/-!
The blocks that every environment starts with.
-/

namespace BlockSuite.Library

/-- All blocks of the library, in the order in which they are offered. -/
def catalog : List Block :=
  [setVariable, getVariable, branch, repeatTimes, forEach, tryCatch, logMessage, comment,
    failWith, assertThat,
    literalText, literalNumber, literalBoolean, literalObject, literalArray, compareValues,
    combineBooleans, negate, arithmetic,
    defineProcedure, call, callForValue, leave, getParameter,
    currentValue, currentIndex, forEachRow, range, defineRows, table, makeRow, currentName,
    storedRows,
    skipIf]

theorem catalog_length : catalog.length = 34 := rfl

end BlockSuite.Library
