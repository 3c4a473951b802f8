import BlockSuite.Library.Operator

/-!
Blocks for data: they read the row that a test runs for, and make rows for loops. A range of
numbers goes from its start in steps up to its end; it never ends where a step makes no progress,
or where there is no end and a number is not a whole one.
-/

namespace BlockSuite.Library

/-- The category and color of the blocks of this module. -/
def data : String := "Data"

def dataColor : String := "#00897B"

/-- Reads a value of the current row. -/
def currentValue : Block :=
  value "data_get_current" anyOutput data dataColor "Get a value from the current data set"
    [textField "KEY" .null true] fun params => do
      match (← Action.get).row with
      | none =>
        refuse "No data set available. This block must be used inside a data-driven test."
      | some row =>
        let key ← needText params "KEY"
        if !row.values.has key then
          Context.log .warning "Data key %r not found in current data set" [.text key]
        return .value ((row.values.get? key).getD .null)

/-- The position of the current row. -/
def currentIndex : Block :=
  value "data_get_index" (.one "Number") data dataColor
    "Get the current data iteration index (0-based)" [] fun _ => do
      return .value (orElse (← Action.get).rowValue (.int 0))

/-- Runs a slot for each row. -/
def forEachRow : Block :=
  action "data_foreach" data dataColor "Run steps for each item in a data set"
    [valueInput "DATA" "Array", textField "ITEM_VAR" (.text "item"),
      textField "INDEX_VAR" (.text "index"), slot "DO"] fun params => do
      let items ← itemsOf "of data" (input params "DATA")
      let item ← needText params "ITEM_VAR"
      let index ← needText params "INDEX_VAR"
      loopOver items item (nonempty index)

/-- A row of one value under a name. -/
def rangeRow (name : String) (n : Numeric) : Except Fault Value := do
  let shown ← n.text
  return .record [("name", .text (name ++ "=" ++ shown)),
    ("values", .record [(name, n.toValue)])]

/-- A number as a count of units, if it is finite. -/
def unitsOf (n : Numeric) : Option Int := n.toValue.scaled?

/-- Whether a number is at most another one. -/
def atMost (a b : Numeric) : Bool :=
  match a.compare? b with
  | some .lt | some .eq => true
  | _ => false

/-- How rows of a range end. -/
inductive RangeEnd where
  | rows (rows : List Value)
  | fault (f : Fault)
  | endless

/-- The end of a range with one more row in front of its rows. -/
def RangeEnd.after (row : Value) : RangeEnd → RangeEnd
  | rows rest => .rows (row :: rest)
  | other => other

/-- How a range goes on where there is no end: whole numbers go on until one is too long to be
shown. -/
def RangeEnd.unbounded : Numeric → Numeric → RangeEnd
  | .whole _, .whole _ => .fault .tooManyDigits
  | _, _ => .endless

/-- The rows of a range from a number on. The next number has to come nearer to the end, or else
the range is endless. -/
def rangeRows (name : String) (last step current : Numeric) : RangeEnd :=
  if atMost current last then
    match rangeRow name current, current.add step with
    | .error f, _ => .fault f
    | _, .error f => .fault f
    | .ok row, .ok next =>
      if atMost next last then
        match _hu : unitsOf current, _hv : unitsOf next, _hw : unitsOf last with
        | some u, some v, some w =>
          if _h : u < v ∧ v ≤ w then (rangeRows name last step next).after row
          else .endless
        | _, _, _ => .unbounded step next
      else .rows [row]
  else .rows []
termination_by (((unitsOf last).getD 0) - ((unitsOf current).getD 0)).toNat
decreasing_by
  rw [_hu, _hv, _hw]
  simp only [Option.getD_some]
  omega

/-- Makes the rows of a range. -/
def range : Block :=
  value "data_range" (.one "Array") data dataColor "Generate a range of numbers as data"
    [numberField "START" 1, numberField "END" 10, numberField "STEP" 1,
      textField "VAR_NAME" (.text "n")] fun params => do
      let first ← numberOf (← need params "START")
      let last ← numberOf (← need params "END")
      let step ← numberOf (← need params "STEP")
      let name ← needText params "VAR_NAME"
      if atMost step (.whole 0) then
        refuse ("Range step must be positive, got " ++ (← Action.compute step.text))
      match rangeRows name last step first with
      | .rows rows => return .value (.list rows)
      | .fault f => Action.fail (.ofFault f)
      | .endless => Action.exhaust

/-- Gives rows that are written as JSON. -/
def defineRows : Block :=
  value "data_define" (.one "Array") data dataColor
    "Define test data sets for data-driven testing"
    [textField "DATA_JSON" (.text "[\x7b\"name\": \"test1\", \"value\": 1\x7d]")] fun params => do
      let v := input params "DATA_JSON"
      match v.items? with
      | some xs => return .value (.list xs)
      | none =>
        match ← readJson "data" v with
        | .list xs => return .value (.list xs)
        | w => refuse ("Expected a JSON array of data, got " ++ w.typeName)

/-- A row under the headers; a cell that is missing is null, and one too many is dropped. -/
def tableValues (headers : List String) (cells : List Value) : Dict Value :=
  Dict.ofPairs (headers.zip (cells ++ List.replicate headers.length .null))

/-- The rows of a table written in lines, with commas between cells. -/
def tableRows (headers lines : String) : List Value :=
  let headers := (Text.splitAt ',' headers).map Text.trim
  let lines := (Text.lines lines).filter (!Text.isBlankText ·)
  (List.range lines.length).zipWith (fun i line =>
    let cells := (Text.splitAt ',' line).map Arguments.decodeItem
    .record [("name", .text ("Row " ++ Nat.repr (i + 1))),
      ("values", .record (tableValues headers cells))]) lines

/-- Makes the rows of a table. -/
def table : Block :=
  value "data_table" (.one "Array") data dataColor "Create a data table with headers and rows"
    [textField "HEADERS" (.text "username, password, expected"),
      textField "ROWS" (.text "user1, pass1, true\nuser2, pass2, false")] fun params => do
      let headers ← needText params "HEADERS"
      let lines ← needText params "ROWS"
      return .value (.list (tableRows headers lines))

/-- Makes a single row. -/
def makeRow : Block :=
  value "data_row" (.one "Object") data dataColor "Create a single data row with key-value pairs"
    [textField "NAME" (.text ""), textField "JSON" (.text "\x7b\x7d")] fun params => do
      let v := input params "JSON"
      let values ← if v.isMapping then pure v else readJson "row" v
      if !values.isMapping then
        refuse ("Expected a JSON object of values, got " ++ values.typeName)
      let name ← textOf (orElse (input params "NAME") (.text ""))
      return .value (.record [("name", .ofText? (nonempty name)), ("values", values)])

/-- The name of the current row, or its number. -/
def currentName : Block :=
  value "data_get_name" (.one "String") data dataColor "Get the name of the current data set" []
    fun _ => do
      let c ← Action.get
      let name := (c.row.bind (·.name)).bind nonempty
      match name with
      | some name => return .value (.text name)
      | none =>
        let number ← Action.compute (orElse c.rowValue (.int 0)).nextText
        return .value (.text ("Iteration " ++ number))

/-- Reads rows from a variable. -/
def storedRows : Block :=
  value "data_from_variable" (.one "Array") data dataColor "Get test data from a variable"
    [textField "NAME" .null true] fun params => do
      let v ← Context.readPath (.text (← needText params "NAME"))
      return .value (orElse v (.list []))

end BlockSuite.Library
