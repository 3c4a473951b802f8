import BlockSuite.Calendar.Entry
import BlockSuite.Value.Quoted

/-!
What is found wrong with a document: where, why and with which input. The issues of a document
are reported together, in the order in which its parts were checked.
-/

namespace BlockSuite

/-- A step on the way to a part of a document. -/
inductive Key where
  | name (s : String)
  | index (i : Int)
deriving DecidableEq, Repr, Inhabited

/-- A value as messages show it; one that cannot be written is named by its type. -/
def Value.shown (v : Value) : String :=
  match v.quoted with
  | .ok s => s
  | .error _ => "<unprintable " ++ v.typeName ++ " object>"

namespace Key

/-- A step as a value. -/
def toValue : Key → Value
  | name s => .text s
  | index i => .int i

/-- A step in a report; a name with dots stands between backticks. -/
def text : Key → String
  | name s => if s.toList.contains '.' then "`" ++ s ++ "`" else s
  | index i => toString i

/-- The step to a member of a mapping. Keys that are neither texts nor whole numbers of 64 bits
are shown as in messages. -/
def ofValue : Value → Key
  | .text s => name s
  | .bool b => index (if b then 1 else 0)
  | .int i => if Number.fitsWord i then index i else name (Value.int i).shown
  | v => name v.shown

end Key

/-- Why an input is refused. -/
inductive Cause where
  | missing
  | extra
  | keyNotText
  | frozen
  | notText
  | notUnicode
  | tooShort (least : Nat)
  | mismatch (pattern : String)
  | notTruth
  | unclearTruth
  | notWhole
  | unclearWhole
  | oversized
  | fractional
  | notFinite
  | below (least : Int)
  | notNumber
  | unclearNumber
  | notList
  | notTuple
  | tooLong (most actual : Nat)
  | notMapping
  | notRecord (model : String)
  | notCallable
  | notChoice (choices : List String)
  | notMember (members : List String)
  | notInstance (kind : String)
  | notMoment
  | unclearMoment (problem : Calendar.EntryError)
  | unclearDate (problem : Calendar.EntryError)
deriving DecidableEq, Repr, Inhabited

namespace Cause

/-- The short name of a cause. -/
def label : Cause → String
  | missing => "missing"
  | extra => "extra_forbidden"
  | keyNotText => "invalid_key"
  | frozen => "frozen_instance"
  | notText => "string_type"
  | notUnicode => "string_unicode"
  | tooShort _ => "string_too_short"
  | mismatch _ => "string_pattern_mismatch"
  | notTruth => "bool_type"
  | unclearTruth => "bool_parsing"
  | notWhole => "int_type"
  | unclearWhole => "int_parsing"
  | oversized => "int_parsing_size"
  | fractional => "int_from_float"
  | notFinite => "finite_number"
  | below _ => "greater_than_equal"
  | notNumber => "float_type"
  | unclearNumber => "float_parsing"
  | notList => "list_type"
  | notTuple => "tuple_type"
  | tooLong _ _ => "too_long"
  | notMapping => "dict_type"
  | notRecord _ => "model_type"
  | notCallable => "callable_type"
  | notChoice _ => "literal_error"
  | notMember _ => "enum"
  | notInstance _ => "is_instance_of"
  | notMoment => "datetime_type"
  | unclearMoment _ => "datetime_parsing"
  | unclearDate _ => "datetime_from_date_parsing"

/-- Texts in single quotes, the last joined by a word. -/
def alternatives (xs : List String) : String :=
  let quoted := xs.map fun x => "'" ++ x ++ "'"
  match quoted.reverse with
  | [] => ""
  | [x] => x
  | last :: rest => ", ".intercalate rest.reverse ++ " or " ++ last

/-- What is said about a cause. -/
def message : Cause → String
  | missing => "Field required"
  | extra => "Extra inputs are not permitted"
  | keyNotText => "Keys should be strings"
  | frozen => "Instance is frozen"
  | notText => "Input should be a valid string"
  | notUnicode => "Input should be a valid string, unable to parse raw data as a unicode string"
  | tooShort n => "String should have at least " ++ Nat.repr n ++ " character" ++
      (if n = 1 then "" else "s")
  | mismatch p => "String should match pattern '" ++ p ++ "'"
  | notTruth => "Input should be a valid boolean"
  | unclearTruth => "Input should be a valid boolean, unable to interpret input"
  | notWhole => "Input should be a valid integer"
  | unclearWhole => "Input should be a valid integer, unable to parse string as an integer"
  | oversized => "Unable to parse input string as an integer, exceeded maximum size"
  | fractional => "Input should be a valid integer, got a number with a fractional part"
  | notFinite => "Input should be a finite number"
  | below n => "Input should be greater than or equal to " ++ toString n
  | notNumber => "Input should be a valid number"
  | unclearNumber => "Input should be a valid number, unable to parse string as a number"
  | notList => "Input should be a valid list"
  | notTuple => "Input should be a valid tuple"
  | tooLong most actual => "Tuple should have at most " ++ Nat.repr most ++ " item" ++
      (if most = 1 then "" else "s") ++ " after validation, not " ++ Nat.repr actual
  | notMapping => "Input should be a valid dictionary"
  | notRecord model => "Input should be a valid dictionary or instance of " ++ model
  | notCallable => "Input should be callable"
  | notChoice choices => "Input should be " ++ alternatives choices
  | notMember members => "Input should be " ++ alternatives members
  | notInstance kind => "Input should be an instance of " ++ kind
  | notMoment => "Input should be a valid datetime"
  | unclearMoment e => "Input should be a valid datetime, " ++ e.message
  | unclearDate e => "Input should be a valid datetime or date, " ++ e.message

end Cause

/-- One thing wrong with a document. -/
structure Issue where
  path : List Key
  cause : Cause
  input : Value
deriving Repr, Inhabited, BEq

namespace Issue

/-- An issue of a part seen from around the part. -/
def within (key : Key) (i : Issue) : Issue := { i with path := key :: i.path }

/-- The longest beginning of a text that fits a number of bytes. -/
def headBytes (limit : Nat) : List Char → List Char
  | [] => []
  | c :: cs => if c.utf8Size ≤ limit then c :: headBytes (limit - c.utf8Size) cs else []

/-- The shown input: all of it up to 50 bytes, else its two ends. -/
def shorten (s : String) : String :=
  let size (cs : List Char) : Nat := (cs.map Char.utf8Size).foldl (· + ·) 0
  let cs := s.toList
  if size cs ≤ 50 then s
  else String.ofList (headBytes 25 cs) ++ "..." ++ String.ofList (headBytes 24 cs.reverse).reverse

/-- The input as an issue shows it. -/
def inputText (v : Value) : String := shorten v.shown

/-- The lines of an issue in a report. -/
def text (i : Issue) : String :=
  (if i.path.isEmpty then "" else "\n" ++ ".".intercalate (i.path.map Key.text)) ++
    "\n  " ++ i.cause.message ++ " [type=" ++ i.cause.label ++ ", input_value=" ++
    inputText i.input ++ ", input_type=" ++ i.input.typeName ++
    "]\n    For further information visit https://errors.pydantic.dev/2.14/v/" ++ i.cause.label

end Issue

/-- The issues of a document of a model. -/
structure Invalid where
  model : String
  issues : List Issue
deriving Repr, Inhabited, BEq

namespace Invalid

/-- The report of all issues. -/
def text (e : Invalid) : String :=
  let n := e.issues.length
  Nat.repr n ++ " validation error" ++ (if n = 1 then "" else "s") ++ " for " ++ e.model ++
    String.join (e.issues.map Issue.text)

end Invalid

end BlockSuite
