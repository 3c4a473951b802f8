import BlockSuite.Library.Control

/-!
Blocks for literals and operators. Two values are equal where their compact JSON is; numbers are
compared exactly, and a whole number meets a floating point one as the nearest of its kind.
-/

namespace BlockSuite

/-- A floating point number that is not infinite. -/
def Double.orOverflow (message : String) : Double → Except Fault Double
  | .infinite _ => .error (.overflow message)
  | d => .ok d

namespace Numeric

/-- The order of two numbers, undefined where one of them is not a number. -/
def compare? : Numeric → Numeric → Option Ordering
  | whole a, whole b => some (compare a b)
  | real a, real b => a.compare? b
  | real a, whole b => a.compareInt? b
  | whole a, real b => (b.compareInt? a).map Ordering.swap

/-- A number as a floating point one, unless it is too large. -/
def toDouble : Numeric → Except Fault Double
  | real d => .ok d
  | whole i => (Double.ofInt i).orOverflow "int too large to convert to float"

/-- An operation that is exact on whole numbers and else rounded. -/
def combine (exact : Int → Int → Int) (rounded : Double → Double → Double) :
    Numeric → Numeric → Except Fault Numeric
  | whole a, whole b => .ok (whole (exact a b))
  | a, b => do return real (rounded (← a.toDouble) (← b.toDouble))

def isZero : Numeric → Bool
  | whole i => i == 0
  | real d => d.isZero

def add : Numeric → Numeric → Except Fault Numeric := combine (· + ·) Double.add

def sub : Numeric → Numeric → Except Fault Numeric := combine (· - ·) Double.sub

def mul : Numeric → Numeric → Except Fault Numeric := combine (· * ·) Double.mul

/-- The fault of a divisor that is zero. -/
def divisionByZero : Fault := ⟨.zeroDivision, "division by zero"⟩

/-- The quotient; that of whole numbers is rounded once. -/
def div (a b : Numeric) : Except Fault Numeric :=
  match a, b with
  | whole a, whole b =>
    if b = 0 then .error divisionByZero
    else do
      let quotient := Double.ofQuotient ((a < 0) != (b < 0)) a.natAbs b.natAbs
      return real (← quotient.orOverflow "integer division result too large for a float")
  | a, b => do
    let x ← a.toDouble
    let y ← b.toDouble
    if y.isZero then .error divisionByZero else return real (x.div y)

/-- The remainder, with the sign of the divisor. -/
def mod (a b : Numeric) : Except Fault Numeric :=
  match a, b with
  | whole a, whole b =>
    if b = 0 then .error divisionByZero else .ok (whole (Int.fmod a b))
  | a, b => do
    let x ← a.toDouble
    let y ← b.toDouble
    if y.isZero then .error divisionByZero else return real (x.mod y)

/-- A number as it is shown. -/
def text : Numeric → Except Fault String
  | whole i => intText i
  | real d => .ok d.render

@[simp] theorem add_whole (a b : Int) : add (whole a) (whole b) = .ok (whole (a + b)) := rfl

end Numeric

namespace Library

/-- Whether a text has another one in it, or an array has a value among its items. -/
def contains (container item : Value) : Except Fault Bool :=
  match container with
  | .text s => do return Text.contains s (← item.toText)
  | v =>
    match v.items? with
    | some xs => do
      let encoded ← item.toJson
      anyEncodedAs encoded xs
    | none => .ok false
where
  /-- Whether an item has some JSON; the items behind the first that has are not looked at. -/
  anyEncodedAs (encoded : String) : List Value → Except Fault Bool
    | [] => .ok false
    | x :: rest => do if (← x.toJson) == encoded then return true else anyEncodedAs encoded rest

/-- Whether two values have the same compact JSON. -/
def sameJson (a b : Value) : Except Fault Bool := do return (← a.toJson) == (← b.toJson)

/-- Whether the order of two numbers is one of some. -/
def ordered (accepted : List Ordering) (a b : Value) : Except Fault Bool := do
  let x ← a.toNumber
  let y ← b.toNumber
  return match x.compare? y with
    | some o => accepted.contains o
    | none => false

/-- The comparisons by name. -/
def comparisons : List (String × (Value → Value → Except Fault Bool)) :=
  [("eq", sameJson), ("neq", fun a b => do return !(← sameJson a b)), ("lt", ordered [.lt]),
    ("lte", ordered [.lt, .eq]), ("gt", ordered [.gt]), ("gte", ordered [.gt, .eq]),
    ("contains", contains)]

/-- The arithmetic operators by name. -/
def operators : List (String × (Numeric → Numeric → Except Fault Numeric)) :=
  [("add", Numeric.add), ("subtract", Numeric.sub), ("multiply", Numeric.mul),
    ("divide", Numeric.div), ("modulo", Numeric.mod)]

/-- A literal text. -/
def literalText : Block :=
  value "logic_text" (.one "String") logic "#795548" "A text value"
    [textField "TEXT" (.text "")] fun params => do
      return .value (.text (← textOf ((params.get? "TEXT").getD (.text ""))))

/-- A literal number. -/
def literalNumber : Block :=
  value "logic_number" (.one "Number") logic "#795548" "A number value" [numberField "NUM" 0]
    fun params => do return .value (← numberOf ((params.get? "NUM").getD (.int 0))).toValue

/-- A literal truth value. -/
def literalBoolean : Block :=
  value "logic_boolean" (.one "Boolean") logic "#795548" "A boolean value"
    [choiceField "BOOL" [("true", "true"), ("false", "false")] "true"] fun params =>
      return .value (.bool (input params "BOOL").toBool)

/-- A value of some shape: as it is, or read from its JSON text. -/
def shaped (isShaped : Value → Bool) (label : String) (v : Value) : Run Answer := do
  if isShaped v then return .value v
  let w ← readJson label v
  if isShaped w then return .value w
  else refuse ("Expected a JSON " ++ label ++ ", got " ++ w.typeName)

/-- Lists, as opposed to other sequences. -/
def isList : Value → Bool
  | .list _ => true
  | _ => false

/-- A literal mapping. -/
def literalObject : Block :=
  value "logic_object" (.one "Object") logic "#795548" "Create a JSON object"
    [textField "JSON" (.text "\x7b\x7d")] fun params =>
      shaped Value.isMapping "object" ((params.get? "JSON").getD (.text "\x7b\x7d"))

/-- A literal list. -/
def literalArray : Block :=
  value "logic_array" (.one "Array") logic "#795548" "Create an array"
    [textField "JSON" (.text "[]")] fun params =>
      shaped isList "array" ((params.get? "JSON").getD (.text "[]"))

/-- Compares two values. -/
def compareValues : Block :=
  value "logic_compare" (.one "Boolean") logic "#5C6BC0" "Compare two values"
    [valueInput "A",
      choiceField "OP" [("=", "eq"), ("≠", "neq"), ("<", "lt"), ("≤", "lte"), (">", "gt"),
        ("≥", "gte"), ("contains", "contains")] "eq",
      valueInput "B"] fun params => do
      let name ← textOf (orElse (input params "OP") (.text "eq"))
      match Dict.get? comparisons name with
      | some f =>
        return .value (.bool (← Action.compute (f (input params "A") (input params "B"))))
      | none => refuse ("Unknown comparison operator " ++ Quoted.ofText name)

/-- Combines two truth values: any operator but "or" stands for "and". -/
def combineBooleans : Block :=
  value "logic_boolean_op" (.one "Boolean") logic "#5C6BC0" "Combine boolean values"
    [valueInput "A" "Boolean", choiceField "OP" [("and", "and"), ("or", "or")] "and",
      valueInput "B" "Boolean"] fun params => do
      let a := (input params "A").toBool
      let b := (input params "B").toBool
      let name ← textOf (orElse (input params "OP") (.text "and"))
      return .value (.bool (if name == "or" then a || b else a && b))

/-- Negates a truth value. -/
def negate : Block :=
  value "logic_not" (.one "Boolean") logic "#5C6BC0" "Negate a boolean value"
    [valueInput "VALUE" "Boolean"] fun params =>
      return .value (.bool !(input params "VALUE").toBool)

/-- Applies an arithmetic operator. -/
def arithmetic : Block :=
  value "logic_arithmetic" (.one "Number") logic "#5C6BC0"
    "Apply an arithmetic operator to two numbers"
    [valueInput "A" "Number",
      choiceField "OP" [("+", "add"), ("-", "subtract"), ("×", "multiply"), ("÷", "divide"),
        ("%", "modulo")] "add",
      valueInput "B" "Number"] fun params => do
      let name ← textOf (orElse (input params "OP") (.text "add"))
      match Dict.get? operators name with
      | some f =>
        let a ← numberOf (input params "A")
        let b ← numberOf (input params "B")
        match f a b with
        | .ok n => return .value n.toValue
        | .error ⟨.zeroDivision, _⟩ => refuse "Division by zero"
        | .error fault => Action.fail (.ofFault fault)
      | none => refuse ("Unknown arithmetic operator " ++ Quoted.ofText name)

end Library

end BlockSuite
