import BlockSuite.Json.Writer
import BlockSuite.Number.Read

/-!
A value as a text, as a JSON text, as a number and as a truth value.
-/

namespace BlockSuite

/-- A number as steps compute with it. -/
inductive Numeric where
  | whole (i : Int)
  | real (d : Double)
deriving DecidableEq, Repr, Inhabited

/-- A number as a value. -/
def Numeric.toValue : Numeric → Value
  | whole i => .int i
  | real d => .float d

namespace Value

/-- A value as compact JSON in which every number without a fraction has one spelling. -/
def toJson (v : Value) : Except Fault String := do
  Json.write .compact 0 (← Json.reduce true v)

/-- The text that replaces a placeholder. -/
def toText : Value → Except Fault String
  | bool b => .ok (if b then "true" else "false")
  | bytes bs => .ok (Text.ofBytes bs)
  | float d =>
    match d.toInt? with
    | some i => intText i
    | none => .ok d.render
  | v@(list _) | v@(tuple _) | v@(set _) | v@(dict _) => v.toJson
  | v => v.plainText

/-- A value as a number: truth values are zero and one, texts are read as a whole number first. -/
def toNumber (v : Value) : Except Fault Numeric :=
  let refused : Except Fault Numeric := do .error (.type ((← v.quoted) ++ " is not a number"))
  match v with
  | bool b => .ok (.whole (if b then 1 else 0))
  | int i => .ok (.whole i)
  | float d => .ok (.real d)
  | text s =>
    match Number.readInt s with
    | .ok i => .ok (.whole i)
    | .error _ =>
      match Number.readDouble? s with
      | some d => .ok (.real d)
      | none => refused
  | _ => refused

/-- Texts that stand for false, in lower case and without blanks around. -/
def falseTexts : List String := ["", "false", "0", "no", "off", "null"]

/-- Whether a value counts as true when nothing is known of its text. -/
def isTruthy : Value → Bool
  | null => false
  | bool b => b
  | int i => i != 0
  | float d => !d.isZero
  | text s => !s.isEmpty
  | bytes bs => !bs.isEmpty
  | duration d => d.micros != 0
  | list xs | tuple xs | set xs => !xs.isEmpty
  | dict es => !es.isEmpty
  | date _ | moment _ | handle _ | inner .. => true

/-- A value as a truth value. -/
def toBool : Value → Bool
  | text s => !falseTexts.contains (Text.asciiLower (Text.trim s))
  | v => v.isTruthy

/-- A value with a text put at its end: a text grows, and a list by each character. -/
def followedBy (s : String) : Value → Except Fault Value
  | text t => .ok (text (t ++ s))
  | list xs => .ok (list (xs ++ s.toList.map fun c => text c.toString))
  | bytes _ => .error (.type "can't concat str to bytes")
  | tuple _ => .error (.type "can only concatenate tuple (not \"str\") to tuple")
  | v => .error (.type ("unsupported operand type(s) for +=: '" ++ v.fullTypeName ++ "' and 'str'"))

/-- The text of the number after a number. -/
def nextText : Value → Except Fault String
  | int i => intText (i + 1)
  | bool b => .ok (if b then "2" else "1")
  | float d => .ok (d.add (.ofInt 1)).render
  | text _ => .error (.type "can only concatenate str (not \"int\") to str")
  | list _ => .error (.type "can only concatenate list (not \"int\") to list")
  | tuple _ => .error (.type "can only concatenate tuple (not \"int\") to tuple")
  | bytes _ => .error (.type "can't concat int to bytes")
  | v => .error (.type ("unsupported operand type(s) for +: '" ++ v.fullTypeName ++ "' and 'int'"))

@[simp] theorem toBool_bool (b : Bool) : (bool b).toBool = b := by cases b <;> rfl

@[simp] theorem toNumber_int (i : Int) : (int i).toNumber = .ok (.whole i) := rfl

end Value

end BlockSuite
