import BlockSuite.Calendar
import BlockSuite.Dict
import BlockSuite.Fault

/-!
The values that flow between the steps of a test: scalars, sequences, mappings, handles of
collaborators, of which nothing but their attributes is known, and what belongs to the workings of
another value, which can be passed on and shown.
-/

namespace BlockSuite

/-- A runtime value. Mappings keep the order of their members, sets the order in which their
members are visited. -/
inductive Value where
  | null
  | bool (b : Bool)
  | int (i : Int)
  | float (d : Double)
  | text (s : String)
  | bytes (bs : List UInt8)
  | date (d : Date)
  | moment (m : Moment)
  | duration (d : Duration)
  | list (items : List Value)
  | tuple (items : List Value)
  | set (items : List Value)
  | dict (members : List (Value × Value))
  | handle (attributes : List (String × Value))
  | inner (kind text shown : String) (attributes : List (String × Value))
deriving Repr, Inhabited

namespace Value

mutual

/-- Whether two values have one shape and the same content. -/
def alike (v w : Value) : Bool :=
  match v, w with
  | null, null => true
  | bool a, bool b => a == b
  | int a, int b => a == b
  | float a, float b => a == b
  | text a, text b => a == b
  | bytes a, bytes b => a == b
  | date a, date b => a == b
  | moment a, moment b => a == b
  | duration a, duration b => a == b
  | list xs, list ys => alikeAll xs ys
  | tuple xs, tuple ys => alikeAll xs ys
  | set xs, set ys => alikeAll xs ys
  | dict xs, dict ys => alikeMembers xs ys
  | handle xs, handle ys => alikeAttributes xs ys
  | inner k t s xs, inner k' t' s' ys => k == k' && t == t' && s == s' && alikeAttributes xs ys
  | _, _ => false
termination_by structural v

def alikeAll : List Value → List Value → Bool
  | [], [] => true
  | x :: xs, y :: ys => alike x y && alikeAll xs ys
  | _, _ => false

def alikeMembers : List (Value × Value) → List (Value × Value) → Bool
  | [], [] => true
  | (k, v) :: xs, (k', v') :: ys => alike k k' && alike v v' && alikeMembers xs ys
  | _, _ => false

def alikeAttributes : List (String × Value) → List (String × Value) → Bool
  | [], [] => true
  | (n, v) :: xs, (n', v') :: ys => n == n' && alike v v' && alikeAttributes xs ys
  | _, _ => false

end

instance : BEq Value := ⟨alike⟩

/-- Nothing but the text itself is like a text. -/
@[simp] theorem beq_text (v : Value) (s : String) : (v == text s) = true ↔ v = text s := by
  cases v <;> simp [BEq.beq, alike]

/-- The name of a value's type in messages. -/
def typeName : Value → String
  | null => "NoneType"
  | bool _ => "bool"
  | int _ => "int"
  | float _ => "float"
  | text _ => "str"
  | bytes _ => "bytes"
  | date _ => "date"
  | moment _ => "datetime"
  | duration _ => "timedelta"
  | list _ => "list"
  | tuple _ => "tuple"
  | set _ => "set"
  | dict _ => "dict"
  | handle _ => "Opaque"
  | inner kind _ _ _ => kind

/-- The name of a value's type with that of the group it belongs to, as the messages of faults in
computing give it. -/
def fullTypeName : Value → String
  | v@(date _) | v@(moment _) | v@(duration _) | v@(inner "timezone" ..) =>
    "datetime." ++ v.typeName
  | v => v.typeName

/-- The text that a value is, where a method of texts is called on it to cut it at a text. Bytes
have the method but are cut at bytes only; other values have no such method. -/
def textWith (method : String) : Value → Except Fault String
  | text s => .ok s
  | bytes _ => .error (.type "a bytes-like object is required, not 'str'")
  | v => .error ⟨.attribute,
      "'" ++ v.fullTypeName ++ "' object has no attribute '" ++ method ++ "'"⟩

/-- Mappings. -/
def isMapping : Value → Bool
  | dict _ => true
  | _ => false

/-- The items of a list, tuple or set. -/
def items? : Value → Option (List Value)
  | list xs | tuple xs | set xs => some xs
  | _ => none

/-- A number as a numerator over units of the smallest floating point number, if finite. -/
def scaled? : Value → Option Int
  | bool b => some (if b then Double.perOne else 0)
  | int i => some (i * Double.perOne)
  | float d => d.signedUnits?
  | _ => none

/-- The value bound to a text key. -/
def member? (entries : List (Value × Value)) (key : String) : Option Value :=
  match entries with
  | [] => none
  | (text k, v) :: rest => if k == key then some v else member? rest key
  | _ :: rest => member? rest key

/-- A mapping with text keys. -/
def record (members : Dict Value) : Value := dict (members.map fun e => (text e.1, e.2))

/-- A moment or null. -/
def ofMoment? (m : Option Moment) : Value := (m.map moment).getD null

/-- A text or null. -/
def ofText? : Option String → Value
  | some s => text s
  | none => null

end Value

end BlockSuite
