import BlockSuite.Name
import BlockSuite.Value.Attribute
import BlockSuite.Number.Read

/-!
Looking values up along paths. A path is a variable name followed by keys, attribute names or
positions; it is followed from the first scope that binds its name to a value other than null.
-/

namespace BlockSuite

/-- A path: its leading name and the segments behind it. -/
structure Path where
  name : String
  segments : List String
deriving DecidableEq, Repr, Inhabited

namespace Path

/-- The path a text spells, unless its first segment is no variable name. -/
def ofText (s : String) : Except Fault Path :=
  match Text.splitAt '.' (Text.trim s) with
  | name :: segments =>
    if (Name.matchVariable? name).isSome then .ok ⟨name, segments⟩
    else .error (.value ("Invalid variable path: " ++ Quoted.ofText s))
  | [] => .error (.value ("Invalid variable path: " ++ Quoted.ofText s))

/-- The path that a value spells. -/
def ofValue (v : Value) : Except Fault Path := do ofText (← v.textWith "strip")

end Path

namespace Value

/-- The item of a sequence at a position written in decimal digits. -/
def itemAt? (items : List Value) (key : String) : Except Fault (Option Value) :=
  if key.toList.all Text.isDecimal then
    match Number.readInt key with
    | .ok i => .ok items[i.toNat]?
    | .error (.tooLong n) => .error (.tooManyDigitsIn n)
    | .error .malformed => .ok none
  else .ok none

/-- What one segment of a path leads to. -/
def child? (v : Value) (key : String) : Except Fault (Option Value) :=
  if key.isEmpty then .ok none
  else
    match v with
    | dict entries => .ok (member? entries key)
    | list items | tuple items => itemAt? items key
    | v => .ok (v.attribute? key)

/-- Follows segments from a value; null leads nowhere. -/
def follow : Value → List String → Except Fault (Option Value)
  | null, _ => .ok none
  | v, [] => .ok (some v)
  | v, key :: rest => do
    match ← v.child? key with
    | none => return none
    | some next => next.follow rest

@[simp] theorem follow_null (segments : List String) : follow null segments = .ok none := by
  cases segments <;> rfl

end Value

/-- Where names are looked up: scopes in order of precedence. -/
abbrev Scopes := List (Dict Value)

namespace Scopes

/-- The value of a name in the first scope that binds it to something other than null. -/
def binding? (scopes : Scopes) (name : String) : Option Value :=
  scopes.findSome? fun scope =>
    match scope.get? name with
    | some .null => none
    | found => found

/-- The value a path leads to. -/
def lookup (scopes : Scopes) (path : Path) : Except Fault (Option Value) :=
  match scopes.binding? path.name with
  | none => .ok none
  | some v => v.follow path.segments

@[simp] theorem binding?_nil (name : String) : binding? [] name = none := rfl

end Scopes

end BlockSuite
