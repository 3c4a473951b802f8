import BlockSuite.Value.Coerce

/-!
Members of mappings by their names. A member that is absent, or of another kind than asked for,
counts as null or empty.
-/

namespace BlockSuite.Value

/-- The text of a text, and else an empty one. -/
def asText : Value → String
  | text s => s
  | _ => ""

/-- The members of a mapping. -/
def entries : Value → List (Value × Value)
  | dict es => es
  | _ => []

/-- The members of a mapping by their names. -/
def named (v : Value) : Dict Value := v.entries.map fun e => (e.1.asText, e.2)

/-- The member of a name, or null. -/
def get (v : Value) (name : String) : Value := (member? v.entries name).getD null

/-- Whether there is a member of a name. -/
def has (v : Value) (name : String) : Bool := (member? v.entries name).isSome

/-- Whether a member counts as true. -/
def on (v : Value) (name : String) : Bool := (v.get name).isTruthy

/-- A member as a text. -/
def str (v : Value) (name : String) : String := (v.get name).asText

/-- A member that is a text. -/
def str? (v : Value) (name : String) : Option String :=
  match v.get name with
  | text s => some s
  | _ => none

/-- A member that is a whole number. -/
def int? (v : Value) (name : String) : Option Int :=
  match v.get name with
  | int i => some i
  | _ => none

/-- A member that is a truth value. -/
def bool? (v : Value) (name : String) : Option Bool :=
  match v.get name with
  | bool b => some b
  | _ => none

/-- The items of a member. -/
def all (v : Value) (name : String) : List Value := (v.get name).items?.getD []

/-- The members of a member by their names. -/
def mem (v : Value) (name : String) : Dict Value := (v.get name).named

/-- The members of a member that are texts, by their names. -/
def texts (v : Value) (name : String) : Dict String :=
  (v.mem name).map fun e => (e.1, e.2.asText)

mutual

/-- A value without the members of some names at any depth. -/
def without (names : List String) : Value → Value
  | list xs => list (withoutAll names xs)
  | dict es => dict (withoutEntries names es)
  | v => v

def withoutAll (names : List String) : List Value → List Value
  | [] => []
  | x :: xs => without names x :: withoutAll names xs

def withoutEntries (names : List String) : List (Value × Value) → List (Value × Value)
  | [] => []
  | (k, v) :: rest =>
    if names.contains k.asText then withoutEntries names rest
    else (k, without names v) :: withoutEntries names rest

end

end BlockSuite.Value
