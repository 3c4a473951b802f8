import BlockSuite.Check.Basic

/-!
Forms: what a record in a document is read from. A form lists the fields of a record; reading
gives the record or the issues of all fields in their order, and after them one issue for each
member that belongs to no field. A field may have several spellings, of which the first that is
present counts.
-/

namespace BlockSuite

/-- What reading some fields gives: the result, and the member names that were used. -/
structure Reading (α : Type u) where
  result : Checked α
  used : List String

/-- A form: how to read some fields from the members of a mapping. -/
def Form (α : Type u) := List (Value × Value) → Reading α

namespace Form

/-- A form without fields. -/
def pure (a : α) : Form α := fun _ => ⟨.ok a, []⟩

/-- Two forms one after the other. -/
def both (f : Form α) (g : Form β) : Form (α × β) := fun es =>
  let a := f es
  let b := g es
  ⟨a.result.both b.result, a.used ++ b.used⟩

/-- A form whose result is changed. -/
def map (h : α → β) (f : Form α) : Form β := fun es =>
  let a := f es
  ⟨a.result.map h, a.used⟩

/-- A form that gives a function, applied to what a second form gives. -/
def apply (f : Form (α → β)) (g : Form α) : Form β := (f.both g).map fun p => p.1 p.2

/-- The first spelling that is present, with its value. -/
def present? (es : List (Value × Value)) : List String → Option (String × Value)
  | [] => none
  | name :: rest =>
    match Value.member? es name with
    | some v => some (name, v)
    | none => present? es rest

/-- A field that may be absent; then it has a default. -/
def field (names : List String) (check : Check α) (default : α) : Form α := fun es =>
  match present? es names with
  | some (name, v) => ⟨(check v).within (.name name), [name]⟩
  | none => ⟨.ok default, []⟩

/-- A field that has to be present. -/
def required (name : String) (check : Check α) : Form α := fun es =>
  match Value.member? es name with
  | some v => ⟨(check v).within (.name name), [name]⟩
  | none => ⟨.error [⟨[.name name], .missing, .dict es⟩], []⟩

/-- A field that may be absent and whose result is known beforehand if it is present. -/
def known (name : String) (result : Option (Checked α)) (default : α) : Form α := fun _ =>
  match result with
  | some a => ⟨a.within (.name name), [name]⟩
  | none => ⟨.ok default, []⟩

/-- The issues of members that belong to no field. -/
def extras (used : List String) : List (Value × Value) → List Issue
  | [] => []
  | (.text k, v) :: rest =>
    if used.contains k then extras used rest
    else ⟨[.name k], .extra, v⟩ :: extras used rest
  | (k, _) :: rest => ⟨[Key.ofValue k], .keyNotText, k⟩ :: extras used rest

/-- Reads a form from the members of a mapping and refuses all other members. -/
def close (f : Form α) (es : List (Value × Value)) : Checked α :=
  let a := f es
  match a.result, extras a.used es with
  | .ok x, [] => .ok x
  | .ok _, issues => .error issues
  | .error e, issues => .error (e ++ issues)

/-- Reads a form from a mapping; another value is no record of the model. -/
def check (model : String) (f : Form α) : Check α
  | .dict es => f.close es
  | v => Checked.refuse (.notRecord model) v

instance : Functor Form where
  map := map

instance : Seq Form where
  seq f g := f.apply (g ())

end Form

end BlockSuite
