import BlockSuite.Failure
import BlockSuite.Value.Equal

/-!
Issues as errors that point into the document. The first issue whose path leads somewhere in the
document gives the message, and the part it leads to is shown.
-/

namespace BlockSuite

/-- What an error is told of an issue: where it is, and what is said about it. -/
structure Remark where
  path : List Key
  message : String
deriving DecidableEq, Repr, Inhabited

/-- What is told of an issue. -/
def Issue.remark (i : Issue) : Remark := ⟨i.path, i.cause.message⟩

namespace Invalid

/-- A part of a document, with the origins of its dates. -/
abbrev Part := Value × Origins

/-- How far a path leads: the part reached, and the part and key it was reached from. -/
structure Reach where
  container : Value
  part : Part
  key : Option Key
deriving Repr, Inhabited

/-- The member of a part under a key; a part that holds nothing has none and ends a path. -/
def step? (p : Part) (key : Key) : Option (Option Part) :=
  let item (xs : List Value) (i : Nat) : Option Part := (xs[i]?).map (·, p.2.part i)
  match p.1 with
  | .list xs | .tuple xs =>
    some (match key with
      | .index i => if 0 ≤ i then item xs i.toNat else none
      | .name _ => none)
  | .dict es =>
    some ((es.findIdx? fun e => Value.same e.1 key.toValue).bind fun i =>
      (es[i]?).map fun e => (e.2, p.2.part (2 * i + 1)))
  | _ => none

/-- Follows a path as far as the document has it; keys that are not there are passed over. -/
def follow : Reach → List Key → Option Reach
  | r, [] => some r
  | r, key :: rest =>
    match step? r.part key with
    | none => none
    | some none => follow r rest
    | some (some v) => follow ⟨r.part.1, v, some key⟩ rest

/-- The first line of a message that is not blank. -/
def firstLine? (message : String) : Option String :=
  ((Text.lines message).find? fun line => !Text.isBlankText line).map Text.trim

/-- The message and the part shown for an issue, if its path leads somewhere. -/
def locate? (data : Part) (remark : Remark) : Option (String × Part) := do
  let r ← follow ⟨data.1, data, none⟩ remark.path
  let key ← r.key
  let line ← firstLine? remark.message
  match r.container with
  | .dict _ => return (line, .dict [(key.toValue, r.part.1)], .parts [.unknown, r.part.2])
  | _ => return (line, .list [r.part.1], .parts [r.part.2])

/-- The error of a document about which something is remarked, with the part of the first remark
that can be located. -/
def pointed (remarks : List Remark) (data : Part) (filename : Option String) : BlockError :=
  let about (message : String) (element : Part) : BlockError :=
    { reason := .schema
      message := .text message
      place :=
        { filename := some (.ofText? filename), element := some element.1, origins := element.2 } }
  match data.1 with
  | .dict (_ :: _) =>
    match remarks.findSome? (locate? data) with
    | some (message, element) => about message element
    | none => about "Validation error" data
  | _ => about "Type validation error" data

/-- The error of a document with issues. -/
def located (e : Invalid) (data : Part) (filename : Option String) : BlockError :=
  pointed (e.issues.map Issue.remark) data filename

end Invalid

end BlockSuite
