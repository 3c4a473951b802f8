import BlockSuite.Check.Issue
import BlockSuite.Name
import BlockSuite.Number.Entry
import BlockSuite.Value.Coerce

/-!
Checks of single values. A check either gives what it understood or all issues it found; two
checks side by side report the issues of both.
-/

namespace BlockSuite

/-- What a check gives: what it understood, or its issues. -/
abbrev Checked (α : Type u) := Except (List Issue) α

namespace Checked

/-- Both of two results, with the issues of both. -/
def both (a : Checked α) (b : Checked β) : Checked (α × β) :=
  match a, b with
  | .ok x, .ok y => .ok (x, y)
  | .error e, .error f => .error (e ++ f)
  | .error e, .ok _ => .error e
  | .ok _, .error f => .error f

/-- All of a list of results, with the issues of all. -/
def all : List (Checked α) → Checked (List α)
  | [] => .ok []
  | a :: rest => ((a.both (all rest)).map fun p => p.1 :: p.2)

/-- A result seen from around the part. -/
def within (key : Key) (a : Checked α) : Checked α := a.mapError (·.map (Issue.within key))

/-- A single issue with the whole input. -/
def refuse (cause : Cause) (v : Value) : Checked α := .error [⟨[], cause, v⟩]

@[simp] theorem both_ok (x : α) (y : β) : both (.ok x) (.ok y) = .ok (x, y) := rfl

@[simp] theorem all_nil : all ([] : List (Checked α)) = .ok [] := rfl

@[simp] theorem within_ok (key : Key) (x : α) : within key (.ok x) = .ok x := rfl

end Checked

/-- A check of a value. -/
abbrev Check (α : Type u) := Value → Checked α

namespace Check

open Checked (refuse)

/-- Any value. -/
def any : Check Value := .ok

/-- A text; bytes are read as one. -/
def text : Check String
  | .text s => .ok s
  | .bytes bs => if Text.isUtf8 bs then .ok (Text.ofBytes bs) else refuse .notUnicode (.bytes bs)
  | v => refuse .notText v

/-- A text that is not empty. -/
def nonemptyText : Check String := fun v => do
  let s ← text v
  if s.isEmpty then refuse (.tooShort 1) v else return s

/-- The name of a variable, in letters and digits of any script behind its head. -/
def variableName : Check String := fun v => do
  let s ← text v
  if Name.isVariable s then return s else refuse (.mismatch Name.variablePattern) v

/-- The type of a block. -/
def blockType : Check String := fun v => do
  let s ← text v
  if Name.isBlockType s then return s else refuse (.mismatch Name.blockTypePattern) v

/-- A value that may be null. -/
def optional (check : Check α) : Check (Option α)
  | .null => .ok none
  | v => (check v).map some

/-- Texts for true and false. -/
def truthTexts : List (String × Bool) :=
  [("0", false), ("off", false), ("f", false), ("false", false), ("n", false), ("no", false),
    ("1", true), ("on", true), ("t", true), ("true", true), ("y", true), ("yes", true)]

/-- A truth value: zero and one and some texts are read as one. -/
def truth : Check Bool := fun v =>
  let ofText (s : String) : Checked Bool :=
    match truthTexts.find? (·.1 == Text.asciiLower s) with
    | some (_, b) => .ok b
    | none => refuse .unclearTruth v
  let ofInt (i : Int) : Checked Bool :=
    if i = 0 then .ok false else if i = 1 then .ok true else refuse .unclearTruth v
  match v with
  | .bool b => .ok b
  | .text s => ofText s
  | .bytes bs => if Text.isUtf8 bs then ofText (Text.ofBytes bs) else refuse .unclearTruth v
  | .int i => if Number.fitsWord i then ofInt i else refuse .notTruth v
  | .float d =>
    match d.toInt? with
    | some i => if i.natAbs < Number.wordBound then ofInt i else refuse .notTruth v
    | none => refuse .notTruth v
  | v => refuse .notTruth v

/-- A whole number; truth values, numbers without a fraction and texts are read as one. -/
def whole : Check Int := fun v =>
  let ofText (s : String) : Checked Int :=
    match Number.readWhole s with
    | .ok i => .ok i
    | .error .malformed => refuse .unclearWhole v
    | .error (.tooLong _) => refuse .oversized v
  match v with
  | .int i => .ok i
  | .bool b => .ok (if b then 1 else 0)
  | .text s => ofText s
  | .bytes bs => if Text.isUtf8 bs then ofText (Text.ofBytes bs) else refuse .unclearWhole v
  | .float d =>
    if d.isFinite then
      match d.toInt? with
      | some i => if i.natAbs < Number.wordBound then .ok i else refuse .oversized v
      | none => refuse .fractional v
    else refuse .notFinite v
  | v => refuse .notWhole v

/-- A whole number that is not negative. -/
def count : Check Nat := fun v => do
  let i ← whole v
  if i < 0 then refuse (.below 0) v else return i.toNat

/-- A number; truth values and texts are read as one. -/
def number : Check Double := fun v =>
  let ofText (s : String) : Checked Double :=
    match Number.readReal? s with
    | some d => .ok d
    | none => refuse .unclearNumber v
  match v with
  | .float d => .ok d
  | .int i =>
    let d := Double.ofInt i
    if d.isFinite then .ok d else refuse .notNumber v
  | .bool b => .ok (Double.ofInt (if b then 1 else 0))
  | .text s => ofText s
  | .bytes bs => if Text.isUtf8 bs then ofText (Text.ofBytes bs) else refuse .unclearNumber v
  | v => refuse .notNumber v

/-- One of some texts, as a choice. -/
def choice (choices : List String) : Check String := fun v =>
  match v with
  | .text s => if choices.contains s then .ok s else refuse (.notChoice choices) v
  | v => refuse (.notChoice choices) v

/-- A moment; a date stands for its midnight, and a number counts from the beginning of 1970. -/
def moment : Check Moment := fun v =>
  let inCalendar (r : Checked Moment) : Checked Moment := do
    let m ← r
    if m.date.year = 0 then refuse (.unclearMoment .yearZero) v else return m
  let ofText (bytes : List UInt8) : Checked Moment :=
    inCalendar ((Calendar.ofBytes bytes).mapError fun e => [⟨[], .unclearDate e, v⟩])
  let ofCount (r : Except Calendar.EntryError Moment) : Checked Moment :=
    r.mapError fun e => [⟨[], .unclearMoment e, v⟩]
  match v with
  | .moment m => .ok m
  | .date d => .ok ⟨d, 0, 0, 0, 0, none⟩
  | .text s => ofText s.toUTF8.toList
  | .bytes bs => ofText bs
  | .int i =>
    let d := Double.ofInt i
    if Number.fitsWord i then ofCount (Calendar.ofCount i 0)
    else if d.isFinite then ofCount (Calendar.ofNumber d)
    else refuse .notMoment v
  | .float d => ofCount (Calendar.ofNumber d)
  | v => refuse .notMoment v

/-- Checks the items of a list one by one, counting from a position. -/
def itemsFrom (check : Check α) (start : Nat) : List Value → Checked (List α)
  | [] => .ok []
  | v :: rest =>
    (((check v).within (.index start)).both (itemsFrom check (start + 1) rest)).map
      fun p => p.1 :: p.2

/-- A list; tuples and sets are read as one. -/
def list (check : Check α) : Check (List α) := fun v =>
  match v.items? with
  | some xs => itemsFrom check 0 xs
  | none => refuse .notList v

/-- Two items together. -/
def pair (first : Check α) (second : Check β) : Check (α × β) := fun v =>
  match v.items? with
  | none => refuse .notTuple v
  | some [] => .error [⟨[.index 0], .missing, v⟩, ⟨[.index 1], .missing, v⟩]
  | some [a] =>
    ((first a).within (.index 0)).both (.error [⟨[.index 1], .missing, v⟩])
  | some [a, b] => ((first a).within (.index 0)).both ((second b).within (.index 1))
  | some xs => refuse (.tooLong 2 xs.length) v

/-- Checks the members of a mapping one by one, first the key and then the value. -/
def membersOf (key : Check String) (check : Check α) :
    List (Value × Value) → Checked (List (String × α))
  | [] => .ok []
  | (k, v) :: rest =>
    let place := Key.ofValue k
    let name := ((key k).within (.name "[key]")).within place
    let entry := name.both ((check v).within place)
    (entry.both (membersOf key check rest)).map fun p => p.1 :: p.2

/-- A mapping. -/
def mapping (key : Check String) (check : Check α) : Check (Dict α)
  | .dict es => (membersOf key check es).map Dict.ofPairs
  | v => refuse .notMapping v

/-- Nothing that can be written in a document can be called. -/
def callable : Check Empty := refuse .notCallable

/-- The first of two ways to read a value that succeeds; else the issues of both, each under the
name of its way. -/
def either (leftName rightName : String) (left : Check α) (right : Check β) : Check (α ⊕ β) :=
  fun v =>
    match left v, right v with
    | .ok a, _ => .ok (.inl a)
    | .error _, .ok b => .ok (.inr b)
    | .error e, .error f =>
      .error (e.map (Issue.within (.name leftName)) ++ f.map (Issue.within (.name rightName)))

end Check

end BlockSuite
