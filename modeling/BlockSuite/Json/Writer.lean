import BlockSuite.Value.Equal
import BlockSuite.Value.Quoted
import BlockSuite.Text.Utf8
import BlockSuite.Number.Word

/-!
Values as JSON text. Writing happens in two steps. First a value is reduced to what JSON knows:
the dates, moments, durations, bytes, sets and handles in it are replaced. Then the reduced value
is written, compactly or over indented lines. Keys that are no scalars of JSON are refused.
-/

namespace BlockSuite.Json

/-- A character inside a JSON text. -/
def escape (c : Char) : List Char :=
  match c with
  | '"' => ['\\', '"']
  | '\\' => ['\\', '\\']
  | '\n' => ['\\', 'n']
  | '\r' => ['\\', 'r']
  | '\t' => ['\\', 't']
  | c =>
    if c.toNat = 8 then ['\\', 'b']
    else if c.toNat = 12 then ['\\', 'f']
    else if c.toNat < 0x20 then '\\' :: 'u' :: (hexText 4 c.toNat).toList
    else [c]

/-- A text in double quotes. -/
def ofText (s : String) : String :=
  String.ofList ('"' :: (s.toList.flatMap escape ++ ['"']))

/-- A floating point number; the names stand outside the JSON standard. -/
def ofDouble : Double → String
  | .nan => "NaN"
  | .infinite false => "Infinity"
  | .infinite true => "-Infinity"
  | d => d.render

/-- How written values are set out on lines: on one line, without or with spaces, or each member
on a line of its own behind as many indents as it lies deep. -/
inductive Layout where
  | compact
  | spaced
  | indented (indent : String)
deriving Repr, Inhabited

namespace Layout

/-- What stands between a key and its value. -/
def colon : Layout → String
  | compact => ":"
  | spaced | indented _ => ": "

/-- Brackets around members at a depth. -/
def wrap (layout : Layout) (depth : Nat) (opening closing : String) (members : List String) :
    String :=
  if members.isEmpty then opening ++ closing
  else
    match layout with
    | compact => opening ++ ",".intercalate members ++ closing
    | spaced => opening ++ ", ".intercalate members ++ closing
    | indented indent =>
      let margin (n : Nat) : String := "\n" ++ String.join (List.replicate n indent)
      opening ++ margin (depth + 1) ++ ("," ++ margin (depth + 1)).intercalate members ++
        margin depth ++ closing

/-- The name of a value's type in faults: that of its group is left out between lines. -/
def nameType : Layout → Value → String
  | indented _, v => v.typeName
  | compact, v | spaced, v => v.fullTypeName

/-- Some blanks; a number below zero gives none, and one of more than 64 bits is a fault. -/
def blanks (i : Int) : Except Fault String :=
  if Number.fitsWord i then .ok (Text.repeated ' ' i.toNat)
  else .error (.overflow "cannot fit 'int' into an index-sized integer")

/-- The layout that an indent asks for: null for none, a number of spaces, or a text. -/
def ofIndent : Value → Except Fault Layout
  | .null => .ok spaced
  | .text s => .ok (indented s)
  | .bool b => .ok (indented (if b then " " else ""))
  | .int i => (blanks i).map indented
  | v =>
    match v.keyFault? with
    | some f => .error f
    | none =>
      .error (.type ("can't multiply sequence by non-int of type '" ++ v.fullTypeName ++ "'"))

end Layout

/-- The text of a key. -/
def keyText (layout : Layout) : Value → Except Fault String
  | .text s => .ok s
  | .null => .ok "null"
  | .bool b => .ok (if b then "true" else "false")
  | .int i => intText i
  | .float d => .ok (ofDouble d)
  | v => .error (.type ("keys must be str, int, float, bool or None, not " ++ layout.nameType v))

mutual

/-- Writes a reduced value; what JSON does not know was replaced before. -/
def write (layout : Layout) (depth : Nat) : Value → Except Fault String
  | .null => .ok "null"
  | .bool b => .ok (if b then "true" else "false")
  | .int i => intText i
  | .float d => .ok (ofDouble d)
  | .text s => .ok (ofText s)
  | .list xs | .tuple xs | .set xs => do
    return layout.wrap depth "[" "]" (← writeAll layout (depth + 1) xs)
  | .dict es => do
    return layout.wrap depth "\x7b" "\x7d" (← writeMembers layout (depth + 1) es)
  | v => do return ofText (← v.plainText)

def writeAll (layout : Layout) (depth : Nat) : List Value → Except Fault (List String)
  | [] => .ok []
  | x :: xs => do
    let s ← write layout depth x
    return s :: (← writeAll layout depth xs)

def writeMembers (layout : Layout) (depth : Nat) :
    List (Value × Value) → Except Fault (List String)
  | [] => .ok []
  | (k, v) :: rest => do
    let key ← keyText layout k
    let value ← write layout depth v
    return (ofText key ++ layout.colon ++ value) :: (← writeMembers layout depth rest)

end

/-- Pairs with their plain texts, in the order of these texts. -/
def sortByText (xs : List (String × Value)) : List Value :=
  (xs.mergeSort fun a b => a.1 ≤ b.1).map (·.2)

mutual

/-- Reduces a value for substitution: a number without a fraction becomes a whole number, except
among the members of a set; a set becomes a list in the order of its members' texts. -/
def reduce (whole : Bool) : Value → Except Fault Value
  | .float d =>
    match (if whole then d.toInt? else none) with
    | some i => .ok (.int i)
    | none => .ok (.float d)
  | .bytes bs => .ok (.text (Text.ofBytes bs))
  | .date d => .ok (.text d.text)
  | .moment m => .ok (.text m.isoText)
  | .duration d => .ok (.float d.totalSeconds)
  | .list xs => do return .list (← reduceAll whole xs)
  | .tuple xs => do return .list (← reduceAll whole xs)
  | .set xs => do return .list (sortByText (← reduceMembers xs))
  | .dict es => do return .dict (← reduceEntries whole es)
  | v@(.handle _) | v@(.inner ..) => do return .text (← v.plainText)
  | v => .ok v

def reduceAll (whole : Bool) : List Value → Except Fault (List Value)
  | [] => .ok []
  | x :: xs => do
    let y ← reduce whole x
    return y :: (← reduceAll whole xs)

def reduceMembers : List Value → Except Fault (List (String × Value))
  | [] => .ok []
  | x :: xs => do
    let key ← x.plainText
    let y ← reduce false x
    return (key, y) :: (← reduceMembers xs)

def reduceEntries (whole : Bool) : List (Value × Value) → Except Fault (List (Value × Value))
  | [] => .ok []
  | (k, v) :: rest => do
    let y ← reduce whole v
    return (k, y) :: (← reduceEntries whole rest)

end

mutual

/-- Reduces a value for a report: what JSON does not know is shown as its plain text. -/
def shown : Value → Except Fault Value
  | .list xs => do return .list (← shownAll xs)
  | .tuple xs => do return .list (← shownAll xs)
  | .dict es => do return .dict (← shownEntries es)
  | .set xs => do return .text (← (Value.set xs).quoted)
  | .bytes bs => do return .text (← (Value.bytes bs).quoted)
  | .date d => .ok (.text d.text)
  | .moment m => .ok (.text m.text)
  | .duration d => .ok (.text d.text)
  | v@(.handle _) | v@(.inner ..) => do return .text (← v.plainText)
  | v => .ok v

def shownAll : List Value → Except Fault (List Value)
  | [] => .ok []
  | x :: xs => do
    let y ← shown x
    return y :: (← shownAll xs)

def shownEntries : List (Value × Value) → Except Fault (List (Value × Value))
  | [] => .ok []
  | (k, v) :: rest => do
    let y ← shown v
    return (k, y) :: (← shownEntries rest)

end

/-- A value as an indented report. -/
def report (indent : String) (v : Value) : Except Fault String := do
  write (.indented indent) 0 (← shown v)

mutual

/-- Puts the members of all mappings in the order of their keys. -/
def sortKeys : Value → Value
  | .list xs => .list (sortKeysAll xs)
  | .dict es =>
    .dict ((sortKeysEntries es).mergeSort fun a b =>
      match a.1, b.1 with
      | .text x, .text y => x ≤ y
      | _, _ => true)
  | v => v

def sortKeysAll : List Value → List Value
  | [] => []
  | x :: xs => sortKeys x :: sortKeysAll xs

def sortKeysEntries : List (Value × Value) → List (Value × Value)
  | [] => []
  | (k, v) :: rest => (k, sortKeys v) :: sortKeysEntries rest

end

end BlockSuite.Json
