import BlockSuite.Yaml.Node
import BlockSuite.Yaml.Base64
import BlockSuite.Number.Read

/-!
What scalars stand for under their tags. A text that its tag has no meaning for is not readable.
-/

namespace BlockSuite.Yaml.Spelled

/-- A text without underscores. -/
def dropGaps (cs : List Char) : List Char := cs.filter (· != '_')

/-- The value of a digit in a base above ten. -/
def digitIn? (base : Nat) (c : Char) : Option Nat :=
  let value := (Text.digitValue? c).or (Text.hexValue? c)
  value.filter (· < base)

/-- Drops a letter behind a zero that tells the base again. -/
def dropBase (letter : Char) : List Char → List Char
  | '0' :: c :: rest => if c == letter || c == letter.toUpper then rest else '0' :: c :: rest
  | cs => cs

/-- Reads digits in a base, perhaps behind a sign. -/
def inBase? (base : Nat) (letter : Char) (cs : List Char) : Option Int := do
  let (negative, body) := Number.takeSign (Text.trimChars cs)
  let ds ← (dropBase letter body).mapM (digitIn? base)
  if ds.isEmpty then none
  else
    let n : Nat := ds.foldl (fun n d => n * base + d) 0
    return if negative then -(n : Int) else n

/-- Groups to the base of sixty. -/
def sixtyBased (groups : List Int) : Int := groups.foldl (fun n g => n * 60 + g) 0

/-- A whole number: binary, octal, hexadecimal, in groups of sixty, or decimal. -/
def int? (s : String) : Option Int := do
  let cs := dropGaps s.toList
  let negative := cs.head? == some '-'
  let body ← if cs.isEmpty then none else some (Tag.dropSign cs)
  let n ← match body with
    | [] => none
    | ['0'] => some 0
    | '0' :: 'b' :: ds => inBase? 2 'b' ds
    | '0' :: 'x' :: ds => inBase? 16 'x' ds
    | '0' :: ds => inBase? 8 'o' ('0' :: ds)
    | cs =>
      let read (cs : List Char) : Option Int := (Number.readInt (String.ofList cs)).toOption
      if cs.contains ':' then ((Text.splitChars ':' cs).mapM read).map sixtyBased else read cs
  return if negative then -n else n

/-- Groups to the base of sixty, the last one first. -/
def sixtyBasedDouble (sum : Double) (unit : Int) : List Double → Double
  | [] => sum
  | d :: rest => sixtyBasedDouble (sum.add (d.mul (.ofInt unit))) (unit * 60) rest

/-- A floating point number: infinite, not a number, in groups of sixty, or decimal. -/
def float? (s : String) : Option Double := do
  let cs := (Text.asciiLower (String.ofList (dropGaps s.toList))).toList
  let negative := cs.head? == some '-'
  let body := String.ofList (Tag.dropSign cs)
  let d ←
    if cs.isEmpty then none
    else if body == ".inf" then some (.infinite false)
    else if body == ".nan" then some .nan
    else if body.toList.contains ':' then
      ((Text.splitChars ':' body.toList).mapM fun p => Number.readDouble? (String.ofList p)).map
        fun ds => sixtyBasedDouble (.ofUnits false 0) 1 ds.reverse
    else Number.readDouble? body
  return if negative then d.neg else d

/-- A date or moment; a line break behind it does not count. -/
def moment? (s : String) : Option Value := do
  let cs := match s.toList.reverse with
    | '\n' :: rest => rest.reverse
    | _ => s.toList
  (← Stamp.ofChars? cs).toValue?

/-- How a character that is not in ASCII is written in messages. -/
def codeText (c : Char) : String :=
  let n := c.toNat
  if n < 0x100 then "\\x" ++ hexText 2 n
  else if n < 0x10000 then "\\u" ++ hexText 4 n
  else "\\U" ++ hexText 8 n

/-- Why a text has characters that are not in ASCII, if it has. -/
def notAscii? (cs : List Char) : Option String :=
  let isAscii (c : Char) : Bool := c.toNat < 0x80
  let start := (cs.takeWhile isAscii).length
  match (cs.drop start).takeWhile (!isAscii ·) with
  | [] => none
  | [c] =>
    some ("'ascii' codec can't encode character '" ++ codeText c ++ "' in position " ++
      Nat.repr start ++ ": ordinal not in range(128)")
  | run =>
    some ("'ascii' codec can't encode characters in position " ++ Nat.repr start ++ "-" ++
      Nat.repr (start + run.length - 1) ++ ": ordinal not in range(128)")

/-- Bytes. -/
def bytes (m : Mark) (s : String) : Except Flaw Value :=
  match notAscii? s.toList with
  | some reason => .error (.problem m (.notAscii reason))
  | none =>
    match Base64.decode s.toList with
    | .ok bs => .ok (.bytes bs)
    | .error f => .error (.problem m (.notBase64 f.text))

/-- The tags that scalars can have. -/
def tags : List Tag := [.null, .bool, .int, .float, .timestamp, .binary, .text]

/-- The tag of scalars with a full name. -/
def tag? (name : String) : Option Tag := tags.find? (·.full == name)

/-- What a text stands for under a tag. -/
def value (m : Mark) (t : Tag) (s : String) : Except Flaw Value :=
  let readable (v : Option Value) : Except Flaw Value :=
    match v with
    | some v => .ok v
    | none => .error .unreadable
  match t with
  | .null => .ok .null
  | .bool =>
    readable ((Tag.truthTexts.lookup (Text.asciiLower s)).map .bool)
  | .int => readable ((int? s).map .int)
  | .float => readable ((float? s).map .float)
  | .timestamp => readable (moment? s)
  | .binary => bytes m s
  | .text => .ok (.text s)
  | t => .error (.problem m (.unknownTag t.full))

end BlockSuite.Yaml.Spelled
