import BlockSuite.Value.Quoted
import BlockSuite.Number.Fixed
import BlockSuite.Number.Word

/-!
Message templates. A template is literal text with directives, each a percent sign followed by
flags, a width, a precision and a letter that says how the next argument is written. Directives
are met in order, so the first that cannot be written is reported, and every argument has to be
used.
-/

namespace BlockSuite.Message

/-- A width or precision: given in the template or taken from the arguments. -/
inductive Extent where
  | fixed (n : Nat)
  | argument
deriving DecidableEq, Repr, Inhabited

/-- The key of a directive: a text, or one that the template ends in. -/
inductive Key where
  | complete (name : String)
  | unclosed
deriving DecidableEq, Repr, Inhabited

/-- How an argument is written. -/
structure Directive where
  key : Option Key := none
  left : Bool := false
  plus : Bool := false
  space : Bool := false
  alternate : Bool := false
  zero : Bool := false
  width : Option Extent := none
  precision : Option Extent := none
deriving Repr, Inhabited

/-- A part of a template. A directive ends with a letter and its position, unless the template
ends before it. -/
inductive Part where
  | literal (c : Char)
  | directive (d : Directive) (ending : Option (Char × Nat))
deriving Repr, Inhabited

/-- How far a directive has been read. -/
inductive Stage where
  | opened
  | key (depth : Nat) (acc : List Char)
  | flags
  | widthDigits
  | widthDone
  | point
  | precisionDigits
  | precisionDone
  | modified
deriving DecidableEq, Repr

/-- A number continued by one more digit. -/
def extend (e : Option Extent) (c : Char) : Option Extent :=
  match e with
  | some (.fixed n) => some (.fixed (n * 10 + (c.toNat - 48)))
  | _ => some (.fixed (c.toNat - 48))

/-- What one more character makes of an open directive: still open, or complete. -/
def continueWith (stage : Stage) (d : Directive) (c : Char) : Option (Stage × Directive) :=
  let isDigit := '0' ≤ c && c ≤ '9'
  let modifier := c == 'h' || c == 'l' || c == 'L'
  let afterWidth : Option (Stage × Directive) :=
    if c == '.' then some (.point, { d with precision := some (.fixed 0) })
    else if modifier then some (.modified, d)
    else none
  let afterFlags : Option (Stage × Directive) :=
    match c with
    | '-' => some (.flags, { d with left := true })
    | '+' => some (.flags, { d with plus := true })
    | ' ' => some (.flags, { d with space := true })
    | '#' => some (.flags, { d with alternate := true })
    | '0' => some (.flags, { d with zero := true })
    | '*' => some (.widthDone, { d with width := some .argument })
    | c => if isDigit then some (.widthDigits, { d with width := extend none c }) else afterWidth
  match stage with
  | .opened => if c == '(' then some (.key 1 [], d) else afterFlags
  | .key depth acc =>
    if c == ')' && depth = 1 then
      some (.flags, { d with key := some (.complete (String.ofList acc.reverse)) })
    else
      let depth := if c == '(' then depth + 1 else if c == ')' then depth - 1 else depth
      some (.key depth (c :: acc), d)
  | .flags => afterFlags
  | .widthDigits =>
    if isDigit then some (.widthDigits, { d with width := extend d.width c }) else afterWidth
  | .widthDone => afterWidth
  | .point =>
    if c == '*' then some (.precisionDone, { d with precision := some .argument })
    else if isDigit then some (.precisionDigits, { d with precision := extend d.precision c })
    else if modifier then some (.modified, d)
    else none
  | .precisionDigits =>
    if isDigit then some (.precisionDigits, { d with precision := extend d.precision c })
    else if modifier then some (.modified, d)
    else none
  | .precisionDone => if modifier then some (.modified, d) else none
  | .modified => none

/-- The parts of a template from a position on; an open directive comes with its stage. -/
def parts (pending : Option (Stage × Directive)) (index : Nat) : List Char → List Part
  | [] =>
    match pending with
    | none => []
    | some (.key _ _, d) => [.directive { d with key := some .unclosed } none]
    | some (_, d) => [.directive d none]
  | c :: rest =>
    match pending with
    | none =>
      if c == '%' then parts (some (.opened, {})) (index + 1) rest
      else .literal c :: parts none (index + 1) rest
    | some (stage, d) =>
      match continueWith stage d c with
      | some next => parts (some next) (index + 1) rest
      | none =>
        (if c == '%' && stage = .opened then .literal '%' else .directive d (some (c, index))) ::
          parts none (index + 1) rest

/-- Arguments not used yet. A mapping alone serves every directive with a key, and one without. -/
inductive Supply where
  | items (values : List Value)
  | single (v : Value) (used : Bool)
deriving Repr, Inhabited

namespace Supply

/-- The arguments of a template. -/
def ofList : List Value → Supply
  | [.dict es] => if es.isEmpty then items [.dict es] else single (.dict es) false
  | values => items values

/-- Whether an argument was left over. -/
def isLeftOver : Supply → Bool
  | items values => !values.isEmpty
  | single _ _ => false

/-- The next argument. -/
def next : Supply → Except Fault (Value × Supply)
  | items (v :: rest) => .ok (v, items rest)
  | single v false => .ok (v, single v true)
  | _ => .error (.type "not enough arguments for format string")

end Supply

/-- The character for a number, if there is one. -/
def charOf? (n : Int) : Option Char :=
  if n < 0 || 0x110000 ≤ n then none else some (Char.ofNat n.toNat)

/-- A text behind escapes wherever it is not ASCII. -/
def asciiOnly (s : String) : String :=
  String.ofList (s.toList.flatMap fun c =>
    let n := c.toNat
    if n < 0x80 then [c]
    else '\\' :: (if n < 0x100 then 'x' :: (hexText 2 n).toList
      else if n < 0x10000 then 'u' :: (hexText 4 n).toList
      else 'U' :: (hexText 8 n).toList))

/-- A directive whose width and precision are known. -/
structure Layout where
  flags : Directive
  left : Bool
  width : Nat
  precision : Option Nat
deriving Repr, Inhabited

namespace Layout

/-- A text cut to the precision and filled up to the width. -/
def text (l : Layout) (s : String) : String :=
  let s := match l.precision with
    | some n => String.ofList (s.toList.take n)
    | none => s
  let fill := Text.repeated ' ' (l.width - s.length)
  if l.left then s ++ fill else fill ++ s

/-- A number: its sign and digits filled up to the width, with zeros behind the sign where the
flag asks for them. -/
def number (l : Layout) (negative : Bool) (digits : String) : String :=
  let sign := if negative then "-" else if l.flags.plus then "+"
    else if l.flags.space then " " else ""
  let size := sign.length + digits.length
  if l.left then sign ++ digits ++ Text.repeated ' ' (l.width - size)
  else if l.flags.zero then sign ++ Text.repeated '0' (l.width - size) ++ digits
  else Text.repeated ' ' (l.width - size) ++ sign ++ digits

/-- A whole number in some base. -/
def whole (l : Layout) (letter : Char) (i : Int) : Except Fault String := do
  let lower (base : Nat) : String := String.ofList (Nat.toDigits base i.natAbs)
  let digits ← match letter with
    | 'x' => .ok (lower 16)
    | 'X' => .ok (String.ofList ((Nat.toDigits 16 i.natAbs).map Char.toUpper))
    | 'o' => .ok (lower 8)
    | _ => intText i.natAbs
  let digits := Text.padLeft '0' (l.precision.getD 0) digits
  let mark := if l.flags.alternate then
      match letter with
      | 'x' => "0x"
      | 'X' => "0X"
      | 'o' => "0o"
      | _ => ""
    else ""
  return l.number (i < 0) (mark ++ digits)

/-- A floating point number. -/
def real (l : Layout) (letter : Char) (d : Double) : String :=
  let upper := letter == 'F' || letter == 'E' || letter == 'G'
  let mark := if upper then "E" else "e"
  let precision := l.precision.getD 6
  match d with
  | .nan => l.number false (if upper then "NAN" else "nan")
  | .infinite n => l.number n (if upper then "INF" else "inf")
  | .finite n units =>
    let alternate := l.flags.alternate
    l.number n <|
      if letter == 'f' || letter == 'F' then Double.fixed precision alternate units
      else if letter == 'e' || letter == 'E' then Double.scientific mark precision alternate units
      else Double.general mark precision alternate units

end Layout

/-- The whole number that an argument is for a decimal directive. -/
def wholeOf (letter : Char) : Value → Except Fault Int
  | .int i => .ok i
  | .bool b => .ok (if b then 1 else 0)
  | .float .nan => .error (.value "cannot convert float NaN to integer")
  | .float (.infinite _) => .error (.overflow "cannot convert float infinity to integer")
  | .float d => .ok (d.truncate?.getD 0)
  | v => .error (.type ("%" ++ letter.toString ++ " format: a real number is required, not " ++
      v.fullTypeName))

/-- Writes an argument. -/
def write (l : Layout) (letter : Char) (index : Nat) (v : Value) : Except Fault String :=
  match letter with
  | 's' => do return l.text (← v.plainText)
  | 'r' => do return l.text (← v.quoted)
  | 'a' => do return l.text (asciiOnly (← v.quoted))
  | 'd' | 'i' | 'u' => do l.whole letter (← wholeOf letter v)
  | 'x' | 'X' | 'o' =>
    match v with
    | .int i => l.whole letter i
    | .bool b => l.whole letter (if b then 1 else 0)
    | v => .error (.type ("%" ++ letter.toString ++ " format: an integer is required, not " ++
        v.fullTypeName))
  | 'f' | 'F' | 'e' | 'E' | 'g' | 'G' =>
    match v with
    | .float d => .ok (l.real letter d)
    | .int i =>
      match Double.ofInt i with
      | .infinite _ => .error (.overflow "int too large to convert to float")
      | d => .ok (l.real letter d)
    | .bool b => .ok (l.real letter (.ofInt (if b then 1 else 0)))
    | v => .error (.type ("must be real number, not " ++ v.fullTypeName))
  | 'c' =>
    match v with
    | .int i =>
      match charOf? i with
      | some c => .ok ({ l with precision := none }.text c.toString)
      | none => .error (.overflow "%c arg not in range(0x110000)")
    | .bool b => .ok ({ l with precision := none }.text (if b then "\x01" else "\x00"))
    | .text s =>
      if s.length = 1 then .ok ({ l with precision := none }.text s)
      else .error (.type "%c requires int or char")
    | _ => .error (.type "%c requires int or char")
  | c =>
    let shown := if 32 ≤ c.toNat && c.toNat < 127 then c else '?'
    .error (.value ("unsupported format character '" ++ shown.toString ++ "' (0x" ++
      String.ofList (Nat.toDigits 16 c.toNat) ++ ") at index " ++ Nat.repr index))

/-- How large a width or precision may be: its name, its largest value and the name of the
numbers that are as large. -/
structure Limit where
  name : String
  largest : Nat
  kind : String

namespace Limit

def width : Limit := ⟨"width", Number.wordBound - 1, "ssize_t"⟩

def precision : Limit := ⟨"precision", 0x7FFFFFFF, "int"⟩

/-- Whether a number is within a limit. -/
def allows (l : Limit) (i : Int) : Bool := -(l.largest + 1 : Int) ≤ i && i ≤ l.largest

end Limit

/-- A width or precision, taken from the arguments if it is to be. -/
def extentOf (limit : Limit) (supply : Supply) :
    Option Extent → Except Fault (Option Int × Supply)
  | none => .ok (none, supply)
  | some (.fixed n) =>
    if limit.allows n then .ok (some n, supply)
    else .error (.value (limit.name ++ " too big"))
  | some .argument => do
    let (v, supply) ← supply.next
    match v with
    | .int i =>
      if limit.allows i then return (some i, supply)
      else .error (.overflow ("Python int too large to convert to C " ++ limit.kind))
    | .bool b => return (some (if b then 1 else 0), supply)
    | _ => .error (.type "* wants int")

/-- The arguments that a directive takes its values from: those not used yet, or the member of the
mapping that its key names. -/
def supplyOf (arguments : Value) (supply : Supply) : Option Key → Except Fault Supply
  | none => .ok supply
  | some key =>
    match arguments, key with
    | .dict es, .complete name =>
      match Value.member? es name with
      | some v => .ok (.single v false)
      | none => .error ⟨.key, name⟩
    | .dict _, .unclosed => .error (.value "incomplete format key")
    | _, _ => .error (.type "format requires a mapping")

/-- Writes the parts of a template with the arguments. A directive takes its width and its
precision before it shows that it has no end. -/
def writeParts (arguments : Value) (supply : Supply) : List Part → Except Fault String
  | [] =>
    if supply.isLeftOver then
      .error (.type "not all arguments converted during string formatting")
    else .ok ""
  | .literal c :: rest => do return c.toString ++ (← writeParts arguments supply rest)
  | .directive d ending :: rest => do
    let supply ← supplyOf arguments supply d.key
    let (width, supply) ← extentOf .width supply d.width
    let (precision, supply) ← extentOf .precision supply d.precision
    match ending with
    | none => .error (.value "incomplete format")
    | some (letter, index) =>
      let (v, supply) ← supply.next
      let width := width.getD 0
      let l : Layout := ⟨d, d.left || width < 0, width.natAbs, precision.map Int.toNat⟩
      let s ← write l letter index v
      return s ++ (← writeParts arguments supply rest)

/-- A template with its arguments; without arguments it is a plain text. -/
def render (template : String) (arguments : List Value) : Except Fault String :=
  if arguments.isEmpty then .ok template
  else
    let supply := Supply.ofList arguments
    let whole := match supply with
      | .single v _ => v
      | .items _ => .tuple arguments
    writeParts whole supply (parts none 0 template.toList)

@[simp] theorem render_nil (template : String) : render template [] = .ok template := rfl

end BlockSuite.Message
