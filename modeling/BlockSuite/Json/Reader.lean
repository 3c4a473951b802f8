import BlockSuite.Value.Equal
import BlockSuite.Number.Read

/-!
Reading JSON text. Beside the standard, the names of infinities and of what is no number are
values. A key that occurs again replaces the earlier value. Whole numbers of more than 4300
digits are refused.
-/

namespace BlockSuite.Json

/-- Why a text is no JSON. -/
inductive ReadError where
  | expectingValue
  | extraData
  | expectingName
  | expectingColon
  | expectingComma
  | unterminated
  | controlCharacter
  | invalidEscape
  | invalidUnicodeEscape
  | byteOrderMark
  | tooManyDigits (digits : Nat)
deriving DecidableEq, Repr, Inhabited

/-- What is said about an error. -/
def ReadError.message : ReadError → String
  | expectingValue => "Expecting value"
  | extraData => "Extra data"
  | expectingName => "Expecting property name enclosed in double quotes"
  | expectingColon => "Expecting ':' delimiter"
  | expectingComma => "Expecting ',' delimiter"
  | unterminated => "Unterminated string starting at"
  | controlCharacter => "Invalid control character at"
  | invalidEscape => "Invalid \\escape"
  | invalidUnicodeEscape => "Invalid \\uXXXX escape"
  | byteOrderMark => "Unexpected UTF-8 BOM (decode using utf-8-sig)"
  | tooManyDigits n => (Fault.tooManyDigitsIn n).message

/-- Blanks of JSON. -/
def isSpace (c : Char) : Bool := c == ' ' || c == '\t' || c == '\n' || c == '\r'

def skipSpace (cs : List Char) : List Char := cs.dropWhile isSpace

/-- The number of four hexadecimal digits and the rest behind them. -/
def hex4? : List Char → Option (Nat × List Char)
  | a :: b :: c :: d :: rest => do
    let a ← Text.hexValue? a
    let b ← Text.hexValue? b
    let c ← Text.hexValue? c
    let d ← Text.hexValue? d
    return (((a * 16 + b) * 16 + c) * 16 + d, rest)
  | _ => none

/-- The character of a code unit; half of a pair alone has none. -/
def unitChar (n : Nat) : Char :=
  if 0xD800 ≤ n && n < 0xE000 then Char.ofNat 0xFFFD else Char.ofNat n

/-- The character behind a single letter escape. -/
def simpleEscape? : Char → Option Char
  | '"' => some '"'
  | '\\' => some '\\'
  | '/' => some '/'
  | 'b' => some (Char.ofNat 8)
  | 'f' => some (Char.ofNat 12)
  | 'n' => some '\n'
  | 'r' => some '\r'
  | 't' => some '\t'
  | _ => none

/-- The second half of a pair of code units, if an escape with one follows and more text behind
it. A half that is not hexadecimal is an error. -/
def lowHalf? : List Char → Except ReadError (Option (Nat × List Char))
  | '\\' :: 'u' :: rest =>
    if rest.length < 5 then .ok none
    else
      match hex4? rest with
      | none => .error .invalidUnicodeEscape
      | some (n, rest) => .ok (if 0xDC00 ≤ n && n < 0xE000 then some (n, rest) else none)
  | _ => .ok none

/-- Reads a text behind its opening quote; the accumulator holds its characters, last first. -/
def readText : Nat → List Char → List Char → Except ReadError (String × List Char)
  | 0, _, _ => .error .unterminated
  | _ + 1, _, [] => .error .unterminated
  | _ + 1, acc, '"' :: rest => .ok (String.ofList acc.reverse, rest)
  | _ + 1, _, ['\\'] => .error .unterminated
  | fuel + 1, acc, '\\' :: 'u' :: rest =>
    match rest with
    | _ :: _ :: _ :: _ :: _ :: _ =>
      match hex4? rest with
      | none => .error .invalidUnicodeEscape
      | some (n, rest) =>
        if 0xD800 ≤ n && n < 0xDC00 then
          match lowHalf? rest with
          | .error e => .error e
          | .ok (some (m, rest)) =>
            readText fuel (Char.ofNat (0x10000 + (n - 0xD800) * 0x400 + (m - 0xDC00)) :: acc) rest
          | .ok none => readText fuel (unitChar n :: acc) rest
        else readText fuel (unitChar n :: acc) rest
    | _ => .error .invalidUnicodeEscape
  | fuel + 1, acc, '\\' :: c :: rest =>
    match simpleEscape? c with
    | some d => readText fuel (d :: acc) rest
    | none => .error .invalidEscape
  | fuel + 1, acc, c :: rest =>
    if c.toNat < 0x20 then .error .controlCharacter else readText fuel (c :: acc) rest

/-- ASCII digits. -/
def isDigit (c : Char) : Bool := '0' ≤ c && c ≤ '9'

/-- The whole part of a number without its sign: a zero, or digits that start with another. -/
def takeWhole : List Char → List Char × List Char
  | '0' :: rest => (['0'], rest)
  | cs => (cs.takeWhile isDigit, cs.dropWhile isDigit)

/-- The fraction of a number, point included, if a digit follows the point. -/
def takeFraction : List Char → List Char × List Char
  | '.' :: rest =>
    let ds := rest.takeWhile isDigit
    if ds.isEmpty then ([], '.' :: rest) else ('.' :: ds, rest.dropWhile isDigit)
  | cs => ([], cs)

/-- The exponent of a number, its letter included, if a digit follows. -/
def takeExponent : List Char → List Char × List Char
  | e :: rest =>
    if e == 'e' || e == 'E' then
      let (sign, body) :=
        match rest with
        | '+' :: more => (['+'], more)
        | '-' :: more => (['-'], more)
        | _ => ([], rest)
      let ds := body.takeWhile isDigit
      if ds.isEmpty then ([], e :: rest) else (e :: (sign ++ ds), body.dropWhile isDigit)
    else ([], e :: rest)
  | [] => ([], [])

/-- Reads a number. -/
def readNumber (cs : List Char) : Except ReadError (Value × List Char) :=
  let (negative, body) :=
    match cs with
    | '-' :: rest => (true, rest)
    | _ => (false, cs)
  let (whole, rest) := takeWhole body
  if whole.isEmpty then .error .expectingValue
  else
    let (fraction, rest) := takeFraction rest
    let (exponent, rest) := takeExponent rest
    if fraction.isEmpty && exponent.isEmpty then
      if Number.maxDigits < whole.length then .error (.tooManyDigits whole.length)
      else
        let n : Int := Number.ofDigits (whole.map (·.toNat - 48))
        .ok (.int (if negative then -n else n), rest)
    else
      match Number.readDecimal? negative (whole ++ fraction ++ exponent) with
      | some d => .ok (.float d, rest)
      | none => .error .expectingValue

/-- Named values. -/
def constants : List (String × Value) :=
  [("null", .null), ("true", .bool true), ("false", .bool false), ("NaN", .float .nan),
    ("Infinity", .float (.infinite false)), ("-Infinity", .float (.infinite true))]

/-- The named value a text starts with. -/
def constant? (cs : List Char) : Option (Value × List Char) :=
  (constants.find? fun c => Text.startsWith cs c.1.toList).map fun c => (c.2, cs.drop c.1.length)

mutual

/-- Reads a value at the start of a text. -/
def readValue : Nat → List Char → Except ReadError (Value × List Char)
  | 0, _ => .error .expectingValue
  | fuel + 1, cs =>
    match cs with
    | '"' :: rest => do
      let (s, rest) ← readText (rest.length + 1) [] rest
      return (.text s, rest)
    | '[' :: rest =>
      match skipSpace rest with
      | ']' :: rest => .ok (.list [], rest)
      | rest => do
        let (xs, rest) ← readItems fuel rest
        return (.list xs, rest)
    | '\x7b' :: rest =>
      match skipSpace rest with
      | '\x7d' :: rest => .ok (.dict [], rest)
      | rest => do
        let (es, rest) ← readMembers fuel rest
        return (Value.mappingOf es, rest)
    | _ =>
      match constant? cs with
      | some r => .ok r
      | none => readNumber cs

/-- Reads the items of a list up to its closing bracket. -/
def readItems : Nat → List Char → Except ReadError (List Value × List Char)
  | 0, _ => .error .expectingValue
  | fuel + 1, cs => do
    let (x, rest) ← readValue fuel cs
    match skipSpace rest with
    | ']' :: rest => return ([x], rest)
    | ',' :: rest => do
      let (xs, rest) ← readItems fuel (skipSpace rest)
      return (x :: xs, rest)
    | _ => .error .expectingComma

/-- Reads the members of a mapping up to its closing brace. -/
def readMembers : Nat → List Char → Except ReadError (List (Value × Value) × List Char)
  | 0, _ => .error .expectingValue
  | fuel + 1, cs =>
    match cs with
    | '"' :: rest => do
      let (key, rest) ← readText (rest.length + 1) [] rest
      match skipSpace rest with
      | ':' :: rest => do
        let (v, rest) ← readValue fuel (skipSpace rest)
        match skipSpace rest with
        | '\x7d' :: rest => return ([(.text key, v)], rest)
        | ',' :: rest => do
          let (es, rest) ← readMembers fuel (skipSpace rest)
          return ((.text key, v) :: es, rest)
        | _ => .error .expectingComma
      | _ => .error .expectingColon
    | _ => .error .expectingName

end

/-- Reads a text that is one value and nothing else but blanks. -/
def read (s : String) : Except ReadError Value :=
  match s.toList with
  | c :: cs =>
    if c.toNat = 0xFEFF then .error .byteOrderMark
    else do
      let start := skipSpace (c :: cs)
      let (v, rest) ← readValue (2 * start.length + 2) start
      if (skipSpace rest).isEmpty then return v else .error .extraData
  | [] => .error .expectingValue

end BlockSuite.Json
