import BlockSuite.Yaml.Problem

/-!
Reading the parts of a token: computations on a position in a text that fail with a problem at a
place. Names, tags, addresses and directives are read here.
-/

namespace BlockSuite.Yaml

/-- A computation that reads a part of a text. -/
abbrev Scan := StateT Cursor (Except Flaw)

namespace Scan

/-- The character some places ahead. -/
def peek (ahead : Nat := 0) : Scan Char := return (← get).peek ahead

/-- The place reached. -/
def mark : Scan Mark := return (← get).mark

/-- Reads some characters. -/
def advance (n : Nat) : Scan Unit := modify (·.advance n)

/-- Reads characters as long as they are of a class. -/
def span (p : Char → Bool) : Scan (List Char) := modifyGet (·.span p)

/-- Reads past characters of a class. -/
def skip (p : Char → Bool) : Scan Unit := modify (·.skip p)

def skipSpaces : Scan Unit := skip (· == ' ')

/-- Reads the end of a line, if it comes next. -/
def lineBreak : Scan (List Char) := modifyGet Cursor.lineBreak

/-- A problem at the place reached. -/
def fail {α : Type} (p : Problem) : Scan α := do throw (.problem (← mark) p)

/-- Something else is called for where a character stands. -/
def unexpected {α : Type} (wanted : Wanted) (ahead : Nat := 0) : Scan α := do
  fail (.unexpected wanted (← peek ahead))

/-- Calls for a character of a class, which is not read. -/
def expect (p : Char → Bool) (wanted : Wanted) : Scan Unit := do
  unless p (← peek) do unexpected wanted

/-- Reads what is left of a line that may only hold a comment. -/
def restOfLine : Scan Unit := do
  skipSpaces
  modify Cursor.skipComment
  expect isLineEnd .lineEnd
  discard lineBreak

def isHexDigit (c : Char) : Bool := (Text.hexValue? c).isSome

/-- The number that hexadecimal digits spell. -/
def hexValue (cs : List Char) : Nat :=
  cs.foldl (fun n c => n * 16 + (Text.hexValue? c).getD 0) 0

/-- Reads a fixed number of hexadecimal digits. -/
def hexDigits (count : Nat) (wanted : Wanted) : Scan Nat := do
  let ds := ((← get).rest.take count).takeWhile isHexDigit
  if ds.length < count then unexpected wanted ds.length
  else
    advance count
    return hexValue ds

/-- Reads a name that has to end in a character of a class. -/
def name (ends : Char → Bool) : Scan (List Char) := do
  let cs ← span isNameChar
  if cs.isEmpty then unexpected .name
  else
    expect ends .name
    return cs

/-- Characters after the name of an anchor or alias. -/
def endsAnchor (c : Char) : Bool := isSeparator c || "?:,]\x7d%@`".toList.contains c

/-- Reads an anchor or alias behind its sign. -/
def anchor : Scan Content := do
  advance 1
  return .name (String.ofList (← name endsAnchor))

/-- Characters of an address. -/
def isAddressChar (c : Char) : Bool :=
  isNameChar c || ";/?:@&=+$,.!~*'()[]%".toList.contains c

/-- Reads bytes that are written with percent signs. -/
def escapedBytes : Nat → Scan (List UInt8)
  | 0 => return []
  | fuel + 1 => do
    if (← peek) == '%' then
      advance 1
      let n ← hexDigits 2 .addressEscape
      return n.toUInt8 :: (← escapedBytes fuel)
    else return []

/-- Reads an address with the bytes written in it; fuel bounds the characters read. -/
def addressChars : Nat → Scan (List Char)
  | 0 => return []
  | fuel + 1 => do
    let c ← peek
    if c == '%' then
      let start ← mark
      let bytes ← escapedBytes (fuel + 1)
      match Text.illFormed? 0 bytes with
      | some part => throw (.problem start (.illFormed bytes part))
      | none => return Text.decodeBytes bytes ++ (← addressChars fuel)
    else if isAddressChar c then
      advance 1
      return c :: (← addressChars fuel)
    else return []

/-- Reads an address. -/
def address : Scan String := do
  let cs ← addressChars (← get).rest.length
  if cs.isEmpty then unexpected .address else return String.ofList cs

/-- Reads the handle of a tag: one exclamation mark, or two with a name between them. -/
def handle : Scan String := do
  expect (· == '!') .exclamation
  if (← peek 1) == ' ' then
    advance 1
    return "!"
  else
    advance 1
    let cs ← span isNameChar
    expect (· == '!') .exclamation
    advance 1
    return String.ofList ('!' :: cs ++ ['!'])

/-- Whether another exclamation mark stands in the word of a tag. -/
def hasHandle (c : Cursor) : Bool := ((c.rest.drop 1).takeWhile (!isWordEnd ·)).contains '!'

/-- Reads a tag: an address between angle brackets, a lone exclamation mark, or a handle with
what follows it. -/
def tag : Scan Content := do
  let c ← peek 1
  let content ←
    if c == '<' then
      advance 2
      let uri ← address
      expect (· == '>') .closingBracket
      advance 1
      pure (Content.tag none uri)
    else if isSeparator c then
      advance 1
      pure (Content.tag none "!")
    else if hasHandle (← get) then
      let h ← handle
      pure (Content.tag (some h) (← address))
    else
      advance 1
      pure (Content.tag (some "!") (← address))
  expect isWordEnd .space
  return content

/-- Reads a number of a version. -/
def versionNumber : Scan Nat := do
  let isDigit (c : Char) : Bool := '0' ≤ c && c ≤ '9'
  expect isDigit .digit
  return decimal (← span isDigit)
where
  /-- The number that decimal digits spell. -/
  decimal (cs : List Char) : Nat := cs.foldl (fun n c => n * 10 + (c.toNat - 48)) 0

/-- Reads a directive: a version, a handle for tags, or one that says nothing here. -/
def directive : Scan Directive := do
  advance 1
  match String.ofList (← name isWordEnd) with
  | "YAML" =>
    skipSpaces
    let major ← versionNumber
    expect (· == '.') .digitOrPoint
    advance 1
    discard versionNumber
    expect isWordEnd .digitOrSpace
    return .version major
  | "TAG" =>
    skipSpaces
    let h ← handle
    expect (· == ' ') .space
    skipSpaces
    let uri ← address
    expect isWordEnd .space
    return .handle h uri
  | _ =>
    skip (!isLineEnd ·)
    return .other

end Scan

end BlockSuite.Yaml
