import BlockSuite.Yaml.Scan

/-!
Scalars: quoted, plain, and in blocks of lines. A line break inside a scalar counts as a space,
and each further one as itself, except in literal blocks.
-/

namespace BlockSuite.Yaml.Scan

/-- The break at the end of a line and the breaks of the blank lines behind it, folded. -/
def folded (first : List Char) (further : List Char) : List Char :=
  if first != ['\n'] then first ++ further
  else if further.isEmpty then [' ']
  else further

/-- Reads blank lines inside a quoted scalar and the blanks in front of the next line. -/
def quotedBreaks : Nat → Scan (List Char)
  | 0 => return []
  | fuel + 1 => do
    if (← get).isAtBoundary then fail .boundaryInQuotes
    else
      skip fun c => c == ' ' || c == '\t'
      let b ← lineBreak
      if b.isEmpty then return [] else return b ++ (← quotedBreaks fuel)

/-- Reads blanks inside a quoted scalar. -/
def quotedBlanks (fuel : Nat) : Scan (List Char) := do
  let blanks ← span fun c => c == ' ' || c == '\t'
  if (← peek) == endChar then fail .unclosedQuote
  else
    let b ← lineBreak
    if b.isEmpty then return blanks
    else return folded b (← quotedBreaks fuel)

/-- Characters that an escape with one letter stands for. -/
def escapes : List (Char × Nat) :=
  [('0', 0x00), ('a', 0x07), ('b', 0x08), ('t', 0x09), ('\t', 0x09), ('n', 0x0A), ('v', 0x0B),
    ('f', 0x0C), ('r', 0x0D), ('e', 0x1B), (' ', 0x20), ('"', 0x22), ('\\', 0x5C), ('/', 0x2F),
    ('N', 0x85), ('_', 0xA0), ('L', 0x2028), ('P', 0x2029)]

/-- Letters of escapes with the number of hexadecimal digits behind them. -/
def longEscapes : List (Char × Nat) := [('x', 2), ('u', 4), ('U', 8)]

/-- Reads an escape behind its backslash. -/
def escape (fuel : Nat) : Scan (List Char) := do
  let c ← peek
  match escapes.lookup c, longEscapes.lookup c with
  | some code, _ =>
    advance 1
    return [Char.ofNat code]
  | none, some digits =>
    advance 1
    let code ← hexDigits digits (.escape digits)
    if 0x110000 ≤ code then throw .unreadable else return [Char.ofNat code]
  | none, none =>
    if isBreak c then
      discard lineBreak
      quotedBreaks fuel
    else fail (.unknownEscape c)

/-- Reads a quoted scalar up to its closing quote. In single quotes a quote is written twice, in
double quotes a backslash starts an escape. -/
def quotedBody (quote : Char) : Nat → Scan (List Char)
  | 0 => return []
  | fuel + 1 => do
    let c ← peek
    if c == quote then
      if quote == '\'' && (← peek 1) == '\'' then
        advance 2
        return '\'' :: (← quotedBody quote fuel)
      else return []
    else if c == '\\' && quote == '"' then
      advance 1
      let cs ← escape fuel
      return cs ++ (← quotedBody quote fuel)
    else if isSeparator c then
      let cs ← quotedBlanks fuel
      return cs ++ (← quotedBody quote fuel)
    else
      advance 1
      return c :: (← quotedBody quote fuel)

/-- Reads a quoted scalar. -/
def quoted : Scan Content := do
  let quote ← peek
  advance 1
  let cs ← quotedBody quote ((← get).rest.length + 1)
  advance 1
  return .scalar (String.ofList cs) false

/-- Signs of flow collections that end a plain scalar inside of them. -/
def isFlowSign (c : Char) : Bool := c == ',' || c == '[' || c == ']' || c == '\x7b' || c == '\x7d'

/-- The number of characters of a plain scalar on a line up to the next blank. -/
def plainLength (inFlow : Bool) : List Char → Nat
  | [] => 0
  | c :: rest =>
    let next := (rest.head?).getD endChar
    if isSeparator c || (c == ':' && (isSeparator next || (inFlow && isFlowSign next))) ||
        (inFlow && (isFlowSign c || c == '?')) then 0
    else plainLength inFlow rest + 1

/-- Reads blank lines inside a plain scalar and the spaces in front of the next line, unless a
document starts or ends there. -/
def plainBreaks : Nat → Scan (Option (List Char))
  | 0 => return some []
  | fuel + 1 => do
    skipSpaces
    let b ← lineBreak
    if b.isEmpty then return some []
    else if (← get).isAtBoundary then return none
    else return (← plainBreaks fuel).map (b ++ ·)

/-- Reads blanks inside a plain scalar: what they stand for, and whether a line ended. Nothing
follows a scalar that no blanks follow. -/
def plainBlanks (fuel : Nat) : Scan (Option (List Char) × Bool) := do
  let spaces ← span (· == ' ')
  let b ← lineBreak
  if b.isEmpty then return (if spaces.isEmpty then none else some spaces, false)
  else if (← get).isAtBoundary then return (none, true)
  else return ((← plainBreaks fuel).map (folded b), true)

/-- What is read of a plain scalar: its text, the place where it ends, and whether the line ended
behind it. -/
structure Plain where
  text : List Char
  stop : Mark
  lineEnded : Bool

/-- Reads a plain scalar behind what is read of it and blanks that count only if more follows. -/
def plainBody (inFlow : Bool) (indent : Int) (read : Plain) (blanks : List Char) :
    Nat → Scan Plain
  | 0 => return read
  | fuel + 1 => do
    let c ← get
    let n := plainLength inFlow c.rest
    if c.peek == '#' || n == 0 then return read
    else
      advance n
      let stop ← mark
      let (more, lineEnded) ← plainBlanks fuel
      let read : Plain := ⟨read.text ++ blanks ++ c.rest.take n, stop, lineEnded⟩
      let here ← get
      match more with
      | none => return read
      | some blanks =>
        if here.peek == '#' || (!inFlow && (here.mark.column : Int) < indent) then return read
        else plainBody inFlow indent read blanks fuel

/-- Reads a plain scalar whose further lines are indented. -/
def plain (inFlow : Bool) (indent : Int) : Scan Plain := do
  let c ← get
  plainBody inFlow indent ⟨[], c.mark, false⟩ [] (c.rest.length + 1)

/-- How the line breaks at the end of a block are kept. -/
inductive Chomping where
  | clip
  | strip
  | keep
deriving Repr, DecidableEq, Inhabited

/-- Reads how the end of a block is kept, if it is told. -/
def chomping? : Scan (Option Chomping) := do
  let c ← peek
  if c == '+' || c == '-' then
    advance 1
    return some (if c == '+' then .keep else .strip)
  else return none

/-- Reads the indentation of a block, if it is told. -/
def indentation? : Scan (Option Nat) := do
  let c ← peek
  if c == '0' then fail .noIndentation
  else if '1' ≤ c && c ≤ '9' then
    advance 1
    return some (c.toNat - 48)
  else return none

/-- Reads the header of a block: how its end is kept and its indentation, in either order. -/
def blockHeader : Scan (Chomping × Option Nat) := do
  let before ← chomping?
  let indentation ← indentation?
  let behind ← if before.isNone && indentation.isSome then chomping? else pure none
  expect isWordEnd .blockHeader
  return ((before <|> behind).getD .clip, indentation)

/-- Reads the blank lines in front of a block whose indentation is not told, with the greatest
column reached. -/
def blockLead (widest : Nat) : Nat → Scan (List Char × Nat)
  | 0 => return ([], widest)
  | fuel + 1 => do
    let c ← peek
    if c == ' ' then
      advance 1
      blockLead (max widest (← mark).column) fuel
    else
      let b ← lineBreak
      if b.isEmpty then return ([], widest)
      else
        let (bs, widest) ← blockLead widest fuel
        return (b ++ bs, widest)

/-- Reads spaces up to a column. -/
def indentTo (indent : Nat) : Scan Unit := do
  let c ← get
  advance ((c.rest.take (indent - c.mark.column)).takeWhile (· == ' ')).length

/-- Reads blank lines inside a block. -/
def blockBreaks (indent : Nat) : Nat → Scan (List Char)
  | 0 => return []
  | fuel + 1 => do
    indentTo indent
    let b ← lineBreak
    if b.isEmpty then return [] else return b ++ (← blockBreaks indent fuel)

/-- Whether a line of a block comes next. -/
def isAtLine (indent : Nat) (c : Cursor) : Bool :=
  c.mark.column == indent && c.peek != endChar

def isIndented (c : Char) : Bool := c == ' ' || c == '\t'

/-- Reads the lines of a block behind blank lines: its text, the last line break and the blank
lines behind it. In a folded block lines that are not indented further are joined. -/
def blockLines (folds : Bool) (indent : Nat) (breaks : List Char) :
    Nat → Scan (List Char × List Char × List Char)
  | 0 => return ([], [], breaks)
  | fuel + 1 => do
    let indented := isIndented (← peek)
    let line ← span (!isLineEnd ·)
    let b ← lineBreak
    let further ← blockBreaks indent fuel
    let c ← get
    if isAtLine indent c then
      let joint :=
        if folds && b == ['\n'] && !indented && !isIndented c.peek then
          (if further.isEmpty then [' '] else [])
        else b
      let (rest, last, tail) ← blockLines folds indent further fuel
      return (breaks ++ line ++ joint ++ rest, last, tail)
    else return (breaks ++ line, b, further)

/-- Reads a block inside a collection with the given indentation. -/
def block (outer : Int) : Scan Content := do
  let folds := (← peek) == '>'
  advance 1
  let (chomping, indentation) ← blockHeader
  restOfLine
  let least := (max (outer + 1) 1).toNat
  let fuel := (← get).rest.length + 1
  let (breaks, indent) ← match indentation with
    | none => do
      let (breaks, widest) ← blockLead 0 fuel
      pure (breaks, max least widest)
    | some n => do
      let indent := least + n - 1
      pure (← blockBreaks indent fuel, indent)
  let (text, last, tail) ←
    if isAtLine indent (← get) then blockLines folds indent breaks fuel
    else pure ([], [], breaks)
  let ending := match chomping with
    | .clip => last
    | .strip => []
    | .keep => last ++ tail
  return .scalar (String.ofList (text ++ ending)) false

end BlockSuite.Yaml.Scan
