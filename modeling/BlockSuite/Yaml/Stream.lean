import BlockSuite.Yaml.Scalar

/-!
The tokens of a text. Outside of flow collections indentation opens and closes collections. What
turns out to be the key of a mapping is known only by the colon behind it, so the tokens that say
so are put in front of it then; until then it is a candidate.
-/

namespace BlockSuite.Yaml

/-- What may turn out to be a key: the number of tokens before it, whether it has to be a key,
and its place. -/
structure Candidate where
  before : Nat
  required : Bool
  mark : Mark
deriving Repr, Inhabited

/-- A text on its way to tokens: the indentation of the open block collections, innermost first,
how many flow collections are open, the candidates by that number, and the tokens so far, the
last one first, with their number. -/
structure Lexer where
  cursor : Cursor
  indent : Int := -1
  indents : List Int := []
  depth : Nat := 0
  candidates : List (Nat × Candidate) := []
  keyAllowed : Bool := true
  latest : List Token := []
  count : Nat := 0
deriving Inhabited

/-- The tokens of a text, and what is wrong behind the last of them. -/
structure Stream where
  tokens : List Token
  flaw : Option Flaw
deriving Inhabited

namespace Lexer

/-- A computation that adds tokens. -/
abbrev Lexing := StateT Lexer (Except Flaw)

/-- A candidate is a key only on one line and with fewer characters than these before its colon. -/
def reach : Nat := 1024

/-- The number of tokens that no further token can come in front of. -/
def settled (s : Lexer) : Nat :=
  s.candidates.foldl (fun n e => min n e.2.before) s.count

/-- The tokens so far, in order. -/
def tokens (s : Lexer) : List Token := s.latest.reverse

/-- The settled tokens, in order. -/
def settledTokens (s : Lexer) : List Token := (s.latest.drop (s.count - s.settled)).reverse

/-- Reads a part of the text. -/
def scan {α : Type} (x : Scan α) : Lexing α := do
  let s ← get
  let (a, cursor) ← x.run s.cursor
  set { s with cursor }
  return a

def mark : Lexing Mark := return (← get).cursor.mark

def fail {α : Type} (p : Problem) : Lexing α := do throw (.problem (← mark) p)

def inFlow : Lexing Bool := return (← get).depth != 0

/-- Adds a token. -/
def push (t : Token) : Lexing Unit :=
  modify fun s => { s with latest := t :: s.latest, count := s.count + 1 }

/-- Adds a token for a sign of some characters. -/
def pushSign (sign : Sign) (length : Nat) : Lexing Unit := do
  let start ← mark
  scan (Scan.advance length)
  push ⟨sign, start, ← mark, .none⟩

/-- Adds a token without characters of its own. -/
def pushAt (sign : Sign) (m : Mark) : Lexing Unit := push ⟨sign, m, m, .none⟩

/-- Adds a token for what a computation reads. -/
def pushScan (sign : Sign) (x : Scan Content) : Lexing Unit := do
  let start ← mark
  let content ← scan x
  push ⟨sign, start, ← mark, content⟩

/-- Puts a token behind the first ones of a number. -/
def insert (before : Nat) (sign : Sign) (m : Mark) : Lexing Unit :=
  modify fun s =>
    { s with
      latest := s.latest.insertIdx (s.count - before) ⟨sign, m, m, .none⟩
      count := s.count + 1 }

def allowKey (allowed : Bool) : Lexing Unit := modify ({ · with keyAllowed := allowed })

/-- Reads past blanks and comments. A key may start on every line of a block. -/
def skipGap : Nat → Lexing Unit
  | 0 => return ()
  | fuel + 1 => do
    let b ← scan do
      Scan.skipSpaces
      modify Cursor.skipComment
      Scan.lineBreak
    unless b.isEmpty do
      unless ← inFlow do allowKey true
      skipGap fuel

/-- Reads past an order mark at the start of the text, blanks and comments. -/
def skipToToken : Lexing Unit := do
  let c := (← get).cursor
  if c.mark.index == 0 && c.peek == orderMark then scan (Scan.advance 1)
  skipGap (c.rest.length + 1)

/-- Drops the candidates that are no keys any more. -/
def dropStale : Lexing Unit := do
  let s ← get
  let here := s.cursor.mark
  let isStale (k : Candidate) : Bool :=
    k.mark.line != here.line || reach < here.index - k.mark.index
  if s.candidates.any fun e => isStale e.2 && e.2.required then fail .unfinishedKey
  else set { s with candidates := s.candidates.filter fun e => !isStale e.2 }

/-- Drops the candidate among the items of the innermost collection. -/
def dropCandidate : Lexing Unit := do
  let s ← get
  if ((s.candidates.lookup s.depth).map (·.required)).getD false then fail .unfinishedKey
  else set { s with candidates := s.candidates.filter (·.1 != s.depth) }

/-- Takes what comes next as a candidate, where a key may start. -/
def addCandidate : Lexing Unit := do
  if (← get).keyAllowed then
    dropCandidate
    modify fun s =>
      let required := s.depth == 0 && s.indent == s.cursor.mark.column
      { s with candidates := (s.depth, ⟨s.count, required, s.cursor.mark⟩) :: s.candidates }

/-- Closes the block collections that are indented further than a column. -/
def closeBlocks (column : Int) : Lexing Unit := do
  let s ← get
  if s.depth == 0 then
    let rec close (indent : Int) : List Int → Nat × Int × List Int
      | [] => (0, indent, [])
      | outer :: rest =>
        if column < indent then
          let (n, r) := close outer rest
          (n + 1, r)
        else (0, indent, outer :: rest)
    let (n, indent, indents) := close s.indent s.indents
    let ends := List.replicate n (⟨.blockEnd, s.cursor.mark, s.cursor.mark, .none⟩ : Token)
    set { s with indent, indents, latest := ends ++ s.latest, count := s.count + n }

/-- Opens a block collection at a column, if it is indented further than the innermost one. -/
def openBlock (column : Nat) : Lexing Bool := do
  let s ← get
  if s.indent < column then
    set { s with indent := column, indents := s.indent :: s.indents }
    return true
  else return false

/-- Opens a block collection at the place reached, where one may start. -/
def openBlockHere (sign : Sign) (misplaced : Problem) : Lexing Unit := do
  unless ← inFlow do
    unless (← get).keyAllowed do fail misplaced
    let m ← mark
    if ← openBlock m.column then pushAt sign m

/-- The end of the text. -/
def endStream : Lexing Unit := do
  closeBlocks (-1)
  dropCandidate
  modify ({ · with keyAllowed := false, candidates := [] })
  pushAt .streamEnd (← mark)

/-- What ends every collection: a directive, or the start or end of a document. -/
def outermost (token : Lexing Unit) : Lexing Unit := do
  closeBlocks (-1)
  dropCandidate
  allowKey false
  token

def directive : Lexing Unit := do
  let start ← mark
  let d ← scan Scan.directive
  let stop ← mark
  scan Scan.restOfLine
  push ⟨.directive, start, stop, .directive d⟩

def openFlow (sign : Sign) : Lexing Unit := do
  addCandidate
  modify fun s => { s with depth := s.depth + 1, keyAllowed := true }
  pushSign sign 1

def closeFlow (sign : Sign) : Lexing Unit := do
  dropCandidate
  modify fun s => { s with depth := s.depth - 1, keyAllowed := false }
  pushSign sign 1

def flowEntry : Lexing Unit := do
  allowKey true
  dropCandidate
  pushSign .flowEntry 1

def blockEntry : Lexing Unit := do
  openBlockHere .blockSequenceStart .misplacedEntry
  allowKey true
  dropCandidate
  pushSign .blockEntry 1

def key : Lexing Unit := do
  openBlockHere .blockMappingStart .misplacedKey
  allowKey (!(← inFlow))
  dropCandidate
  pushSign .key 1

/-- A colon: the candidate before it is a key, or it follows a key that has a sign of its own. -/
def value : Lexing Unit := do
  let s ← get
  match s.candidates.lookup s.depth with
  | some k =>
    set { s with candidates := s.candidates.filter (·.1 != s.depth) }
    insert k.before .key k.mark
    unless ← inFlow do
      if ← openBlock k.mark.column then insert k.before .blockMappingStart k.mark
    allowKey false
  | none =>
    openBlockHere .blockMappingStart .misplacedValue
    allowKey (!(← inFlow))
    dropCandidate
  pushSign .value 1

/-- What may be a key or a part of one. -/
def part (sign : Sign) (x : Scan Content) : Lexing Unit := do
  addCandidate
  allowKey false
  pushScan sign x

def block : Lexing Unit := do
  allowKey true
  dropCandidate
  pushScan .scalar (Scan.block (← get).indent)

def plain : Lexing Unit := do
  addCandidate
  let s ← get
  let r ← scan (Scan.plain (s.depth != 0) (s.indent + 1))
  allowKey r.lineEnded
  push ⟨.scalar, s.cursor.mark, r.stop, .scalar (String.ofList r.text) true⟩

/-- Characters that start no plain scalar, unless a plain character follows a dash or, in a
block, a question mark or colon. -/
def isPlainStart (inFlow : Bool) (c next : Char) : Bool :=
  !(isSeparator c || "-?:,[]\x7b\x7d#&*!|>'\"%@`".toList.contains c) ||
    (!isSeparator next && (c == '-' || (!inFlow && (c == '?' || c == ':'))))

/-- Adds the next tokens. -/
def fetch : Lexing Unit := do
  skipToToken
  dropStale
  closeBlocks (← mark).column
  let cur := (← get).cursor
  let c := cur.peek
  let next := cur.peek 1
  let flow ← inFlow
  let first := cur.mark.column == 0
  if c == endChar then endStream
  else if c == '%' && first then outermost directive
  else if first && cur.isAtSign '-' then outermost (pushSign .documentStart 3)
  else if first && cur.isAtSign '.' then outermost (pushSign .documentEnd 3)
  else if c == '[' then openFlow .flowSequenceStart
  else if c == '\x7b' then openFlow .flowMappingStart
  else if c == ']' then closeFlow .flowSequenceEnd
  else if c == '\x7d' then closeFlow .flowMappingEnd
  else if c == ',' then flowEntry
  else if c == '-' && isSeparator next then blockEntry
  else if c == '?' && (flow || isSeparator next) then key
  else if c == ':' && (flow || isSeparator next) then value
  else if c == '*' then part .reference Scan.anchor
  else if c == '&' then part .anchor Scan.anchor
  else if c == '!' then part .tag Scan.tag
  else if (c == '|' || c == '>') && !flow then block
  else if c == '\'' || c == '"' then part .scalar Scan.quoted
  else if isPlainStart flow c next then plain
  else fail (.noToken c)

/-- Whether the end of the text is among the tokens. -/
def isDone (s : Lexer) : Bool := (s.latest.head?.map (·.sign)) == some .streamEnd

/-- Whether adding tokens took the text to its end. -/
def isExhausted : Except Flaw (Unit × Lexer) → Nat → Bool
  | .ok (_, s), _ => s.cursor.rest.isEmpty
  | .error (.problem m _), size => size ≤ m.index
  | .error .unreadable, _ => false

/-- Adds tokens up to the end of the text. Of those before something wrong only the settled ones
count. A text that was cut off at some length cannot be read up to its end. -/
def run (cut : Option Nat) : Nat → Lexer → Stream
  | 0, s => ⟨s.tokens, some .unreadable⟩
  | fuel + 1, s =>
    let r := (do fetch; dropStale : Lexing Unit).run s
    if (cut.map (isExhausted r)).getD false then ⟨s.settledTokens, some .unreadable⟩
    else
      match r with
      | .error f => ⟨s.settledTokens, some f⟩
      | .ok (_, s) => if s.isDone then ⟨s.tokens, none⟩ else run cut fuel s

end Lexer

/-- How a text is looked through for characters that it may not hold: all of it at once, or in
pieces, each when it is come to. -/
inductive Intake where
  | whole
  | pieces
deriving Repr, DecidableEq, Inhabited

/-- The number of characters in a piece. The first two pieces are taken together. -/
def pieceSize : Nat := 4096

/-- The length up to which a text can be read: the beginning of the piece with the first
character that it may not hold. -/
def readableSize? (intake : Intake) (text : List Char) : Option Nat :=
  (text.findIdx? (!isAllowed ·)).map fun i =>
    match intake with
    | .whole => 0
    | .pieces => if i < 2 * pieceSize then 0 else i / pieceSize * pieceSize

/-- The tokens of a text. -/
def Stream.ofText (intake : Intake) (text : List Char) : Stream :=
  match readableSize? intake text with
  | none => Lexer.run none (text.length + 1) { cursor := ⟨text, {}⟩ }
  | some 0 => ⟨[], some .unreadable⟩
  | some n => Lexer.run (some n) (n + 1) { cursor := ⟨text.take n, {}⟩ }

end BlockSuite.Yaml
