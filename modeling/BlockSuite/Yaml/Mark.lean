import BlockSuite.Text.Split

/-!
Positions in a text and reading it one character at a time. Behind its last character a text has
an end character, which no text that may be read holds.
-/

namespace BlockSuite.Yaml

/-- What stands behind the last character of a text. -/
def endChar : Char := Char.ofNat 0

/-- The mark that may stand before the first character of a text. -/
def orderMark : Char := Char.ofNat 0xFEFF

/-- Characters that a text may hold. -/
def isAllowed (c : Char) : Bool :=
  let n := c.toNat
  n == 0x09 || n == 0x0A || n == 0x0D || (0x20 ≤ n && n ≤ 0x7E) || n == 0x85 ||
    (0xA0 ≤ n && n ≤ 0xD7FF) || (0xE000 ≤ n && n ≤ 0xFFFD) || 0x10000 ≤ n

/-- Characters that end a line. -/
def isBreak (c : Char) : Bool :=
  let n := c.toNat
  n == 0x0A || n == 0x0D || n == 0x85 || n == 0x2028 || n == 0x2029

/-- What ends a line, or the text. -/
def isLineEnd (c : Char) : Bool := c == endChar || isBreak c

/-- What ends a word: a space, or the end of the line. -/
def isWordEnd (c : Char) : Bool := c == ' ' || isLineEnd c

/-- What separates tokens: a space, a tab, or the end of the line. -/
def isSeparator (c : Char) : Bool := c == '\t' || isWordEnd c

/-- Letters, digits, dashes and underscores. -/
def isNameChar (c : Char) : Bool :=
  ('0' ≤ c && c ≤ '9') || ('A' ≤ c && c ≤ 'Z') || ('a' ≤ c && c ≤ 'z') || c == '-' || c == '_'

/-- A position in a text: characters before it, lines before it, and its column. -/
structure Mark where
  index : Nat := 0
  line : Nat := 0
  column : Nat := 0
deriving Repr, DecidableEq, Inhabited

namespace Mark

/-- The position behind a character that stands before the rest of the text. Both characters of
a carriage return with a line feed end one line, and an order mark takes no column. -/
def past (m : Mark) (c : Char) (rest : List Char) : Mark :=
  if isBreak c && !(c == '\r' && rest.head? == some '\n') then ⟨m.index + 1, m.line + 1, 0⟩
  else ⟨m.index + 1, m.line, if c == orderMark then m.column else m.column + 1⟩

/-- A position is shown with at most this many characters before and behind it. -/
def reach : Nat := 37

/-- The characters of a line on the way out from a position. More than can be shown are cut, which
the flag tells. -/
def sight (cs : List Char) : List Char × Bool :=
  let line := cs.takeWhile (!isLineEnd ·)
  if reach ≤ line.length then (line.take (reach - 5), true) else (line, false)

/-- The line of a position in a text and, under it, a caret at the position. -/
def excerpt (text : List Char) (m : Mark) : String :=
  let (before, cutBefore) := sight (text.take m.index).reverse
  let (behind, cutBehind) := sight (text.drop m.index)
  let cut := " ... "
  let head := (if cutBefore then cut else "") ++ String.ofList before.reverse
  head ++ String.ofList behind ++ (if cutBehind then cut else "") ++ "\n" ++
    Text.repeated ' ' head.length ++ "^"

end Mark

/-- A text that is being read: what is left of it and where that starts. -/
structure Cursor where
  rest : List Char
  mark : Mark := {}
deriving Repr, Inhabited

namespace Cursor

/-- The character some places ahead. -/
def peek (c : Cursor) (ahead : Nat := 0) : Char := (c.rest[ahead]?).getD endChar

/-- Reads a character. -/
def next (c : Cursor) : Cursor :=
  match c.rest with
  | [] => c
  | ch :: rest => ⟨rest, c.mark.past ch rest⟩

/-- Reads some characters. -/
def advance : Nat → Cursor → Cursor
  | 0, c => c
  | n + 1, c => advance n c.next

/-- Reads characters as long as they are of a class. -/
def span (p : Char → Bool) (c : Cursor) : List Char × Cursor :=
  let cs := c.rest.takeWhile p
  (cs, c.advance cs.length)

/-- Reads past characters of a class. -/
def skip (p : Char → Bool) (c : Cursor) : Cursor := (c.span p).2

/-- Reads the end of a line. What is read stands for a line feed, unless it separates lines or
paragraphs of running text. -/
def lineBreak (c : Cursor) : List Char × Cursor :=
  match c.rest with
  | '\r' :: '\n' :: _ => (['\n'], c.advance 2)
  | ch :: _ =>
    if isBreak ch then
      (if ch.toNat == 0x2028 || ch.toNat == 0x2029 then [ch] else ['\n'], c.next)
    else ([], c)
  | [] => ([], c)

/-- Whether three characters and a separator come next. -/
def isAtSign (sign : Char) (c : Cursor) : Bool :=
  c.peek == sign && c.peek 1 == sign && c.peek 2 == sign && isSeparator (c.peek 3)

/-- Whether the sign for a start or end of a document comes next. -/
def isAtBoundary (c : Cursor) : Bool := c.isAtSign '-' || c.isAtSign '.'

/-- Reads past a comment. -/
def skipComment (c : Cursor) : Cursor := if c.peek == '#' then c.skip (!isLineEnd ·) else c

theorem rest_next (c : Cursor) : c.next.rest = c.rest.tail := by
  unfold next
  split <;> simp_all

theorem rest_advance (n : Nat) (c : Cursor) : (c.advance n).rest = c.rest.drop n := by
  induction n generalizing c with
  | zero => rfl
  | succ n ih => rw [advance, ih, rest_next]; simp

end Cursor

end BlockSuite.Yaml
