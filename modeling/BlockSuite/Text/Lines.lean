/-!
Texts as lines. A line ends with a line feed, a carriage return, both together, a vertical tab,
a form feed, one of the separators 1C to 1E, a next line, a line separator or a paragraph
separator. An end of line at the end of the text opens no further line.
-/

namespace BlockSuite.Text

/-- Characters that end a line. -/
def isLineEnd (c : Char) : Bool :=
  let n := c.toNat
  (0x0A ≤ n && n ≤ 0x0D) || (0x1C ≤ n && n ≤ 0x1E) || n == 0x85 || n == 0x2028 || n == 0x2029

/-- The lines of a text without their ends; the accumulator holds the open line, last first. -/
def linesFrom : List Char → List Char → List (List Char)
  | [], [] => []
  | [], line => [line.reverse]
  | '\r' :: '\n' :: rest, line => line.reverse :: linesFrom rest []
  | c :: rest, line =>
    if isLineEnd c then line.reverse :: linesFrom rest [] else linesFrom rest (c :: line)

/-- The lines of a text without their ends. -/
def lines (s : String) : List String := (linesFrom s.toList []).map String.ofList

@[simp] theorem linesFrom_nil : linesFrom [] [] = [] := rfl

end BlockSuite.Text
