/-!
Blank characters and trimming. A text is trimmed of every blank at both ends; the trimmed text
neither starts nor ends with one.
-/

namespace BlockSuite.Text

/-- Spaces, tabs, line ends and separators of any script. -/
def isBlank (c : Char) : Bool :=
  let n := c.toNat
  (0x09 ≤ n && n ≤ 0x0D) || (0x1C ≤ n && n ≤ 0x20) || n == 0x85 || n == 0xA0 || n == 0x1680 ||
    (0x2000 ≤ n && n ≤ 0x200A) || n == 0x2028 || n == 0x2029 || n == 0x202F || n == 0x205F ||
    n == 0x3000

/-- The blanks that count as white space; the four information separators do not. -/
def isWhite (c : Char) : Bool := isBlank c && !(0x1C ≤ c.toNat && c.toNat ≤ 0x1F)

/-- Drops the white space at both ends. -/
def trimWhite (cs : List Char) : List Char :=
  ((cs.dropWhile isWhite).reverse.dropWhile isWhite).reverse

/-- Drops the blanks in front. -/
def trimLeft (cs : List Char) : List Char := cs.dropWhile isBlank

/-- Drops the blanks behind. -/
def trimRight (cs : List Char) : List Char := (cs.reverse.dropWhile isBlank).reverse

/-- Drops the blanks at both ends. -/
def trimChars (cs : List Char) : List Char := trimRight (trimLeft cs)

/-- Drops the blanks at both ends of a text. -/
def trim (s : String) : String := String.ofList (trimChars s.toList)

/-- Whether a text holds nothing but blanks. -/
def isBlankText (s : String) : Bool := s.toList.all isBlank

@[simp] theorem trimLeft_nil : trimLeft [] = [] := rfl

@[simp] theorem trimRight_nil : trimRight [] = [] := rfl

theorem isBlank_of_isWhite {c : Char} (h : isWhite c = true) : isBlank c = true := by
  simp only [isWhite, Bool.and_eq_true] at h
  exact h.1

theorem trimLeft_cons (c : Char) (cs : List Char) :
    trimLeft (c :: cs) = if isBlank c then trimLeft cs else c :: cs := by
  simp [trimLeft, List.dropWhile_cons]

end BlockSuite.Text
