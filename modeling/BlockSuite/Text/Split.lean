/-!
Cutting a text at a separator and joining pieces with one. Cutting at a character keeps empty
pieces, so there is one piece more than there are separators.
-/

namespace BlockSuite.Text

/-- The pieces between the occurrences of a character. -/
def splitChars (sep : Char) : List Char → List (List Char)
  | [] => [[]]
  | c :: rest =>
    if c = sep then [] :: splitChars sep rest
    else
      match splitChars sep rest with
      | [] => [[c]]
      | piece :: pieces => (c :: piece) :: pieces

/-- The pieces of a text between the occurrences of a character. -/
def splitAt (sep : Char) (s : String) : List String :=
  (splitChars sep s.toList).map String.ofList

/-- The parts of a text before and after the first occurrence of a character; without one the
second part is empty. -/
def cutAt (sep : Char) (s : String) : String × String :=
  (String.ofList (s.toList.takeWhile (· != sep)),
    String.ofList ((s.toList.dropWhile (· != sep)).drop 1))

/-- Whether one list of characters starts with another. -/
def startsWith : List Char → List Char → Bool
  | _, [] => true
  | [], _ :: _ => false
  | c :: cs, d :: ds => c == d && startsWith cs ds

/-- Whether one list of characters occurs in another. -/
def hasInfix (needle : List Char) : List Char → Bool
  | [] => needle.isEmpty
  | c :: cs => startsWith (c :: cs) needle || hasInfix needle cs

/-- Whether a text occurs in another. -/
def contains (s needle : String) : Bool := hasInfix needle.toList s.toList

/-- A text without one line feed at its end. -/
def dropLineFeed (cs : List Char) : List Char :=
  if cs.getLast? = some '\n' then cs.dropLast else cs

/-- A character repeated. -/
def repeated (c : Char) (n : Nat) : String := String.ofList (List.replicate n c)

/-- A text filled up with a character in front. -/
def padLeft (c : Char) (width : Nat) (s : String) : String :=
  repeated c (width - s.length) ++ s

/-- ASCII letters in lower case. -/
def asciiLower (s : String) : String :=
  String.ofList (s.toList.map fun c =>
    if 'A' ≤ c && c ≤ 'Z' then Char.ofNat (c.toNat + 32) else c)

theorem splitChars_ne_nil (sep : Char) (cs : List Char) : splitChars sep cs ≠ [] := by
  cases cs with
  | nil => simp [splitChars]
  | cons c rest =>
    simp only [splitChars]
    split
    · simp
    · split <;> simp

theorem join_splitChars (sep : Char) (cs : List Char) :
    [sep].intercalate (splitChars sep cs) = cs := by
  induction cs with
  | nil => simp [splitChars, List.intercalate]
  | cons c rest ih =>
    by_cases h : c = sep
    · subst h
      cases hs : splitChars c rest with
      | nil => exact absurd hs (splitChars_ne_nil c rest)
      | cons p ps => simp_all [splitChars, List.intercalate]
    · cases hs : splitChars sep rest with
      | nil => exact absurd hs (splitChars_ne_nil sep rest)
      | cons p ps =>
        cases ps <;> simp_all [splitChars, List.intercalate]

end BlockSuite.Text
