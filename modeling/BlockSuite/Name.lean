import BlockSuite.Text.Blank
import BlockSuite.Text.Lower
import BlockSuite.Text.Word
import BlockSuite.Text.Split

/-!
Names of variables, blocks and procedures. An identifier is an ASCII letter or underscore
followed by ASCII letters, digits and underscores; a block type is an identifier, perhaps behind
the name of a plugin and a dot.
-/

namespace BlockSuite.Name

/-- Characters an identifier starts with. -/
def isHead (c : Char) : Bool := Text.isAsciiLetter c || c == '_'

/-- Identifiers, with a choice of what may follow the first character. -/
def isIdentifierOf (follows : Char → Bool) : List Char → Bool
  | [] => false
  | c :: cs => isHead c && cs.all follows

/-- ASCII identifiers. -/
def isIdentifier (cs : List Char) : Bool := isIdentifierOf Text.isAsciiWord cs

/-- The variable name that a text is, a line feed at its end aside. -/
def matchVariable? (s : String) : Option String :=
  let cs := Text.dropLineFeed s.toList
  if isIdentifier cs then some (String.ofList cs) else none

/-- The plugin and block name that a text is, a line feed at its end aside. -/
def matchBlockType? (s : String) : Option (Option String × String) :=
  match Text.splitChars '.' (Text.dropLineFeed s.toList) with
  | [name] => if isIdentifier name then some (none, String.ofList name) else none
  | [plugin, name] =>
    if isIdentifier plugin && isIdentifier name then
      some (some (String.ofList plugin), String.ofList name)
    else none
  | _ => none

/-- Variable names a document may declare; word characters of any script may follow the first
character. -/
def isVariable (s : String) : Bool := isIdentifierOf Text.isWord s.toList

/-- Block types a document may use. -/
def isBlockType (s : String) : Bool :=
  match Text.splitChars '.' s.toList with
  | [name] => isIdentifierOf Text.isWord name
  | [plugin, name] => isIdentifierOf Text.isWord plugin && isIdentifierOf Text.isWord name
  | _ => false

/-- The pattern of variable names, as messages give it. -/
def variablePattern : String := "^[a-zA-Z_][\\w]*$"

/-- The pattern of block types, as messages give it. -/
def blockTypePattern : String := "^([a-zA-Z_][\\w]*\\.)?[a-zA-Z_][\\w]*$"

/-- Replaces every run of characters that are not ASCII word characters by one underscore; the
flag tells whether such a run is open. -/
def joinRuns (inRun : Bool) : List Char → List Char
  | [] => []
  | c :: cs =>
    if Text.isAsciiWord c then c :: joinRuns false cs
    else if inRun then joinRuns true cs
    else '_' :: joinRuns true cs

/-- The block type made of a procedure's name. -/
def customBlockType (procedure : String) : String :=
  "custom_" ++ String.ofList (joinRuns false (Text.lower (Text.trim procedure)).toList)

theorem joinRuns_isAsciiWord (inRun : Bool) (cs : List Char) :
    (joinRuns inRun cs).all Text.isAsciiWord = true := by
  induction cs generalizing inRun with
  | nil => rfl
  | cons c cs ih =>
    simp only [joinRuns]
    split
    · rename_i h
      simpa [h] using ih false
    · split
      · exact ih true
      · simpa [Text.isAsciiWord] using ih true

end BlockSuite.Name
