import BlockSuite.Yaml.Token
import BlockSuite.Value.Quoted
import BlockSuite.Text.Utf8

/-!
What can be wrong with a YAML text, with the wording of each problem.
-/

namespace BlockSuite.Yaml

/-- What is called for where another character stands. -/
inductive Wanted where
  | name
  | digit
  | digitOrPoint
  | digitOrSpace
  | space
  | exclamation
  | closingBracket
  | address
  | addressEscape
  | escape (digits : Nat)
  | blockHeader
  | lineEnd
deriving Repr, DecidableEq, Inhabited

/-- What is called for, in words. -/
def Wanted.text : Wanted → String
  | name => "alphabetic or numeric character"
  | digit => "a digit"
  | digitOrPoint => "a digit or '.'"
  | digitOrSpace => "a digit or ' '"
  | space => "' '"
  | exclamation => "'!'"
  | closingBracket => "'>'"
  | address => "URI"
  | addressEscape => "URI escape sequence of 2 hexadecimal numbers"
  | escape digits => "escape sequence of " ++ Nat.repr digits ++ " hexadecimal numbers"
  | blockHeader => "chomping or indentation indicators"
  | lineEnd => "a comment or a line break"

/-- Kinds of nodes. -/
inductive Shape where
  | scalar
  | sequence
  | mapping
deriving Repr, DecidableEq, Inhabited

def Shape.name : Shape → String
  | scalar => "scalar"
  | sequence => "sequence"
  | mapping => "mapping"

/-- What is wrong at a place of a text. -/
inductive Problem where
  | unexpected (wanted : Wanted) (found : Char)
  | noToken (found : Char)
  | unfinishedKey
  | misplacedEntry
  | misplacedKey
  | misplacedValue
  | noIndentation
  | unknownEscape (c : Char)
  | unclosedQuote
  | boundaryInQuotes
  | illFormed (bytes : List UInt8) (part : Text.IllFormed)
  | noDocument (found : Sign)
  | repeatedVersion
  | unknownVersion
  | repeatedHandle (handle : String)
  | unknownHandle (handle : String)
  | noContent (found : Sign)
  | unclosedBlock (found : Sign)
  | unclosedSequence (found : Sign)
  | unclosedMapping (found : Sign)
  | unknownAlias (name : String)
  | repeatedAnchor
  | secondDocument
  | unknownTag (tag : String)
  | notScalar (found : Shape)
  | notSequence (found : Shape)
  | notMapping (found : Shape)
  | notMergeable (found : Shape)
  | notMergeableItem (found : Shape)
  | notPairs (found : Shape)
  | notPair (found : Shape)
  | notSinglePair (count : Nat)
  | unhashableKey
  | notBase64 (reason : String)
  | notAscii (reason : String)
deriving Repr, DecidableEq, Inhabited

namespace Problem

/-- A token in messages. -/
def signText (s : Sign) : String := Quoted.ofText s.name

def charText (c : Char) : String := Quoted.ofText (String.singleton c)

/-- The wording of a problem. -/
def text : Problem → String
  | unexpected wanted found => "expected " ++ wanted.text ++ ", but found " ++ charText found
  | noToken found => "found character " ++ charText found ++ " that cannot start any token"
  | unfinishedKey => "could not find expected ':'"
  | misplacedEntry => "sequence entries are not allowed here"
  | misplacedKey => "mapping keys are not allowed here"
  | misplacedValue => "mapping values are not allowed here"
  | noIndentation => "expected indentation indicator in the range 1-9, but found 0"
  | unknownEscape c => "found unknown escape character " ++ charText c
  | unclosedQuote => "found unexpected end of stream"
  | boundaryInQuotes => "found unexpected document separator"
  | illFormed bytes part => part.text bytes
  | noDocument found => "expected '<document start>', but found " ++ signText found
  | repeatedVersion => "found duplicate YAML directive"
  | unknownVersion => "found incompatible YAML document (version 1.* is required)"
  | repeatedHandle handle => "duplicate tag handle " ++ Quoted.ofText handle
  | unknownHandle handle => "found undefined tag handle " ++ Quoted.ofText handle
  | noContent found => "expected the node content, but found " ++ signText found
  | unclosedBlock found => "expected <block end>, but found " ++ signText found
  | unclosedSequence found => "expected ',' or ']', but got " ++ signText found
  | unclosedMapping found => "expected ',' or '\x7d', but got " ++ signText found
  | unknownAlias name => "found undefined alias " ++ Quoted.ofText name
  | repeatedAnchor => "second occurrence"
  | secondDocument => "but found another document"
  | unknownTag tag => "could not determine a constructor for the tag " ++ Quoted.ofText tag
  | notScalar found => "expected a scalar node, but found " ++ found.name
  | notSequence found => "expected a sequence node, but found " ++ found.name
  | notMapping found => "expected a mapping node, but found " ++ found.name
  | notMergeable found =>
    "expected a mapping or list of mappings for merging, but found " ++ found.name
  | notMergeableItem found => "expected a mapping for merging, but found " ++ found.name
  | notPairs found => "expected a sequence, but found " ++ found.name
  | notPair found => "expected a mapping of length 1, but found " ++ found.name
  | notSinglePair count =>
    "expected a single mapping item, but found " ++ Nat.repr count ++ " items"
  | unhashableKey => "found unhashable key"
  | notBase64 reason => "failed to decode base64 data: " ++ reason
  | notAscii reason => "failed to convert base64 data into ascii: " ++ reason

end Problem

/-- Why a text cannot be read: a problem at a place, or a character or scalar that stands for
nothing. -/
inductive Flaw where
  | problem (mark : Mark) (p : Problem)
  | unreadable
deriving Repr, DecidableEq, Inhabited

end BlockSuite.Yaml
