import BlockSuite.Yaml.Stamp

/-!
Tags of plain scalars: what kind of value an unquoted text stands for. A text that spells nothing
else is a text.
-/

namespace BlockSuite.Yaml

/-- Kinds of scalars. -/
inductive Tag where
  | null
  | bool
  | int
  | float
  | timestamp
  | binary
  | merge
  | value
  | indicator
  | text
deriving DecidableEq, Repr, Inhabited

namespace Tag

/-- The name of a tag behind the common beginning of all tags. -/
def name : Tag → String
  | null => "null"
  | bool => "bool"
  | int => "int"
  | float => "float"
  | timestamp => "timestamp"
  | binary => "binary"
  | merge => "merge"
  | value => "value"
  | indicator => "yaml"
  | text => "str"

/-- Texts for null. -/
def nullTexts : List String := ["", "~", "null", "Null", "NULL"]

/-- Texts for truth values in lower case, as they are, with a capital or in capitals. -/
def truthTexts : List (String × Bool) :=
  [("yes", true), ("no", false), ("true", true), ("false", false), ("on", true), ("off", false)]

/-- Whether a text is a word in one of the three cases. -/
def isWordInCase (word s : String) : Bool :=
  let cs := word.toList
  s == word || s == String.ofList (cs.map Char.toUpper) ||
    s == String.ofList ((cs.take 1).map Char.toUpper ++ cs.drop 1)

/-- The truth value of a text. -/
def truth? (s : String) : Option Bool :=
  (truthTexts.find? fun e => isWordInCase e.1 s).map (·.2)

def isDigit (c : Char) : Bool := '0' ≤ c && c ≤ '9'

def isDigitOrGap (c : Char) : Bool := isDigit c || c == '_'

/-- A text without its sign. -/
def dropSign : List Char → List Char
  | '-' :: rest => rest
  | '+' :: rest => rest
  | cs => cs

/-- One or two digits below sixty. -/
def isSixtieth : List Char → Bool
  | [a] => isDigit a
  | [a, b] => '0' ≤ a && a ≤ '5' && isDigit b
  | _ => false

/-- Digits in groups of sixty: a first group and at least one more, between colons. -/
def isSixtyBased (head : List Char → Bool) (cs : List Char) : Bool :=
  match Text.splitChars ':' cs with
  | first :: second :: rest => head first && (second :: rest).all isSixtieth
  | _ => false

/-- Digits and underscores that start with a digit. -/
def isDigits : List Char → Bool
  | c :: cs => isDigit c && cs.all isDigitOrGap
  | [] => false

/-- Digits and underscores that start with a digit other than zero. -/
def isCounting : List Char → Bool
  | c :: cs => isDigit c && c != '0' && cs.all isDigitOrGap
  | [] => false

/-- Whole numbers: binary, octal, decimal, hexadecimal or based on sixty. -/
def isInt (s : List Char) : Bool :=
  match dropSign s with
  | ['0'] => true
  | '0' :: 'b' :: ds => !ds.isEmpty && ds.all fun c => c == '0' || c == '1' || c == '_'
  | '0' :: 'x' :: ds =>
    !ds.isEmpty && ds.all fun c =>
      isDigitOrGap c || ('a' ≤ c && c ≤ 'f') || ('A' ≤ c && c ≤ 'F')
  | '0' :: ds => ds.all fun c => ('0' ≤ c && c ≤ '7') || c == '_'
  | cs => isCounting cs || isSixtyBased isCounting cs

/-- An exponent with its letter and sign, or nothing. -/
def isExponent : List Char → Bool
  | [] => true
  | e :: sign :: ds =>
    (e == 'e' || e == 'E') && (sign == '+' || sign == '-') && !ds.isEmpty && ds.all isDigit
  | _ => false

/-- A fraction behind its point, perhaps with an exponent. -/
def isFraction (cs : List Char) : Bool := isExponent (cs.dropWhile isDigitOrGap)

/-- Floating point numbers: with a point, based on sixty, infinite or not a number. -/
def isFloat (s : List Char) : Bool :=
  let body := dropSign s
  let whole := body.takeWhile (· != '.')
  match body.dropWhile (· != '.') with
  | '.' :: rest =>
    if whole.isEmpty then
      let word := String.ofList rest
      word == "inf" || word == "Inf" || word == "INF" ||
        (body.length == s.length &&
          (word == "nan" || word == "NaN" || word == "NAN" ||
            (match rest with
              | c :: _ => isDigit c && isFraction rest
              | [] => false)))
    else
      (isDigits whole && isFraction rest) ||
        (isSixtyBased isDigits whole && rest.all isDigitOrGap)
  | _ => false

/-- The tag of a text that spells something on a single line. -/
def ofLine (s : String) : Tag :=
  let cs := s.toList
  if (truth? s).isSome then bool
  else if isFloat cs then float
  else if isInt cs then int
  else if s == "<<" then merge
  else if nullTexts.contains s then null
  else if ((Stamp.ofChars? cs).map Stamp.isResolved).getD false then timestamp
  else if s == "=" then value
  else if s == "!" || s == "&" || s == "*" then indicator
  else text

/-- The tag of a plain text. A line feed at the end makes no difference, unless there is nothing
before it. -/
def ofPlain (s : String) : Tag :=
  if s == "\n" then text else ofLine (String.ofList (Text.dropLineFeed s.toList))

end Tag

end BlockSuite.Yaml
