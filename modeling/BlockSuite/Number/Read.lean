import BlockSuite.Number.Double
import BlockSuite.Text.Blank
import BlockSuite.Text.Digit
import BlockSuite.Text.Split

/-!
Reading numbers from text. Digits of any script count, single underscores may stand between
digits, and blanks around the number are ignored. A whole number of more than 4300 digits is
refused.
-/

namespace BlockSuite.Number

/-- The most digits a whole number may have in text. -/
def maxDigits : Nat := 4300

/-- Why a text is no whole number. -/
inductive IntError where
  | malformed
  | tooLong (digits : Nat)
deriving DecidableEq, Repr

/-- The digits of a text in which single underscores may stand between digits. -/
def digitsOf? : List Char → Option (List Nat)
  | [] => none
  | [c] => (Text.digitValue? c).map ([·])
  | c :: '_' :: rest => do
    let d ← Text.digitValue? c
    return d :: (← digitsOf? rest)
  | c :: rest => do
    let d ← Text.digitValue? c
    return d :: (← digitsOf? rest)

/-- The number that digits spell, most significant first. -/
def ofDigits (ds : List Nat) : Nat := ds.foldl (fun n d => n * 10 + d) 0

/-- Splits off a sign; true means negative. -/
def takeSign : List Char → Bool × List Char
  | '-' :: rest => (true, rest)
  | '+' :: rest => (false, rest)
  | cs => (false, cs)

/-- Reads a whole number. -/
def readInt (s : String) : Except IntError Int :=
  let (negative, body) := takeSign (Text.trimChars s.toList)
  match digitsOf? body with
  | none => .error .malformed
  | some ds =>
    if maxDigits < ds.length then .error (.tooLong ds.length)
    else
      let n : Int := ofDigits ds
      .ok (if negative then -n else n)

/-- Whether underscores stand between ASCII digits only; the flag tells whether the character
before was a digit. -/
def underscoresFit (afterDigit : Bool) : List Char → Bool
  | [] => true
  | '_' :: c :: rest =>
    afterDigit && ('0' ≤ c && c ≤ '9') && underscoresFit true rest
  | ['_'] => false
  | c :: rest => underscoresFit ('0' ≤ c && c ≤ '9') rest

/-- A digit of any script as an ASCII digit; any other character as it is. -/
def plainDigit (c : Char) : Char :=
  match Text.digitValue? c with
  | some d => Text.digitChar d
  | none => c

/-- Digits, a fraction and an exponent without signs, underscores or blanks in front. -/
def readDecimal? (negative : Bool) (cs : List Char) : Option Double := do
  let isDigit (c : Char) : Bool := '0' ≤ c && c ≤ '9'
  let value (ds : List Char) : Nat := ofDigits (ds.map (·.toNat - 48))
  let whole := cs.takeWhile isDigit
  let rest := cs.dropWhile isDigit
  let (fraction, rest) :=
    match rest with
    | '.' :: more => (more.takeWhile isDigit, more.dropWhile isDigit)
    | _ => ([], rest)
  if whole.isEmpty && fraction.isEmpty then none
  else
    let significand := value (whole ++ fraction)
    let scale : Int := -(fraction.length : Int)
    match rest with
    | [] => some (.ofDecimal negative significand scale)
    | e :: more =>
      if e == 'e' || e == 'E' then
        let (down, ds) := takeSign more
        if ds.isEmpty || !ds.all isDigit then none
        else
          let size : Int := value ds
          some (.ofDecimal negative significand (scale + if down then -size else size))
      else none

/-- A decimal with its sign, an infinity or not a number, without blanks and underscores. -/
def ofDecimal? (cs : List Char) : Option Double :=
  let (negative, body) := takeSign cs
  match Text.asciiLower (String.ofList body) with
  | "inf" | "infinity" => some (.infinite negative)
  | "nan" => some .nan
  | _ => readDecimal? negative body

/-- Reads a floating point number: a decimal, an infinity or not a number. -/
def readDouble? (s : String) : Option Double :=
  let cs := (Text.trimChars s.toList).map plainDigit
  if underscoresFit false cs then
    ofDecimal? (cs.filter (· != '_'))
  else none

@[simp] theorem ofDigits_nil : ofDigits [] = 0 := rfl

theorem ofDigits_concat (ds : List Nat) (d : Nat) :
    ofDigits (ds ++ [d]) = ofDigits ds * 10 + d := by
  simp [ofDigits]

end BlockSuite.Number
