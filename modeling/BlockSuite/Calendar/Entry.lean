import BlockSuite.Calendar
import BlockSuite.Number.Word

/-!
Moments as documents give them: a date with a time of day behind it, a date alone, which stands
for its midnight, or a count of seconds since the beginning of 1970, where a large count is one
of milliseconds. A text that is none of these is reported by what is wrong with its date.
-/

namespace BlockSuite.Calendar

/-- Why an entry is no moment. -/
inductive EntryError where
  | tooShort
  | yearDigit
  | monthDigit
  | dayDigit
  | separator
  | monthRange
  | dayRange
  | excess
  | tooEarly
  | tooLate
  | yearZero
  | notNumber
deriving DecidableEq, Repr, Inhabited

/-- What is said about an entry. -/
def EntryError.message : EntryError → String
  | tooShort => "input is too short"
  | yearDigit => "invalid character in year"
  | monthDigit => "invalid character in month"
  | dayDigit => "invalid character in day"
  | separator => "invalid date separator, expected \x60-\x60"
  | monthRange => "month value is outside expected range of 1-12"
  | dayRange => "day value is outside expected range"
  | excess => "unexpected extra characters at the end of the input"
  | tooEarly => "dates before 1600 are not supported as unix timestamps"
  | tooLate => "dates after 9999 are not supported as unix timestamps"
  | yearZero => "year 0 is out of range"
  | notNumber => "NaN values not permitted"

/-! ### Texts

A text is read byte by byte, each byte as the character of its number. -/

/-- ASCII digits as a number. -/
def asciiNumber? (cs : List Char) : Option Nat :=
  if cs.all fun c => '0' ≤ c && c ≤ '9' then
    some (Number.ofDigits (cs.map (·.toNat - 48)))
  else none

/-- A number of two digits up to a limit. -/
def below? (limit : Nat) (a b : Char) : Option Nat :=
  (asciiNumber? [a, b]).filter (· < limit)

/-- A date at the beginning of a text, and what follows it. Year zero is let through. -/
def dateThen : List Char → Except EntryError (Date × List Char)
  | y₁ :: y₂ :: y₃ :: y₄ :: s₁ :: m₁ :: m₂ :: s₂ :: d₁ :: d₂ :: rest => do
    let number (e : EntryError) (cs : List Char) : Except EntryError Nat :=
      (asciiNumber? cs).elim (.error e) .ok
    let dash (c : Char) : Except EntryError Unit := if c == '-' then .ok () else .error .separator
    let year ← number .yearDigit [y₁, y₂, y₃, y₄]
    dash s₁
    let month ← number .monthDigit [m₁, m₂]
    dash s₂
    let day ← number .dayDigit [d₁, d₂]
    if month < 1 || 12 < month then .error .monthRange
    else if day < 1 || Date.daysIn year month < day then .error .dayRange
    else .ok (⟨year, month, day⟩, rest)
  | _ => .error .tooShort

/-- An offset from universal time behind its sign: hours and minutes of two digits each, perhaps
with a colon between them, less than a day together. -/
def offsetOf? (sign : Int) : List Char → Option Duration
  | [h₁, h₂, ':', m₁, m₂] | [h₁, h₂, m₁, m₂] => do
    let hours ← asciiNumber? [h₁, h₂]
    let minutes ← below? 60 m₁ m₂
    if 24 ≤ hours then none else some ⟨sign * (hours * 60 + minutes : Nat) * 60 * 1000000⟩
  | _ => none

/-- An offset up to the end of a text, if anything is left: the letter Z for universal time, or
an offset behind a plus, a hyphen or the minus sign, which takes three bytes. -/
def zone? : List Char → Option (Option Duration)
  | [] => some none
  | ['Z'] | ['z'] => some (some ⟨0⟩)
  | '+' :: rest => (offsetOf? 1 rest).map some
  | '-' :: rest | '\u00e2' :: '\u0088' :: '\u0092' :: rest => (offsetOf? (-1) rest).map some
  | _ => none

/-- The microseconds of a fraction: its first six digits. -/
def microsOf (fraction : List Char) : Nat :=
  let ds := (fraction.take 6).map (·.toNat - 48)
  Number.ofDigits (ds ++ List.replicate (6 - ds.length) 0)

/-- Seconds and microseconds behind hours and minutes, and what follows them. -/
def secondsThen? : List Char → Option (Nat × Nat × List Char)
  | ':' :: s₁ :: s₂ :: rest => do
    let second ← below? 60 s₁ s₂
    match rest with
    | '.' :: more | ',' :: more =>
      let isDigit (c : Char) : Bool := '0' ≤ c && c ≤ '9'
      let fraction := more.takeWhile isDigit
      if fraction.isEmpty then none
      else some (second, microsOf fraction, more.dropWhile isDigit)
    | rest => some (second, 0, rest)
  | ':' :: _ => none
  | rest => some (0, 0, rest)

/-- The moment of a date and the text behind it: a separator, a time of day and perhaps an
offset. -/
def momentAfter? (date : Date) : List Char → Option Moment
  | s :: h₁ :: h₂ :: ':' :: m₁ :: m₂ :: rest => do
    if !(['T', 't', ' ', '_'].contains s) then none
    let hour ← below? 24 h₁ h₂
    let minute ← below? 60 m₁ m₂
    let (second, micro, rest) ← secondsThen? rest
    return ⟨date, hour, minute, second, micro, ← zone? rest⟩
  | _ => none

/-! ### Counts -/

/-- The day a number of days after the first of 1970. Days are counted from the first of March of
the year zero, in cycles of 400, 100, 4 and single years. -/
def dateOfDays (days : Int) : Date :=
  let n := days + 719468
  let cycle := Int.fdiv n 146097
  let inCycle := (n - cycle * 146097).toNat
  let years := (inCycle - inCycle / 1460 + inCycle / 36524 - inCycle / 146096) / 365
  let inYear := inCycle - (365 * years + years / 4 - years / 100)
  let march := (5 * inYear + 2) / 153
  let month := if march < 10 then march + 3 else march - 9
  let year := (cycle * 400 + years).toNat + (if month ≤ 2 then 1 else 0)
  ⟨year, month, inYear - (153 * march + 2) / 5 + 1⟩

/-- The largest count that is one of seconds. -/
def mostSeconds : Nat := 20000000000

/-- The moment of a count with some microseconds more, in universal time. -/
def ofCount (count : Int) (micros : Nat) : Except EntryError Moment :=
  let (seconds, extra) :=
    if count.natAbs ≤ mostSeconds then (count, 0)
    else (Int.fdiv count 1000, (Int.fmod count 1000).toNat * 1000)
  let micros := micros + extra
  let seconds := seconds + (micros / 1000000 : Nat)
  if seconds < -11676096000 then .error .tooEarly
  else if 253402300799 < seconds then .error .tooLate
  else
    let inDay := (Int.fmod seconds 86400).toNat
    .ok ⟨dateOfDays (Int.fdiv seconds 86400), inDay / 3600, inDay % 3600 / 60, inDay % 60,
      micros % 1000000, some ⟨0⟩⟩

/-- A number rounded down to a word, and limited to what a word holds. -/
def wordOf (d : Double) : Int :=
  match d with
  | .nan => 0
  | .infinite negative =>
    Number.toWord (if negative then -Number.wordBound else Number.wordBound)
  | .finite .. => Number.toWord (Int.fdiv (d.signedUnits?.getD 0) Double.perOne)

/-- A number of seconds below one as microseconds, rounded to the nearest, a half upwards. -/
def microsOfPart (part : Double) : Nat :=
  match part.mul (.ofInt 1000000) with
  | .finite false units => (2 * units + Double.perOne) / (2 * Double.perOne)
  | _ => 0

/-- The moment of a number. -/
def ofNumber (d : Double) : Except EntryError Moment :=
  match d with
  | .nan => .error .notNumber
  | .infinite _ => ofCount (wordOf d) 0
  | .finite _ units => ofCount (wordOf d) (microsOfPart (.finite false (units % Double.perOne)))

/-- The moment of a number in text. -/
def ofNumberText (d : Double) : Except EntryError Moment :=
  let limit : Double := .ofInt mostSeconds
  let isLarge := (match d with
    | .finite _ units => Double.compare? (.finite false units) limit
    | _ => some .gt) == some .gt
  let seconds := if isLarge then d.div (.ofInt 1000) else d
  ofCount (wordOf seconds) (microsOfPart (seconds.sub (.ofInt (wordOf seconds))))

/-- A decimal with a point between digits and without zeros in front. -/
def pointed? (cs : List Char) : Option Double := do
  let (negative, body) := match cs with
    | '-' :: rest => (true, rest)
    | _ => (false, cs)
  let isDigit (c : Char) : Bool := '0' ≤ c && c ≤ '9'
  let whole := body.takeWhile isDigit
  let fits := match whole with
    | [] => false
    | ['0'] => true
    | c :: _ => c != '0'
  match body.dropWhile isDigit with
  | '.' :: c :: _ => if fits && isDigit c then Number.readDecimal? negative body else none
  | _ => none

/-- A whole number of 64 bits in text. -/
def word? (cs : List Char) : Option Int := do
  let (negative, ds) := Number.takeSign cs
  if ds.isEmpty then none
  let n : Int ← asciiNumber? ds
  let i := if negative then -n else n
  if Number.fitsWord i then some i else none

/-- Reads a moment from the bytes of a text. -/
def ofBytes (bytes : List UInt8) : Except EntryError Moment :=
  let cs := bytes.map fun b => Char.ofNat b.toNat
  match dateThen cs with
  | .ok (date, rest) =>
    if rest.isEmpty then .ok ⟨date, 0, 0, 0, 0, none⟩
    else (momentAfter? date rest).elim (.error .excess) .ok
  | .error e =>
    match word? cs, pointed? cs with
    | some i, _ => ofCount i 0
    | none, some d => (ofNumberText d).mapError fun _ => e
    | none, none => .error e

@[simp] theorem zone?_nil : zone? [] = some none := rfl

theorem ofCount_zero : ofCount 0 0 = .ok ⟨⟨1970, 1, 1⟩, 0, 0, 0, 0, some ⟨0⟩⟩ := by rfl

end BlockSuite.Calendar
