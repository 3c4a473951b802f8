import BlockSuite.Number.Double
import BlockSuite.Number.Read
import BlockSuite.Text.Split

/-!
Dates, moments and durations. A moment is a date with a time of day and possibly an offset from
universal time; a duration is a whole number of microseconds.
-/

namespace BlockSuite

/-- Two digits of a number, or as many as it has. -/
def twoDigits (n : Nat) : String := Text.padLeft '0' 2 (Nat.repr n)

/-- A length of time in microseconds. -/
structure Duration where
  micros : Int
deriving DecidableEq, Repr, Inhabited, BEq

namespace Duration

def perSecond : Int := 1000000

def perDay : Int := 86400 * 1000000

def ofParts (days seconds micros : Int) : Duration :=
  ⟨days * perDay + seconds * perSecond + micros⟩

/-- Whole days, rounded down, so that the remaining parts are not negative. -/
def days (d : Duration) : Int := Int.fdiv d.micros perDay

def seconds (d : Duration) : Int := Int.fdiv (Int.fmod d.micros perDay) perSecond

def microseconds (d : Duration) : Int := Int.fmod d.micros perSecond

/-- The length in seconds. -/
def totalSeconds (d : Duration) : Double :=
  Double.ofQuotient (d.micros < 0) d.micros.natAbs 1000000

/-- Days, if any, then hours, minutes and seconds. -/
def text (d : Duration) : String :=
  let s := d.seconds.toNat
  let dayText :=
    if d.days = 0 then ""
    else toString d.days ++ (if d.days.natAbs = 1 then " day, " else " days, ")
  let fraction :=
    if d.microseconds = 0 then "" else "." ++ Text.padLeft '0' 6 (toString d.microseconds)
  dayText ++ Nat.repr (s / 3600) ++ ":" ++ twoDigits (s % 3600 / 60) ++ ":" ++ twoDigits (s % 60) ++
    fraction

/-- The parts that are not zero, each with its name. -/
def partsText (d : Duration) : String :=
  let part (name : String) (n : Int) : List String :=
    if n = 0 then [] else [name ++ "=" ++ toString n]
  let parts := part "days" d.days ++ part "seconds" d.seconds ++
    part "microseconds" d.microseconds
  if parts.isEmpty then "0" else ", ".intercalate parts

end Duration

/-- A day of the calendar. -/
structure Date where
  year : Nat
  month : Nat
  day : Nat
deriving DecidableEq, Repr, Inhabited, BEq

namespace Date

def isLeap (year : Nat) : Bool := year % 4 == 0 && (year % 100 != 0 || year % 400 == 0)

/-- Days of a month. -/
def daysIn (year month : Nat) : Nat :=
  if month = 2 then (if isLeap year then 29 else 28)
  else if month = 4 || month = 6 || month = 9 || month = 11 then 30 else 31

/-- The date of a year, month and day, if the calendar has it. -/
def of? (year month day : Nat) : Option Date :=
  if 1 ≤ year && year ≤ 9999 && 1 ≤ month && month ≤ 12 && 1 ≤ day && day ≤ daysIn year month
  then some ⟨year, month, day⟩ else none

/-- Year, month and day with dashes. -/
def text (d : Date) : String :=
  Text.padLeft '0' 4 (Nat.repr d.year) ++ "-" ++ twoDigits d.month ++ "-" ++ twoDigits d.day

end Date

/-- A date and time of day, with an offset from universal time if one is known. -/
structure Moment where
  date : Date
  hour : Nat
  minute : Nat
  second : Nat
  micro : Nat
  offset : Option Duration
deriving DecidableEq, Repr, Inhabited, BEq

namespace Moment

/-- The moment of a date and a time, if both exist. -/
def of? (date : Date) (hour minute second micro : Nat) (offset : Option Duration) :
    Option Moment :=
  if hour < 24 && minute < 60 && second < 60 && micro < 1000000 then
    some ⟨date, hour, minute, second, micro, offset⟩
  else none

/-- An offset as signed hours and minutes, with seconds where they are not zero. -/
def offsetText (d : Duration) : String :=
  let size : Duration := ⟨d.micros.natAbs⟩
  let s := d.micros.natAbs / 1000000
  let fraction := size.microseconds
  (if d.micros < 0 then "-" else "+") ++ twoDigits (s / 3600) ++ ":" ++ twoDigits (s % 3600 / 60) ++
    (if s % 60 = 0 && fraction = 0 then "" else ":" ++ twoDigits (s % 60)) ++
    (if fraction = 0 then "" else "." ++ Text.padLeft '0' 6 (toString fraction))

/-- Date and time with a separator between them. -/
def textWith (separator : String) (m : Moment) : String :=
  m.date.text ++ separator ++ twoDigits m.hour ++ ":" ++ twoDigits m.minute ++ ":" ++
    twoDigits m.second ++
    (if m.micro = 0 then "" else "." ++ Text.padLeft '0' 6 (Nat.repr m.micro)) ++
    (match m.offset with
      | none => ""
      | some d => offsetText d)

/-- Date and time with the letter T between them. -/
def isoText (m : Moment) : String := m.textWith "T"

/-- Date and time with a space between them. -/
def text (m : Moment) : String := m.textWith " "

end Moment

namespace Calendar

/-- A run of ASCII digits as a number. -/
def number? (cs : List Char) : Option Nat :=
  if cs.isEmpty || !cs.all Text.isDecimal then none
  else (cs.mapM Text.digitValue?).map Number.ofDigits

/-- Reads a date written with dashes. -/
def readDate? (s : String) : Option Date :=
  match Text.splitChars '-' s.toList with
  | [y, m, d] => do Date.of? (← number? y) (← number? m) (← number? d)
  | _ => none

/-- Reads an offset written as signed hours, minutes and perhaps seconds. -/
def readOffset? (cs : List Char) : Option Duration :=
  match cs with
  | sign :: rest =>
    match Text.splitChars ':' rest with
    | h :: m :: more => do
      let s ← match more with
        | [] => some 0
        | s :: _ => number? (s.takeWhile (· != '.'))
      let total : Int := (← number? h) * 3600 + (← number? m) * 60 + s
      return ⟨(if sign = '-' then -total else total) * 1000000⟩
    | _ => none
  | [] => none

/-- Reads a date and a time with the letter T between them. -/
def readMoment? (s : String) : Option Moment := do
  let (dateText, timeText) := Text.cutAt 'T' s
  let date ← readDate? dateText
  let isSign (c : Char) : Bool := c == '+' || c == '-'
  let clock := timeText.toList.takeWhile (!isSign ·)
  let zone := timeText.toList.dropWhile (!isSign ·)
  let offset ← if zone.isEmpty then some none else (readOffset? zone).map some
  match Text.splitChars ':' clock with
  | [h, m, s] =>
    let (whole, fraction) := (s.takeWhile (· != '.'), (s.dropWhile (· != '.')).drop 1)
    let micro ← if fraction.isEmpty then some 0 else number? fraction
    Moment.of? date (← number? h) (← number? m) (← number? whole) micro offset
  | [h, m] => Moment.of? date (← number? h) (← number? m) 0 0 offset
  | _ => none

end Calendar

end BlockSuite
