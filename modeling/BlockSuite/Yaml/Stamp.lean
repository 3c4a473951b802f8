import BlockSuite.Value.Basic

/-!
Dates and times as YAML spells them: a date with dashes, perhaps followed by a time of day with a
fraction and an offset from universal time.
-/

namespace BlockSuite.Yaml

/-- A time of day as it is spelled. The offset is in minutes. -/
structure Clock where
  hour : Nat
  minute : Nat
  second : Nat
  fraction : List Char
  offset : Option Int
deriving Repr, DecidableEq, Inhabited

/-- A date as it is spelled, with its time if it has one. The flag tells whether month and day
have two digits. -/
structure Stamp where
  year : Nat
  month : Nat
  day : Nat
  full : Bool
  clock : Option Clock
deriving Repr, DecidableEq, Inhabited

namespace Stamp

def isDigit (c : Char) : Bool := '0' ≤ c && c ≤ '9'

def digit (c : Char) : Nat := c.toNat - 48

/-- One or two digits and the rest, with the number of digits. -/
def oneOrTwo? : List Char → Option (Nat × Nat × List Char)
  | a :: b :: rest =>
    if isDigit a then
      if isDigit b then some (digit a * 10 + digit b, 2, rest) else some (digit a, 1, b :: rest)
    else none
  | [a] => if isDigit a then some (digit a, 1, []) else none
  | [] => none

/-- Two digits and the rest. -/
def two? : List Char → Option (Nat × List Char)
  | a :: b :: rest =>
    if isDigit a && isDigit b then some (digit a * 10 + digit b, rest) else none
  | _ => none

/-- A character that has to come next. -/
def skip? (c : Char) : List Char → Option (List Char)
  | d :: rest => if c == d then some rest else none
  | [] => none

def isGap (c : Char) : Bool := c == ' ' || c == '\t'

/-- An offset up to the end of the text, if anything is left of it. -/
def zone? (cs : List Char) : Option (Option Int) :=
  match cs.dropWhile isGap with
  | [] => if cs.isEmpty then some none else none
  | ['Z'] => some (some 0)
  | sign :: rest =>
    if sign == '+' || sign == '-' then do
      let (hours, _, rest) ← oneOrTwo? rest
      let minutes ← match rest with
        | [] => some 0
        | ':' :: rest =>
          match two? rest with
          | some (m, []) => some m
          | _ => none
        | _ => none
      let size : Int := (hours * 60 + minutes : Nat)
      return some (if sign == '-' then -size else size)
    else none

/-- A time of day up to the end of the text. -/
def clock? (cs : List Char) : Option Clock := do
  let (hour, _, rest) ← oneOrTwo? cs
  let (minute, rest) ← two? (← skip? ':' rest)
  let (second, rest) ← two? (← skip? ':' rest)
  let (fraction, rest) := match rest with
    | '.' :: rest => (rest.takeWhile isDigit, rest.dropWhile isDigit)
    | _ => ([], rest)
  let offset ← zone? rest
  return ⟨hour, minute, second, fraction, offset⟩

/-- What stands between date and time. -/
def separator? : List Char → Option (List Char)
  | 'T' :: rest | 't' :: rest => some rest
  | c :: rest => if isGap c then some (rest.dropWhile isGap) else none
  | [] => none

/-- A date, perhaps with a time. -/
def ofChars? (cs : List Char) : Option Stamp := do
  let (century, rest) ← two? cs
  let (years, rest) ← two? rest
  let (month, monthDigits, rest) ← oneOrTwo? (← skip? '-' rest)
  let (day, dayDigits, rest) ← oneOrTwo? (← skip? '-' rest)
  let full := monthDigits == 2 && dayDigits == 2
  let year := century * 100 + years
  match rest with
  | [] => some ⟨year, month, day, full, none⟩
  | rest => do
    let clock ← clock? (← separator? rest)
    return ⟨year, month, day, full, some clock⟩

/-- Whether a plain text with this spelling stands for a date or moment. -/
def isResolved (s : Stamp) : Bool := s.full || s.clock.isSome

/-- The microseconds of a fraction: its first six digits. -/
def micros (fraction : List Char) : Nat :=
  let ds := fraction.take 6
  (ds ++ List.replicate (6 - ds.length) '0').foldl (fun n c => n * 10 + digit c) 0

/-- The date or moment spelled, if the calendar has it; an offset is less than a day. -/
def toValue? (s : Stamp) : Option Value := do
  let date ← Date.of? s.year s.month s.day
  match s.clock with
  | none => return .date date
  | some c =>
    if 24 * 60 ≤ (c.offset.getD 0).natAbs then none
    else
      let zone := c.offset.map fun minutes => (⟨minutes * 60 * 1000000⟩ : Duration)
      return .moment (← Moment.of? date c.hour c.minute c.second (micros c.fraction) zone)

end Stamp

end BlockSuite.Yaml
