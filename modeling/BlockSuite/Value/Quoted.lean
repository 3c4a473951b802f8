import BlockSuite.Value.Basic
import BlockSuite.Number.Shortest
import BlockSuite.Text.Printable

/-!
Values as they are shown in messages and logs: texts in quotes with escapes, containers with
their brackets. Writing fails only for a whole number of more than 4300 digits.
-/

namespace BlockSuite

/-- Hexadecimal digits in lower case, filled up to a width. -/
def hexText (width n : Nat) : String :=
  Text.padLeft '0' width (String.ofList (Nat.toDigits 16 n))

/-- The decimal text of a whole number, unless it is too long. -/
def intText (i : Int) : Except Fault String :=
  let s := toString i
  let digits := if i < 0 then s.length - 1 else s.length
  if Number.maxDigits < digits then .error .tooManyDigits else .ok s

namespace Quoted

/-- The quote used around a text: a single one unless the text has single but no double ones. -/
def quoteFor (cs : List Char) : Char :=
  if cs.contains '\'' && !cs.contains '"' then '"' else '\''

/-- A character inside quotes. -/
def escape (quote c : Char) : List Char :=
  if c == quote || c == '\\' then ['\\', c]
  else if c == '\n' then ['\\', 'n']
  else if c == '\r' then ['\\', 'r']
  else if c == '\t' then ['\\', 't']
  else if Text.isPrintable c then [c]
  else
    let n := c.toNat
    ('\\' :: (if n < 0x100 then 'x' :: (hexText 2 n).toList
      else if n < 0x10000 then 'u' :: (hexText 4 n).toList
      else 'U' :: (hexText 8 n).toList))

/-- A text in quotes. -/
def ofText (s : String) : String :=
  let q := quoteFor s.toList
  String.ofList (q :: (s.toList.flatMap (escape q) ++ [q]))

/-- A byte inside quotes. -/
def escapeByte (quote : Char) (b : UInt8) : List Char :=
  let c := Char.ofNat b.toNat
  if c == quote || c == '\\' then ['\\', c]
  else if c == '\n' then ['\\', 'n']
  else if c == '\r' then ['\\', 'r']
  else if c == '\t' then ['\\', 't']
  else if 0x20 ≤ b && b < 0x7F then [c]
  else '\\' :: 'x' :: (hexText 2 b.toNat).toList

/-- Bytes in quotes with the letter b in front. -/
def ofBytes (bs : List UInt8) : String :=
  let q := quoteFor (bs.map fun b => Char.ofNat b.toNat)
  String.ofList ('b' :: q :: (bs.flatMap (escapeByte q) ++ [q]))

/-- A date with its type. -/
def ofDate (d : Date) : String :=
  "datetime.date(" ++ ", ".intercalate [Nat.repr d.year, Nat.repr d.month, Nat.repr d.day] ++ ")"

def ofDuration (d : Duration) : String := "datetime.timedelta(" ++ d.partsText ++ ")"

/-- An offset from universal time with its type. -/
def ofOffset (d : Duration) : String :=
  if d.micros = 0 then "datetime.timezone.utc" else "datetime.timezone(" ++ ofDuration d ++ ")"

/-- A moment with its type; seconds and microseconds are left out from the end while zero. -/
def ofMoment (m : Moment) : String :=
  let tail := if m.micro = 0 then (if m.second = 0 then [] else [m.second]) else [m.second, m.micro]
  let parts := [m.date.year, m.date.month, m.date.day, m.hour, m.minute] ++ tail
  let zone := match m.offset with
    | none => []
    | some d => ["tzinfo=" ++ ofOffset d]
  "datetime.datetime(" ++ ", ".intercalate (parts.map Nat.repr ++ zone) ++ ")"

end Quoted

namespace Value

mutual

/-- A value as shown in messages. -/
def quoted : Value → Except Fault String
  | null => .ok "None"
  | bool b => .ok (if b then "True" else "False")
  | int i => intText i
  | float d => .ok d.render
  | text s => .ok (Quoted.ofText s)
  | bytes bs => .ok (Quoted.ofBytes bs)
  | date d => .ok (Quoted.ofDate d)
  | moment m => .ok (Quoted.ofMoment m)
  | duration d => .ok (Quoted.ofDuration d)
  | list xs => do return "[" ++ ", ".intercalate (← quotedAll xs) ++ "]"
  | tuple [x] => do return "(" ++ (← quoted x) ++ ",)"
  | tuple xs => do return "(" ++ ", ".intercalate (← quotedAll xs) ++ ")"
  | set [] => .ok "set()"
  | set xs => do return "\x7b" ++ ", ".intercalate (← quotedAll xs) ++ "\x7d"
  | dict es => do return "\x7b" ++ ", ".intercalate (← quotedEntries es) ++ "\x7d"
  | handle _ => .ok "<opaque>"
  | inner _ _ s _ => .ok s

def quotedAll : List Value → Except Fault (List String)
  | [] => .ok []
  | x :: xs => do
    let s ← quoted x
    return s :: (← quotedAll xs)

def quotedEntries : List (Value × Value) → Except Fault (List String)
  | [] => .ok []
  | (k, v) :: rest => do
    let key ← quoted k
    let value ← quoted v
    return (key ++ ": " ++ value) :: (← quotedEntries rest)

end

/-- A value as plain text: texts, dates, moments and durations without quotes and type, all else
as in messages, unless it has a text of its own. -/
def plainText : Value → Except Fault String
  | text s => .ok s
  | date d => .ok d.text
  | moment m => .ok m.text
  | duration d => .ok d.text
  | inner _ s _ _ => .ok s
  | v => v.quoted

@[simp] theorem quotedAll_nil : quotedAll [] = .ok [] := by simp [quotedAll]

end Value

end BlockSuite
