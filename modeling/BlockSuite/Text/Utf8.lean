/-!
Bytes as text. Well formed sequences of one to four bytes give their character; every maximal
part of an ill formed sequence gives one replacement character.
-/

namespace BlockSuite.Text

/-- The character shown for bytes that are no text. -/
def replacement : Char := Char.ofNat 0xFFFD

/-- Length of the sequence a byte opens and the range of its second byte. -/
def sequenceOf? (b : UInt8) : Option (Nat × UInt8 × UInt8) :=
  if 0xC2 ≤ b && b ≤ 0xDF then some (2, 0x80, 0xBF)
  else if b == 0xE0 then some (3, 0xA0, 0xBF)
  else if b == 0xED then some (3, 0x80, 0x9F)
  else if 0xE1 ≤ b && b ≤ 0xEF then some (3, 0x80, 0xBF)
  else if b == 0xF0 then some (4, 0x90, 0xBF)
  else if b == 0xF4 then some (4, 0x80, 0x8F)
  else if 0xF1 ≤ b && b ≤ 0xF3 then some (4, 0x80, 0xBF)
  else none

/-- Reads further bytes of a sequence: the code point so far, the bytes still wanted and the
range of the next one. The result is the character, if complete, and the rest. -/
def continueSequence (code wanted : Nat) (lo hi : UInt8) :
    List UInt8 → Option Char × List UInt8
  | [] => (none, [])
  | b :: rest =>
    if lo ≤ b && b ≤ hi then
      let code := code * 64 + (b.toNat - 0x80)
      match wanted with
      | 0 | 1 => (some (Char.ofNat code), rest)
      | n + 2 => continueSequence code (n + 1) 0x80 0xBF rest
    else (none, b :: rest)

theorem continueSequence_length (code wanted : Nat) (lo hi : UInt8) (bs : List UInt8) :
    (continueSequence code wanted lo hi bs).2.length ≤ bs.length := by
  induction bs generalizing code wanted lo hi with
  | nil => simp [continueSequence]
  | cons b rest ih =>
    simp only [continueSequence]
    split
    · split
      · simp
      · simp
      · exact Nat.le_succ_of_le (ih ..)
    · simp

/-- The text of bytes. -/
def decodeBytes : List UInt8 → List Char
  | [] => []
  | b :: rest =>
    if b < 0x80 then Char.ofNat b.toNat :: decodeBytes rest
    else
      match sequenceOf? b with
      | none => replacement :: decodeBytes rest
      | some (len, lo, hi) =>
        let lead := if len = 2 then b.toNat - 0xC0 else if len = 3 then b.toNat - 0xE0
          else b.toNat - 0xF0
        let r := continueSequence lead (len - 1) lo hi rest
        r.1.getD replacement :: decodeBytes r.2
termination_by bs => bs.length
decreasing_by
  all_goals simp only [List.length_cons]
  · omega
  · omega
  · exact Nat.lt_succ_of_le (continueSequence_length ..)

/-- The text of bytes, ill formed parts shown as replacement characters. -/
def ofBytes (bs : List UInt8) : String := String.ofList (decodeBytes bs)

/-- Whether bytes are the encoding of a text. -/
def isUtf8 (bs : List UInt8) : Bool := (ofBytes bs).toUTF8.data.toList == bs

/-- A part of bytes that is no text: its first byte, the number of its bytes, and why. -/
structure IllFormed where
  first : Nat
  count : Nat
  reason : String
deriving Repr, DecidableEq, Inhabited

/-- The first part of bytes that is no text; the counter tells the bytes before. -/
def illFormed? (passed : Nat) : List UInt8 → Option IllFormed
  | [] => none
  | b :: rest =>
    if b < 0x80 then illFormed? (passed + 1) rest
    else
      match sequenceOf? b with
      | none => some ⟨passed, 1, "invalid start byte"⟩
      | some (len, lo, hi) =>
        let r := continueSequence 0 (len - 1) lo hi rest
        let count := 1 + rest.length - r.2.length
        if r.1.isSome then illFormed? (passed + count) r.2
        else if r.2.isEmpty then some ⟨passed, count, "unexpected end of data"⟩
        else some ⟨passed, count, "invalid continuation byte"⟩
termination_by bs => bs.length
decreasing_by
  all_goals simp only [List.length_cons]
  · omega
  · exact Nat.lt_succ_of_le (continueSequence_length ..)

/-- The wording for a part of bytes that is no text. -/
def IllFormed.text (bytes : List UInt8) (part : IllFormed) : String :=
  let digits := Nat.toDigits 16 ((bytes[part.first]?).getD 0).toNat
  let place :=
    if part.count == 1 then
      "byte 0x" ++ String.ofList digits ++ " in position " ++ Nat.repr part.first
    else
      "bytes in position " ++ Nat.repr part.first ++ "-" ++
        Nat.repr (part.first + part.count - 1)
  "'utf-8' codec can't decode " ++ place ++ ": " ++ part.reason

end BlockSuite.Text
