/-!
Pairs of bytes as text. Each pair is a unit of 16 bits, with either of its bytes first; a
character is one unit, or a high surrogate with a low one behind it.
-/

namespace BlockSuite.Text

/-- The units of bytes, unless a byte is left over. -/
def units? (bigEndian : Bool) : List UInt8 → Option (List Nat)
  | [] => some []
  | [_] => none
  | a :: b :: rest =>
    let (high, low) := if bigEndian then (a, b) else (b, a)
    (units? bigEndian rest).map ((high.toNat * 256 + low.toNat) :: ·)

def isHighSurrogate (u : Nat) : Bool := 0xD800 ≤ u && u < 0xDC00

def isLowSurrogate (u : Nat) : Bool := 0xDC00 ≤ u && u < 0xE000

/-- The characters of units, unless a surrogate stands alone. -/
def charsOfUnits? : List Nat → Option (List Char)
  | [] => some []
  | u :: v :: rest =>
    if isHighSurrogate u then
      if isLowSurrogate v then
        (charsOfUnits? rest).map
          (Char.ofNat (0x10000 + (u - 0xD800) * 0x400 + (v - 0xDC00)) :: ·)
      else none
    else if isLowSurrogate u then none
    else (charsOfUnits? (v :: rest)).map (Char.ofNat u :: ·)
  | [u] => if isHighSurrogate u || isLowSurrogate u then none else some [Char.ofNat u]

/-- The text of bytes, if they are the encoding of one. -/
def ofUtf16? (bigEndian : Bool) (bs : List UInt8) : Option String := do
  return String.ofList (← charsOfUnits? (← units? bigEndian bs))

@[simp] theorem charsOfUnits?_nil : charsOfUnits? [] = some [] := rfl

theorem charsOfUnits?_cons {u : Nat} (h : isHighSurrogate u = false)
    (l : isLowSurrogate u = false) (us : List Nat) :
    charsOfUnits? (u :: us) = (charsOfUnits? us).map (Char.ofNat u :: ·) := by
  cases us <;> simp [charsOfUnits?, h, l]

end BlockSuite.Text
