/-!
Words: whole numbers of 64 bits, one of them for the sign.
-/

namespace BlockSuite.Number

/-- The first whole number that is too large for a word. -/
def wordBound : Nat := 0x8000000000000000

/-- Whether a whole number is one of a word. -/
def fitsWord (i : Int) : Bool := -(wordBound : Int) ≤ i && i < wordBound

/-- A whole number limited to what a word holds. -/
def toWord (i : Int) : Int := max (-(wordBound : Int)) (min i (wordBound - 1))

theorem fitsWord_iff {i : Int} : fitsWord i = true ↔ -(wordBound : Int) ≤ i ∧ i < wordBound := by
  simp [fitsWord]

theorem fitsWord_toWord (i : Int) : fitsWord (toWord i) = true := by
  rw [fitsWord_iff, toWord, wordBound]
  omega

theorem toWord_of_fitsWord {i : Int} (h : fitsWord i = true) : toWord i = i := by
  rw [fitsWord_iff, wordBound] at h
  rw [toWord, wordBound]
  omega

end BlockSuite.Number
