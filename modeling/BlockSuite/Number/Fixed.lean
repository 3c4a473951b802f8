import BlockSuite.Number.Shortest

/-!
Floating point numbers with a given number of digits: with fixed places behind the point, with an
exponent, or in whichever of the two is the shorter. The exact value is rounded once, a tie to
the even neighbour.
-/

namespace BlockSuite.Double

/-- A digit text with a point in front of its last places. -/
def placePoint (places : Nat) (alternate : Bool) (digits : String) : String :=
  let cs := (Text.padLeft '0' (places + 1) digits).toList
  let whole := String.ofList (cs.take (cs.length - places))
  let fraction := String.ofList (cs.drop (cs.length - places))
  if places = 0 then (if alternate then whole ++ "." else whole) else whole ++ "." ++ fraction

/-- A count of units with fixed places behind the point. -/
def fixed (places : Nat) (alternate : Bool) (units : Nat) : String :=
  placePoint places alternate (Nat.repr (roundDiv (units * Nat.pow 10 places) perOne))

/-- The digits of a positive count of units, of which there are one more than the places, and the
exponent of the first one. -/
def leadingDigits (places : Nat) (units : Nat) : Nat × Int :=
  if units = 0 then (0, 0)
  else
    let e := leadingExponent units
    let shift : Int := places - e
    let d := if 0 ≤ shift then roundDiv (units * Nat.pow 10 shift.toNat) perOne
      else roundDiv units (perOne * Nat.pow 10 (-shift).toNat)
    if Nat.pow 10 (places + 1) ≤ d then (d / 10, e + 1) else (d, e)

/-- An exponent with a sign and at least two digits. -/
def exponentText (mark : String) (e : Int) : String :=
  mark ++ (if e < 0 then "-" else "+") ++ Text.padLeft '0' 2 (Nat.repr e.natAbs)

/-- A count of units with an exponent. -/
def scientific (mark : String) (places : Nat) (alternate : Bool) (units : Nat) : String :=
  let (d, e) := leadingDigits places units
  placePoint places alternate (Nat.repr d) ++ exponentText mark e

/-- A text without zeros at the end of its fraction. -/
def dropFractionZeros (s : String) : String :=
  if s.toList.contains '.' then
    let cs := s.toList.reverse.dropWhile (· == '0')
    String.ofList (if cs.head? == some '.' then cs.drop 1 else cs).reverse
  else s

/-- A count of units with a number of digits in all, with an exponent only where it is far from
one; zeros at the end of the fraction are dropped unless asked for. -/
def general (mark : String) (precision : Nat) (alternate : Bool) (units : Nat) : String :=
  let p := max precision 1
  let (d, e) := leadingDigits (p - 1) units
  let trim (s : String) : String := if alternate then s else dropFractionZeros s
  if -4 ≤ e ∧ e < p then trim (fixed (p - 1 - e).toNat alternate units)
  else trim (placePoint (p - 1) alternate (Nat.repr d)) ++ exponentText mark e

end BlockSuite.Double
