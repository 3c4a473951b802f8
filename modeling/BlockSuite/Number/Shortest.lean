import BlockSuite.Number.Double
import BlockSuite.Text.Split

/-!
The shortest decimal text of a floating point number: the fewest digits that read back as the
number, and of those the nearest. For each number of digits the two neighbours of the number on
that decimal grid are tried, and the first grid with a hit wins.
-/

namespace BlockSuite.Double

/-- The exponent of the leading decimal digit of a positive count of units. -/
def leadingExponent (units : Nat) : Int :=
  ((Nat.repr (units * Nat.pow 10 400 / perOne)).length : Int) - 401

/-- The nearer of the two neighbours of a positive number on the grid of a power of ten that
read back as the number, if any. -/
def gridHit? (units : Nat) (exponent : Int) : Option Nat :=
  let num := if exponent < 0 then units * Nat.pow 10 (-exponent).toNat else units
  let den := if exponent < 0 then perOne else perOne * Nat.pow 10 exponent.toNat
  let low := num / den
  let rest := num % den
  let back (d : Nat) : Bool := ofDecimal false d exponent = .finite false units
  match back low, back (low + 1) with
  | false, false => none
  | true, false => some low
  | false, true => some (low + 1)
  | true, true =>
    some (if 2 * rest < den then low
      else if den < 2 * rest then low + 1
      else if low % 2 = 0 then low else low + 1)

/-- Tries grids of ever more digits; seventeen digits always suffice. -/
def searchGrids (units : Nat) (leading : Int) : Nat → Nat → Nat × Int
  | 0, count => (0, leading - count)
  | fuel + 1, count =>
    let exponent := leading - count
    match gridHit? units exponent with
    | some d => (d, exponent)
    | none => searchGrids units leading fuel (count + 1)

/-- Moves trailing zeros of the digits into the exponent. -/
def dropZeros : Nat → Nat × Int → Nat × Int
  | 0, r => r
  | fuel + 1, (d, e) => if d % 10 = 0 && d ≠ 0 then dropZeros fuel (d / 10, e + 1) else (d, e)

/-- The shortest digits of a positive number and the exponent of their last digit. -/
def shortest (units : Nat) : Nat × Int :=
  dropZeros 20 (searchGrids units (leadingExponent units) 18 0)

/-- Which digits are written positionally and how an exponent looks: positions from -3 to 16 in
front of the point are positional and keep a fraction; an exponent has a sign and at least two
digits. -/
def layout (digits : String) (exponent : Int) : String :=
  let len : Int := digits.length
  let point := len + exponent
  if -4 < point && point ≤ 16 then
    if point ≤ 0 then "0." ++ Text.repeated '0' (-point).toNat ++ digits
    else if len ≤ point then digits ++ Text.repeated '0' (point - len).toNat ++ ".0"
    else
      String.ofList (digits.toList.take point.toNat) ++ "." ++
        String.ofList (digits.toList.drop point.toNat)
  else
    let e := point - 1
    let fraction := digits.toList.drop 1
    String.ofList (digits.toList.take 1) ++
      (if fraction.isEmpty then "" else "." ++ String.ofList fraction) ++
      "e" ++ (if e < 0 then "-" else "+") ++ Text.padLeft '0' 2 (Nat.repr e.natAbs)

/-- The text of a number: the shortest digits that read back as it. -/
def render : Double → String
  | nan => "nan"
  | infinite false => "inf"
  | infinite true => "-inf"
  | finite negative units =>
    let magnitude :=
      if units = 0 then "0.0"
      else
        let (d, e) := shortest units
        layout (Nat.repr d) e
    if negative then "-" ++ magnitude else magnitude

end BlockSuite.Double
