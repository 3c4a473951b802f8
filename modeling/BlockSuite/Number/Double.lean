/-!
Binary floating point numbers of 64 bits. Every finite one is a whole multiple of the smallest
positive one, the unit 2^-1074, so it is kept as a sign and a count of units. Each operation is
carried out exactly on counts and then rounded once: to the nearest count of at most 53
significant bits, a tie going to the even neighbour.
-/

namespace BlockSuite

/-- A floating point number; two zeros are told apart by their sign. -/
inductive Double where
  | nan
  | infinite (negative : Bool)
  | finite (negative : Bool) (units : Nat)
deriving DecidableEq, Repr, Inhabited

namespace Double

/-- How many units make one. -/
def perOne : Nat := Nat.pow 2 1074

/-- The first count of units that is too large. -/
def bound : Nat := Nat.pow 2 2098

/-- A quotient rounded to the nearest whole number, ties to even. -/
def roundDiv (num den : Nat) : Nat :=
  let q := num / den
  let r := num % den
  if 2 * r < den then q
  else if den < 2 * r then q + 1
  else if q % 2 = 0 then q else q + 1

/-- The nearest count of units with at most 53 significant bits. -/
def roundUnits (num den : Nat) : Nat :=
  let shift := Nat.log2 (num / den) + 1 - 53
  roundDiv num (den * Nat.pow 2 shift) * Nat.pow 2 shift

/-- A count of units as a number, infinite from the bound on. -/
def ofUnits (negative : Bool) (units : Nat) : Double :=
  if units < bound then .finite negative units else .infinite negative

/-- The number nearest to a quotient. -/
def ofQuotient (negative : Bool) (num den : Nat) : Double :=
  ofUnits negative (roundUnits (num * perOne) den)

/-- The number nearest to a whole number. -/
def ofInt (i : Int) : Double := ofQuotient (i < 0) i.natAbs 1

/-- Neither infinite nor not a number. -/
def isFinite : Double → Bool
  | finite .. => true
  | _ => false

/-- The number nearest to a decimal significand times a power of ten. -/
def ofDecimal (negative : Bool) (significand : Nat) (exponent : Int) : Double :=
  if significand = 0 then .finite negative 0
  else
    let size : Int := (Nat.repr significand).length + exponent
    if 400 < size then .infinite negative
    else if size < -400 then .finite negative 0
    else if 0 ≤ exponent then ofQuotient negative (significand * Nat.pow 10 exponent.toNat) 1
    else ofQuotient negative significand (Nat.pow 10 (-exponent).toNat)

def isNaN : Double → Bool
  | nan => true
  | _ => false

def isNegative : Double → Bool
  | nan => false
  | infinite n => n
  | finite n _ => n

/-- Zeros and nothing else are zero. -/
def isZero : Double → Bool
  | finite _ 0 => true
  | _ => false

/-- The signed count of units of a finite number. -/
def signedUnits? : Double → Option Int
  | finite negative units => some (if negative then -(units : Int) else units)
  | _ => none

/-- A finite number without a fraction, as a whole number. -/
def toInt? : Double → Option Int
  | finite negative units =>
    if units % perOne = 0 then
      let n : Int := (units / perOne : Nat)
      some (if negative then -n else n)
    else none
  | _ => none

/-- A finite number cut towards zero. -/
def truncate? : Double → Option Int
  | finite negative units =>
    let n : Int := (units / perOne : Nat)
    some (if negative then -n else n)
  | _ => none

def neg : Double → Double
  | nan => nan
  | infinite n => infinite !n
  | finite n u => finite (!n) u

/-- An exact signed count of units, rounded; an exact zero is negative only if asked. -/
def ofSigned (units : Int) (negativeZero : Bool) : Double :=
  if units = 0 then .finite negativeZero 0
  else ofUnits (units < 0) (roundUnits units.natAbs 1)

def add : Double → Double → Double
  | nan, _ => nan
  | _, nan => nan
  | infinite a, infinite b => if a = b then infinite a else nan
  | infinite a, finite _ _ => infinite a
  | finite _ _, infinite b => infinite b
  | finite na ua, finite nb ub =>
    let sa : Int := if na then -(ua : Int) else ua
    let sb : Int := if nb then -(ub : Int) else ub
    ofSigned (sa + sb) (na && nb)

def sub (a b : Double) : Double := a.add b.neg

def mul : Double → Double → Double
  | nan, _ => nan
  | _, nan => nan
  | infinite a, infinite b => infinite (a != b)
  | infinite a, finite nb ub => if ub = 0 then nan else infinite (a != nb)
  | finite na ua, infinite b => if ua = 0 then nan else infinite (na != b)
  | finite na ua, finite nb ub => ofUnits (na != nb) (roundUnits (ua * ub) perOne)

/-- The quotient, for a divisor that is not zero. -/
def div : Double → Double → Double
  | nan, _ => nan
  | _, nan => nan
  | infinite _, infinite _ => nan
  | infinite a, finite nb _ => infinite (a != nb)
  | finite na _, infinite b => finite (na != b) 0
  | finite na ua, finite nb ub => ofUnits (na != nb) (roundUnits (ua * perOne) ub)

/-- The remainder that has the sign of the divisor, for a divisor that is not zero. -/
def mod : Double → Double → Double
  | nan, _ => nan
  | _, nan => nan
  | infinite _, _ => nan
  | finite na ua, infinite b =>
    if ua = 0 then finite b 0 else if na = b then finite na ua else infinite b
  | finite na ua, finite nb ub =>
    let r := ua % ub
    if r = 0 then finite nb 0
    else if na = nb then finite na r
    else add (finite na r) (finite nb ub)

/-- The order of two numbers by value, undefined where one of them is not a number. -/
def compare? : Double → Double → Option Ordering
  | nan, _ => none
  | _, nan => none
  | infinite a, infinite b =>
    some (if a = b then .eq else if a then .lt else .gt)
  | infinite a, finite _ _ => some (if a then .lt else .gt)
  | finite _ _, infinite b => some (if b then .gt else .lt)
  | finite na ua, finite nb ub =>
    let sa : Int := if na then -(ua : Int) else ua
    let sb : Int := if nb then -(ub : Int) else ub
    some (compare sa sb)

/-- The exact order of a floating point number and a whole number. -/
def compareInt? : Double → Int → Option Ordering
  | nan, _ => none
  | infinite a, _ => some (if a then .lt else .gt)
  | finite na ua, i =>
    let sa : Int := if na then -(ua : Int) else ua
    some (compare sa (i * perOne))

@[simp] theorem neg_neg (a : Double) : a.neg.neg = a := by cases a <;> simp [neg]

@[simp] theorem isNaN_neg (a : Double) : a.neg.isNaN = a.isNaN := by cases a <;> rfl

theorem toInt?_ofUnits_whole (n : Nat) (h : n * perOne < bound) :
    (ofUnits false (n * perOne)).toInt? = some n := by
  have hp : 0 < perOne := by unfold perOne; generalize 1074 = n; exact Nat.two_pow_pos n
  rw [ofUnits, if_pos h]
  simp [toInt?, Nat.mul_div_cancel n hp]

end Double

end BlockSuite
