import BlockSuite.Proofs.Spelling
import Mathlib.Data.Nat.Log
import Mathlib.Tactic.Ring

/-!
Decimal texts of floating point numbers. A number is written with the fewest digits that are rounded
to it again. Eighteen digits always suffice, so that what the search for digits comes to is rounded
to the number, and what is written in JSON is read as the number.
-/

namespace BlockSuite

namespace Double

variable {num den units m : Nat} {negative : Bool}

/-- Rounding leaves a proper number as it is: it has at most 53 significant bits and is in range. -/
def Proper : Double → Prop
  | finite _ units => roundUnits units 1 = units ∧ units < bound
  | _ => True

lemma roundDiv_mul {c : Nat} (hc : 0 < c) : roundDiv (num * c) (den * c) = roundDiv num den := by
  have hlt (a b : Nat) : a * c < b * c ↔ a < b := Nat.mul_lt_mul_right hc
  have hdouble : 2 * (num % den * c) = 2 * (num % den) * c := (Nat.mul_assoc ..).symm
  simp only [roundDiv, Nat.mul_div_mul_right _ _ hc, Nat.mul_mod_mul_right, hdouble, hlt]

lemma roundUnits_mul {c : Nat} (hc : 0 < c) :
    roundUnits (num * c) (den * c) = roundUnits num den := by
  simp only [roundUnits, Nat.mul_div_mul_right _ _ hc, Nat.mul_right_comm den c, roundDiv_mul hc]

lemma roundDiv_near (hle : num ≤ m * den) (hnear : 2 * (m * den - num) < den) :
    roundDiv num den = m := by
  rcases Nat.eq_or_lt_of_le hle with rfl | hlt
  · have hden : 0 < den := by omega
    simp [roundDiv, Nat.mul_div_cancel _ hden, hden]
  · obtain ⟨k, rfl⟩ : ∃ k, m = k + 1 := Nat.exists_eq_succ_of_ne_zero (by rintro rfl; omega)
    have hsplit : (k + 1) * den = k * den + den := Nat.succ_mul k den
    have hquotient : num / den = k := Nat.div_eq_of_lt_le (by omega) (by omega)
    have hrest : num % den = num - k * den := by
      have := Nat.div_add_mod num den
      rw [hquotient, Nat.mul_comm] at this
      omega
    rw [roundDiv, hquotient, hrest, if_neg (by omega), if_pos (by omega)]

/-- A quotient that is nearly some number has nearly as many bits. -/
lemma log2_near (hden : 0 < den) (hle : num ≤ units * den) (hnear : units * den < 2 * num) :
    Nat.log2 (num / den) ≤ Nat.log2 units ∧ units < 2 ^ (Nat.log2 (num / den) + 2) := by
  have hunits : units ≠ 0 := by rintro rfl; omega
  have hfloor : num / den ≤ units := Nat.div_le_of_le_mul (by rw [Nat.mul_comm]; exact hle)
  constructor
  · by_cases hzero : num / den = 0
    · simp [hzero]
    · exact (Nat.le_log2 hunits).mpr ((Nat.log2_self_le hzero).trans hfloor)
  · have hnum : num < num / den * den + den := Nat.lt_div_mul_add hden
    have hwide : units < 2 * (num / den) + 2 := by
      refine Nat.lt_of_mul_lt_mul_right (a := den) ?_
      calc units * den < 2 * num := hnear
        _ ≤ 2 * (num / den * den + den) := by omega
        _ = (2 * (num / den) + 2) * den := by ring
    have hbits : num / den < 2 ^ (Nat.log2 (num / den) + 1) := Nat.lt_log2_self
    have hpow : 2 ^ (Nat.log2 (num / den) + 2) = 2 * 2 ^ (Nat.log2 (num / den) + 1) := by ring
    omega

/-- What is nearly a number of 53 significant bits, but no more than it, is rounded to it. -/
lemma roundUnits_near (hden : 0 < den) (hproper : roundUnits units 1 = units)
    (hle : num ≤ units * den) (hnear : 10 ^ 17 * (units * den - num) < units * den) :
    roundUnits num den = units := by
  let shift := Nat.log2 (num / den) + 1 - 53
  obtain ⟨hlog, hwide⟩ := log2_near hden hle (by omega)
  obtain ⟨m, hm⟩ : 2 ^ shift ∣ units := by
    have hdvd : 2 ^ (Nat.log2 units + 1 - 53) ∣ units := by
      refine ⟨roundDiv units (1 * 2 ^ (Nat.log2 units + 1 - 53)), Eq.symm ?_⟩
      rwa [roundUnits, Nat.div_one, Nat.mul_comm] at hproper
    exact (Nat.pow_dvd_pow 2 (by omega)).trans hdvd
  have hbits : 2 * units ≤ 10 ^ 17 * 2 ^ shift := by
    have hshift : 2 ^ (Nat.log2 (num / den) + 2) ≤ 2 ^ (54 + shift) :=
      Nat.pow_le_pow_right (by decide) (by omega)
    rw [Nat.pow_add 2 54] at hshift
    omega
  have hunits : units * den = m * (den * 2 ^ shift) := by rw [hm]; ring
  have hround : roundDiv num (den * 2 ^ shift) = m := by
    refine roundDiv_near (hunits ▸ hle) ?_
    rw [← hunits]
    have hstep : 2 * (units * den) ≤ 10 ^ 17 * (den * 2 ^ shift) := by
      calc 2 * (units * den) = 2 * units * den := by ring
        _ ≤ 10 ^ 17 * 2 ^ shift * den := Nat.mul_le_mul_right _ hbits
        _ = 10 ^ 17 * (den * 2 ^ shift) := by ring
    omega
  change roundDiv num (den * 2 ^ shift) * 2 ^ shift = units
  rw [hround, hm, Nat.mul_comm]

/-! ### The search for digits -/

lemma ten_pow_pos (n : Nat) : 0 < 10 ^ n := Nat.pow_pos (by decide)

lemma perOne_pos : 0 < perOne := by decide +kernel

lemma perOne_le : perOne ≤ 10 ^ 400 := by decide +kernel

lemma bound_le : bound ≤ perOne * 10 ^ 309 := by decide +kernel

/-- A decimal within the range of exponents is a rounded quotient; both of its parts can be scaled
by any power of ten. -/
lemma ofDecimal_scaled {d : Nat} {e : Int} (hd : d ≠ 0)
    (hsize : -400 ≤ (Nat.repr d).length + e ∧ (Nat.repr d).length + e ≤ 400) {k : Nat}
    (hk : 0 ≤ e + k) : ofDecimal negative d e =
      ofUnits negative (roundUnits (d * perOne * 10 ^ (e + k).toNat) (10 ^ k)) := by
  rw [ofDecimal, if_neg hd]
  dsimp only
  rw [if_neg (by omega), if_neg (by omega)]
  simp only [ofQuotient]
  generalize perOne = one
  split
  · next he =>
    obtain ⟨n, rfl⟩ := Int.eq_ofNat_of_zero_le he
    have hscale : (n + k : Int).toNat = n + k := by omega
    have hnum : d * 10 ^ n * one * 10 ^ k = d * one * 10 ^ (n + k) := by ring
    rw [hscale, Int.toNat_natCast, ← roundUnits_mul (ten_pow_pos k), Nat.one_mul, ← hnum]
    rfl
  · next he =>
    obtain ⟨n, hn⟩ : ∃ n : Nat, -e = n := Int.eq_ofNat_of_zero_le (by omega)
    obtain ⟨j, rfl⟩ : ∃ j, k = n + j := ⟨k - n, by omega⟩
    have hscale : (e + (n + j : Nat)).toNat = j := by omega
    rw [hscale, hn, Int.toNat_natCast, ← roundUnits_mul (ten_pow_pos j), Nat.pow_add]
    rfl

/-- A hit on a grid reads back as the number. -/
lemma gridHit?_reads {e : Int} {d : Nat} (h : gridHit? units e = some d) :
    ofDecimal false d e = .finite false units := by
  unfold gridHit? at h
  extract_lets num den low rest back at h
  have hback (d : Nat) (hd : back d = true) : ofDecimal false d e = .finite false units :=
    of_decide_eq_true hd
  clear_value low rest den back
  split at h
  · cases h
  · next hlow _ =>
    cases h
    exact hback _ hlow
  · next _ hhigh =>
    cases h
    exact hback _ hhigh
  · next hlow hhigh =>
    cases h
    split
    · exact hback _ hlow
    · split
      · exact hback _ hhigh
      · split
        · exact hback _ hlow
        · exact hback _ hhigh

/-- The search ends at a hit if there is one. -/
lemma searchGrids_hit {leading : Int} {fuel count : Nat}
    (h : ∃ j < fuel, gridHit? units (leading - (count + j : Nat)) ≠ none) :
    gridHit? units (searchGrids units leading fuel count).2 =
      some (searchGrids units leading fuel count).1 := by
  induction fuel generalizing count with
  | zero => obtain ⟨j, hj, -⟩ := h; omega
  | succ fuel ih =>
    rw [searchGrids]
    split
    · next d hd => exact hd
    · next hnone =>
      obtain ⟨j, hj, hhit⟩ := h
      cases j with
      | zero => exact absurd hnone hhit
      | succ j =>
        refine ih ⟨j, by omega, ?_⟩
        rwa [Nat.add_right_comm, Nat.add_assoc]

lemma repr_length_le_iff {n k : Nat} (hk : 0 < k) : (Nat.repr n).length ≤ k ↔ n < 10 ^ k := by
  rw [← String.length_toList, Nat.toList_repr]
  exact Nat.length_toDigits_le_iff (by decide) hk

/-- The number of digits of a number between two powers of ten. -/
lemma repr_length {n k : Nat} (hlow : 10 ^ k ≤ n) (hhigh : n < 10 ^ (k + 1)) :
    (Nat.repr n).length = k + 1 := by
  have hle := (repr_length_le_iff (by omega)).mpr hhigh
  rcases Nat.eq_zero_or_pos k with rfl | hk
  · have hne : (Nat.repr n).length ≠ 0 := by
      rw [← String.length_toList, Nat.toList_repr]
      exact Nat.ne_of_gt Nat.length_toDigits_pos
    omega
  · have hlt : ¬(Nat.repr n).length ≤ k := fun h =>
      absurd ((repr_length_le_iff hk).mp h) (by omega)
    omega

lemma leadingExponent_eq (k : Nat) (hk : 400 = k) :
    leadingExponent units = ((Nat.repr (units * 10 ^ k / perOne)).length : Int) - 401 := by
  rw [leadingExponent, hk]
  rfl

/-- Where the leading digit of a number stands. -/
lemma leadingExponent_spec (hunits : 0 < units) (hbound : units < bound) :
    ∃ n : Nat, leadingExponent units = (n : Int) - 400 ∧ n ≤ 709 ∧
      perOne * 10 ^ n ≤ units * 10 ^ 400 ∧ units * 10 ^ 400 < perOne * 10 ^ (n + 1) := by
  have hone := perOne_pos
  obtain ⟨q, hq⟩ : ∃ q, q = units * 10 ^ 400 / perOne := ⟨_, rfl⟩
  have hlead : leadingExponent units = ((Nat.repr q).length : Int) - 401 := by
    rw [leadingExponent_eq 400 rfl, hq]
  have hpos : 0 < q := by
    have hle : 10 ^ 400 ≤ units * 10 ^ 400 := Nat.le_mul_of_pos_left _ hunits
    exact hq ▸ Nat.div_pos (perOne_le.trans hle) hone
  obtain ⟨n, hlow, hhigh⟩ : ∃ n, 10 ^ n ≤ q ∧ q < 10 ^ (n + 1) :=
    ⟨Nat.log 10 q, Nat.pow_log_le_self 10 hpos.ne', Nat.lt_pow_succ_log_self (by decide) q⟩
  have hlow' : perOne * 10 ^ n ≤ units * 10 ^ 400 := by
    rw [Nat.mul_comm]
    exact (Nat.le_div_iff_mul_le hone).mp (hq ▸ hlow)
  have hhigh' : units * 10 ^ 400 < perOne * 10 ^ (n + 1) := by
    rw [Nat.mul_comm perOne]
    exact (Nat.div_lt_iff_lt_mul hone).mp (hq ▸ hhigh)
  refine ⟨n, ?_, ?_, hlow', hhigh'⟩
  · rw [hlead, repr_length hlow hhigh]
    omega
  · have hlt (j k : Nat) (hlow : perOne * 10 ^ n ≤ units * 10 ^ k)
        (hbound' : bound ≤ perOne * 10 ^ j) : n < j + k := by
      have hpow : perOne * 10 ^ n < perOne * 10 ^ (j + k) :=
        calc perOne * 10 ^ n ≤ units * 10 ^ k := hlow
          _ < bound * 10 ^ k := Nat.mul_lt_mul_of_pos_right hbound (ten_pow_pos k)
          _ ≤ perOne * 10 ^ j * 10 ^ k := Nat.mul_le_mul_right _ hbound'
          _ = perOne * 10 ^ (j + k) := by rw [Nat.mul_assoc, Nat.pow_add]
      exact (Nat.pow_lt_pow_iff_right (by decide)).mp (Nat.lt_of_mul_lt_mul_left hpow)
    exact (hlt 309 400 hlow' bound_le).le

/-- The lower neighbour of a number on a grid is a quotient; both of its parts can be scaled. -/
lemma gridHit?_of_reads {e : Int} {n k : Nat} (he : e = n - k)
    (h : ofDecimal false (units * 10 ^ k / (perOne * 10 ^ n)) e = .finite false units) :
    gridHit? units e ≠ none := by
  have hlow : (if e < 0 then units * Nat.pow 10 (-e).toNat else units) /
      (if e < 0 then perOne else perOne * Nat.pow 10 e.toNat) =
        units * 10 ^ k / (perOne * 10 ^ n) := by
    split
    · obtain ⟨j, rfl⟩ : ∃ j, k = j + n := ⟨k - n, by omega⟩
      have hscale : (-e).toNat = j := by omega
      rw [hscale, Nat.pow_add, ← Nat.mul_assoc, Nat.mul_div_mul_right _ _ (ten_pow_pos n)]
      rfl
    · obtain ⟨j, rfl⟩ : ∃ j, n = j + k := ⟨n - k, by omega⟩
      have hscale : e.toNat = j := by omega
      rw [hscale, Nat.pow_add, ← Nat.mul_assoc, Nat.mul_div_mul_right _ _ (ten_pow_pos k)]
      rfl
  unfold gridHit?
  extract_lets num den low rest back
  have hback : back low = true := by
    rw [← hlow] at h
    exact decide_eq_true h
  rw [hback]
  cases back (low + 1) <;> exact Option.some_ne_none _

/-- **Eighteen digits read back as the number.** -/
lemma gridHit?_eighteen (hunits : 0 < units) (hproper : roundUnits units 1 = units)
    (hbound : units < bound) : gridHit? units (leadingExponent units - 17) ≠ none := by
  obtain ⟨n, hlead, hn, hlow, hhigh⟩ := leadingExponent_spec hunits hbound
  obtain ⟨whole, hwhole⟩ : ∃ whole, whole = units * 10 ^ (400 + 17) := ⟨_, rfl⟩
  obtain ⟨step, hstep⟩ : ∃ step, step = perOne * 10 ^ n := ⟨_, rfl⟩
  have hpos : 0 < step := hstep ▸ Nat.mul_pos perOne_pos (ten_pow_pos n)
  have hlow' : 10 ^ 17 * step ≤ whole := by
    rw [hwhole, pow_add, hstep]
    calc 10 ^ 17 * (perOne * 10 ^ n) ≤ 10 ^ 17 * (units * 10 ^ 400) := Nat.mul_le_mul_left _ hlow
      _ = units * (10 ^ 400 * 10 ^ 17) := by rw [Nat.mul_left_comm, Nat.mul_comm (10 ^ 17)]
  have hhigh' : whole < 10 ^ 18 * step := by
    rw [hwhole, pow_add, ← Nat.mul_assoc units, hstep]
    calc units * 10 ^ 400 * 10 ^ 17 < perOne * 10 ^ (n + 1) * 10 ^ 17 :=
          Nat.mul_lt_mul_of_pos_right hhigh (ten_pow_pos 17)
      _ = 10 ^ 18 * (perOne * 10 ^ n) := by ring
  have hquotient : 10 ^ 17 ≤ whole / step := (Nat.le_div_iff_mul_le hpos).mpr hlow'
  have hdigits : (Nat.repr (whole / step)).length = 18 :=
    repr_length hquotient ((Nat.div_lt_iff_lt_mul hpos).mpr hhigh')
  have hrounds : roundUnits (whole / step * step) (10 ^ (400 + 17)) = units := by
    refine roundUnits_near (ten_pow_pos _) hproper ?_ ?_
    · rw [← hwhole]
      exact Nat.div_mul_le_self whole step
    · rw [← hwhole]
      have hrest : whole < whole / step * step + step := Nat.lt_div_mul_add hpos
      omega
  refine hlead ▸ gridHit?_of_reads (n := n) (k := 400 + 17) (by omega) ?_
  have hscale : ((n : Int) - 400 - 17 + (400 + 17 : Nat)).toNat = n := by omega
  rw [← hwhole, ← hstep, ofDecimal_scaled (k := 400 + 17) (by omega) (by omega) (by omega), hscale,
    Nat.mul_assoc, ← hstep, hrounds]
  exact if_pos hbound

/-! ### Decimals of the same value -/

lemma repr_length_ten {d : Nat} (hd : d ≠ 0) :
    (Nat.repr (d * 10)).length = (Nat.repr d).length + 1 := by
  have hlow : 10 ^ Nat.log 10 d ≤ d := Nat.pow_log_le_self 10 hd
  have hhigh : d < 10 ^ (Nat.log 10 d + 1) := Nat.lt_pow_succ_log_self (by decide) d
  rw [repr_length hlow hhigh]
  refine repr_length ?_ ?_
  · rw [Nat.pow_succ]
    exact Nat.mul_le_mul_right 10 hlow
  · rw [Nat.pow_succ]
    exact Nat.mul_lt_mul_of_pos_right hhigh (by decide)

/-- A zero behind the digits of a decimal counts as one in its exponent. -/
lemma ofDecimal_ten (d : Nat) (e : Int) :
    ofDecimal negative (d * 10) e = ofDecimal negative d (e + 1) := by
  rcases Nat.eq_zero_or_pos d with rfl | hd
  · rfl
  have hlength : ((Nat.repr (d * 10)).length : Int) + e = (Nat.repr d).length + (e + 1) := by
    rw [repr_length_ten hd.ne']
    omega
  by_cases hsize : -400 ≤ (Nat.repr d).length + (e + 1) ∧ (Nat.repr d).length + (e + 1) ≤ 400
  · obtain ⟨k, hk⟩ : ∃ k : Nat, 0 ≤ e + k := ⟨e.natAbs, by omega⟩
    have hscale : (e + 1 + k).toNat = (e + k).toNat + 1 := by omega
    rw [ofDecimal_scaled (k := k) (by omega) (hlength ▸ hsize) hk,
      ofDecimal_scaled (k := k) hd.ne' hsize (by omega), hscale, Nat.pow_succ,
      Nat.mul_right_comm d 10, Nat.mul_assoc, Nat.mul_comm 10]
  · unfold ofDecimal
    rw [if_neg (by omega : d * 10 ≠ 0), if_neg hd.ne', hlength]
    dsimp only
    by_cases hlarge : 400 < (Nat.repr d).length + (e + 1)
    · rw [if_pos hlarge, if_pos hlarge]
    · rw [if_neg hlarge, if_neg hlarge, if_pos (by omega), if_pos (by omega)]

lemma ofDecimal_zeros (d k : Nat) (e : Int) :
    ofDecimal negative (d * 10 ^ k) e = ofDecimal negative d (e + k) := by
  induction k generalizing e with
  | zero => simp
  | succ k ih =>
    rw [Nat.pow_succ, ← Nat.mul_assoc, ofDecimal_ten, ih, Int.natCast_succ, Int.add_assoc,
      Int.add_comm 1]

/-- A sign in front of a decimal is that of the number. -/
lemma ofDecimal_sign {d : Nat} {e : Int} (h : ofDecimal false d e = .finite false units) :
    ofDecimal negative d e = .finite negative units := by
  have hunits (u : Nat) (h : ofUnits false u = .finite false units) :
      ofUnits negative u = .finite negative units := by
    rw [ofUnits] at h ⊢
    split at h
    · cases h
      rw [if_pos ‹_›]
    · cases h
  revert h
  simp only [ofDecimal]
  split
  · intro h
    cases h
    rfl
  · split
    · intro h
      cases h
    · split
      · intro h
        cases h
        rfl
      · split
        · exact hunits _
        · exact hunits _

lemma dropZeros_reads (negative : Bool) (fuel : Nat) (r : Nat × Int) (hr : r.1 ≠ 0) :
    (dropZeros fuel r).1 ≠ 0 ∧
      ofDecimal negative (dropZeros fuel r).1 (dropZeros fuel r).2 =
        ofDecimal negative r.1 r.2 := by
  induction fuel generalizing r with
  | zero => exact ⟨hr, rfl⟩
  | succ fuel ih =>
    obtain ⟨d, e⟩ := r
    rw [dropZeros]
    split
    · next h =>
      simp only [Bool.and_eq_true, decide_eq_true_eq] at h
      obtain ⟨hne, hreads⟩ := ih (d / 10, e + 1) (by omega)
      refine ⟨hne, hreads.trans ?_⟩
      rw [← ofDecimal_ten, Nat.div_mul_cancel (Nat.dvd_of_mod_eq_zero h.1)]
    · exact ⟨hr, rfl⟩

/-- **The shortest digits read back as the number.** -/
theorem shortest_reads (negative : Bool) (hunits : 0 < units) (hproper : roundUnits units 1 = units)
    (hbound : units < bound) : (shortest units).1 ≠ 0 ∧
      ofDecimal negative (shortest units).1 (shortest units).2 = .finite negative units := by
  have hhit : gridHit? units (searchGrids units (leadingExponent units) 18 0).2 =
      some (searchGrids units (leadingExponent units) 18 0).1 :=
    searchGrids_hit ⟨17, by decide, gridHit?_eighteen hunits hproper hbound⟩
  have hreads := gridHit?_reads hhit
  have hne : (searchGrids units (leadingExponent units) 18 0).1 ≠ 0 := by
    intro hzero
    rw [hzero] at hreads
    cases hreads
    omega
  obtain ⟨hne', hdrop⟩ := dropZeros_reads negative 20 _ hne
  exact ⟨hne', hdrop.trans (ofDecimal_sign hreads)⟩

end Double

namespace Json

variable {cs rest : List Char} {negative : Bool} {units : Nat}

/-! ### Texts with a point or an exponent -/

/-- The number that digits spell. -/
def valueOf (cs : List Char) : Nat := Number.ofDigits (cs.map (·.toNat - 48))

/-- The parts of the text of a number: the digits in front of the point and behind it, and an
exponent with its sign. -/
structure Parts where
  whole : List Char
  fraction : List Char := []
  exponent : Option (Bool × List Char) := none

namespace Parts

/-- How an exponent is written; it is negative or not. -/
def exponentText : Option (Bool × List Char) → List Char
  | none => []
  | some (down, ds) => 'e' :: (if down then '-' else '+') :: ds

def fractionText (ds : List Char) : List Char := if ds.isEmpty then [] else '.' :: ds

/-- The parts put together. -/
def text (p : Parts) : List Char :=
  p.whole ++ (fractionText p.fraction ++ exponentText p.exponent)

/-- The digits as a number. -/
def significand (p : Parts) : Nat := valueOf (p.whole ++ p.fraction)

/-- The power of ten that the digits are a number of. -/
def scale (p : Parts) : Int :=
  -(p.fraction.length : Int) +
    match p.exponent with
    | none => 0
    | some (down, ds) => if down then -(valueOf ds : Int) else valueOf ds

/-- Parts of a floating point number: there are digits in front of the point, without a needless
zero, and a fraction or an exponent. -/
structure Fit (p : Parts) : Prop where
  whole : Whole p.whole
  fraction : Digits p.fraction
  exponent : ∀ down ds, p.exponent = some (down, ds) → Digits ds ∧ ds ≠ []
  marked : p.fraction ≠ [] ∨ p.exponent ≠ none

variable {p : Parts}

lemma exponentText_head (x : Option (Bool × List Char)) (hrest : Follows rest) :
    ∀ c ∈ (exponentText x ++ rest).head?, isDigit c = false := by
  cases x with
  | none => exact hrest.head
  | some x =>
    rintro _ ⟨⟩
    decide

lemma fractionText_head (ds : List Char) (x : Option (Bool × List Char)) (hrest : Follows rest) :
    ∀ c ∈ (fractionText ds ++ (exponentText x ++ rest)).head?, isDigit c = false := by
  rw [fractionText]
  split
  · exact exponentText_head x hrest
  · rintro _ ⟨⟩
    decide

lemma Fit.takeWhole (h : p.Fit) (hrest : Follows rest) :
    Json.takeWhole (p.text ++ rest) =
      (p.whole, fractionText p.fraction ++ (exponentText p.exponent ++ rest)) := by
  rw [text, List.append_assoc, List.append_assoc]
  exact h.whole.takeWhole (fractionText_head p.fraction p.exponent hrest)

lemma Fit.takeFraction (h : p.Fit) (hrest : Follows rest) :
    Json.takeFraction (fractionText p.fraction ++ (exponentText p.exponent ++ rest)) =
      (fractionText p.fraction, exponentText p.exponent ++ rest) := by
  have hhead := exponentText_head p.exponent hrest
  rw [fractionText]
  split
  · rw [List.nil_append]
    rcases p.exponent with _ | ⟨down, ds⟩
    · exact hrest.takeFraction
    · rfl
  · next hne =>
    obtain ⟨htake, hdrop⟩ := takeWhile_digits h.fraction hhead
    rw [List.cons_append, Json.takeFraction, htake, hdrop]
    exact if_neg hne

lemma Fit.takeExponent (h : p.Fit) (hrest : Follows rest) :
    Json.takeExponent (exponentText p.exponent ++ rest) = (exponentText p.exponent, rest) := by
  rcases hx : p.exponent with _ | ⟨down, ds⟩
  · exact hrest.takeExponent
  · obtain ⟨hdigits, hne⟩ := h.exponent down ds hx
    obtain ⟨htake, hdrop⟩ := takeWhile_digits hdigits hrest.head
    have hempty : ¬ds.isEmpty = true := by simpa using hne
    have hcut (sign : Char) : (if ((ds ++ rest).takeWhile isDigit).isEmpty = true then
          ([], 'e' :: sign :: (ds ++ rest))
        else ('e' :: ([sign] ++ (ds ++ rest).takeWhile isDigit),
          (ds ++ rest).dropWhile isDigit)) = ('e' :: sign :: ds, rest) := by
      rw [htake, hdrop, if_neg hempty]
      rfl
    cases down with
    | false => exact hcut '+'
    | true => exact hcut '-'

lemma takeSign_exponent (down : Bool) (ds : List Char) :
    Number.takeSign ((if down then '-' else '+') :: ds) = (down, ds) := by
  cases down <;> rfl

/-- The text of a number is read as its significand times a power of ten. -/
lemma Fit.readDecimal? (h : p.Fit) (negative : Bool) :
    Number.readDecimal? negative p.text =
      some (.ofDecimal negative p.significand p.scale) := by
  have hdigit : (fun c : Char => decide ('0' ≤ c) && decide (c ≤ '9')) = isDigit := rfl
  have hend : Follows [] := nofun
  have hhead := fractionText_head p.fraction p.exponent hend
  have hhead' := exponentText_head p.exponent hend
  rw [List.append_nil] at hhead hhead'
  obtain ⟨htake, hdrop⟩ := takeWhile_digits h.whole.digits hhead
  obtain ⟨htake', hdrop'⟩ := takeWhile_digits h.fraction hhead'
  have hne : p.whole.isEmpty = false := by
    obtain ⟨c, cs, hcs, -⟩ := h.whole.head
    rw [hcs]
    rfl
  simp only [Number.readDecimal?, text, hdigit, htake, hdrop, hne, Bool.false_and,
    Bool.false_eq_true, if_false]
  obtain ⟨whole, fraction, exponent⟩ := p
  dsimp only at *
  rcases fraction with _ | ⟨c, cs⟩ <;> rcases exponent with _ | ⟨down, ds⟩
  · simp [significand, scale, valueOf, fractionText, exponentText]
  · obtain ⟨hds, hempty⟩ := h.exponent down ds rfl
    rw [Digits] at hds
    simpa [significand, scale, valueOf, fractionText, exponentText, takeSign_exponent, hempty]
      using hds
  · have hpoint : fractionText (c :: cs) ++ exponentText none =
        '.' :: (c :: cs ++ exponentText none) := rfl
    simp only [hpoint, htake', hdrop']
    simp [significand, scale, valueOf, exponentText]
  · obtain ⟨hds, hempty⟩ := h.exponent down ds rfl
    rw [Digits] at hds
    have hpoint : fractionText (c :: cs) ++ exponentText (some (down, ds)) =
        '.' :: (c :: cs ++ exponentText (some (down, ds))) := rfl
    simp only [hpoint, htake', hdrop']
    simpa [significand, scale, valueOf, exponentText, takeSign_exponent, hempty] using hds

/-- **A number with a point or an exponent is read** wherever it ends. -/
lemma Fit.readNumber (h : p.Fit) (hrest : Follows rest) :
    Json.readNumber ((if negative then '-' :: p.text else p.text) ++ rest) =
      .ok (.float (.ofDecimal negative p.significand p.scale), rest) := by
  obtain ⟨c, cs, hcs, hc⟩ := h.whole.head
  have hwhole := h.takeWhole hrest
  have hne : p.whole.isEmpty = false := by rw [hcs]; rfl
  have hmarked : ((fractionText p.fraction).isEmpty && (exponentText p.exponent).isEmpty) =
      false := by
    rw [Bool.and_eq_false_iff]
    refine h.marked.imp (fun hf => ?_) fun hx => ?_
    · rw [fractionText, if_neg (by simpa using hf)]
      rfl
    · obtain ⟨x, hx⟩ := Option.ne_none_iff_exists'.mp hx
      rw [hx]
      rfl
  have hread := h.readDecimal? negative
  rw [text, ← List.append_assoc] at hread
  unfold Json.readNumber
  cases negative with
  | true =>
    simp only [if_true, List.cons_append, hwhole, hne, h.takeFraction hrest, h.takeExponent hrest,
      hmarked, hread]
    rfl
  | false =>
    -- No sign is taken off the digits.
    split
    next negative body hsign =>
    obtain ⟨tail, htail⟩ : ∃ tail, p.text ++ rest = c :: tail := by
      rw [text, hcs]
      exact ⟨_, rfl⟩
    simp only [Bool.false_eq_true, if_false, htail] at hsign
    split at hsign
    · next heq => exact absurd ((List.cons.inj heq).1 ▸ hc) (by decide)
    · cases hsign
      rw [← htail]
      simp only [hwhole, hne, h.takeFraction hrest, h.takeExponent hrest, hmarked, hread]
      rfl

/-- **A number with a point or an exponent is spelled by its parts.** -/
lemma Fit.spells (h : p.Fit) (negative : Bool) : Spells (if negative then '-' :: p.text else p.text)
    (.float (.ofDecimal negative p.significand p.scale)) := by
  obtain ⟨c, ds, hds, hc⟩ := h.whole.head
  obtain ⟨tail, htail⟩ : ∃ tail, p.text = c :: tail := by
    rw [text, hds]
    exact ⟨_, rfl⟩
  refine spells_number hc ?_ fun rest hrest => h.readNumber hrest
  rw [htail]
  split
  · exact .inr ⟨tail, rfl⟩
  · exact .inl ⟨tail, rfl⟩

end Parts

/-! ### Numbers as they are laid out -/

lemma foldl_digits (ds : List Nat) (n : Nat) :
    ds.foldl (fun n d => n * 10 + d) n = n * 10 ^ ds.length + Number.ofDigits ds := by
  induction ds generalizing n with
  | nil => simp
  | cons d ds ih =>
    have hcons : Number.ofDigits (d :: ds) = ds.foldl (fun n d => n * 10 + d) (0 * 10 + d) := rfl
    rw [List.foldl_cons, ih, hcons, ih, List.length_cons]
    ring

lemma valueOf_append (cs ds : List Char) :
    valueOf (cs ++ ds) = valueOf cs * 10 ^ ds.length + valueOf ds := by
  rw [valueOf, List.map_append, Number.ofDigits, List.foldl_append, foldl_digits, List.length_map]
  rfl

lemma valueOf_zeros (n : Nat) : valueOf (List.replicate n '0') = 0 := by
  induction n with
  | zero => rfl
  | succ n ih =>
    rw [List.replicate_succ', valueOf_append, ih]
    rfl

lemma valueOf_digits (n : Nat) : valueOf (Nat.repr n).toList = n := by
  rw [Nat.toList_repr]
  exact Number.ofDigits_digits n

lemma digits_repr (n : Nat) : Digits (Nat.repr n).toList := by
  rw [Nat.toList_repr]
  exact fun c hc => Nat.isDigit_of_mem_toDigits (by decide) (by decide) hc

lemma digits_zeros (n : Nat) : Digits (List.replicate n '0') :=
  fun _ hc => List.eq_of_mem_replicate hc ▸ rfl

lemma Digits.append {cs ds : List Char} (hcs : Digits cs) (hds : Digits ds) : Digits (cs ++ ds) :=
  fun c hc => (List.mem_append.mp hc).elim (hcs c) (hds c)

/-- Digits with a point among them. -/
def Parts.pointed (whole fraction : List Char) : Parts := { whole, fraction }

lemma Parts.pointed_fit {whole fraction : List Char} (hwhole : Whole whole)
    (hfraction : Digits fraction) (hne : fraction ≠ []) : (pointed whole fraction).Fit :=
  ⟨hwhole, hfraction, nofun, .inl hne⟩

lemma Parts.text_pointed {whole fraction : List Char} (hne : fraction ≠ []) :
    (pointed whole fraction).text = whole ++ '.' :: fraction := by
  rw [text, pointed, fractionText, if_neg (by simpa using hne), exponentText, List.append_nil]

lemma Parts.significand_pointed (whole fraction : List Char) :
    (pointed whole fraction).significand = valueOf (whole ++ fraction) := rfl

lemma Parts.scale_pointed (whole fraction : List Char) :
    (pointed whole fraction).scale = -(fraction.length : Int) := Int.add_zero _

/-- A number behind zeros that fill it up. -/
lemma padded_digits (width n : Nat) :
    Digits (Text.padLeft '0' width (Nat.repr n)).toList ∧
      (Text.padLeft '0' width (Nat.repr n)).toList ≠ [] ∧
        valueOf (Text.padLeft '0' width (Nat.repr n)).toList = n := by
  have hpadded : (Text.padLeft '0' width (Nat.repr n)).toList =
      List.replicate (width - (Nat.repr n).length) '0' ++ (Nat.repr n).toList := by
    rw [Text.padLeft, String.toList_append, Text.repeated, String.toList_ofList]
  rw [hpadded]
  refine ⟨(digits_zeros _).append (digits_repr n), ?_, ?_⟩
  · rw [Nat.toList_repr]
    simp
  · rw [valueOf_append, valueOf_zeros, valueOf_digits, Nat.zero_mul, Nat.zero_add]

/-- A text is made of parts that come to some digits times a power of ten. -/
def Comes (negative : Bool) (text digits : String) (e : Int) : Prop :=
  ∃ p : Parts, p.Fit ∧ text.toList = p.text ∧
    Double.ofDecimal negative p.significand p.scale =
      Double.ofDecimal negative (valueOf digits.toList) e

section Layout

variable {digits : String} {e point : Int} (hdigits : Digits digits.toList)
  (hhead : ∃ c cs, digits.toList = c :: cs ∧ c ≠ '0')
  (hpoint : point = (digits.toList.length : Int) + e)

include hdigits hhead hpoint

/-- All digits stand behind the point, perhaps behind zeros. -/
lemma comes_behind (hlow : point ≤ 0) :
    Comes negative ("0." ++ Text.repeated '0' (-point).toNat ++ digits) digits e := by
  let zeros := List.replicate (-point).toNat '0'
  have hzero : valueOf ['0'] = 0 := rfl
  have hfraction : zeros ++ digits.toList ≠ [] := by
    obtain ⟨c, cs, hcs, -⟩ := hhead
    simp [hcs]
  refine ⟨.pointed ['0'] (zeros ++ digits.toList),
    Parts.pointed_fit (whole_digits 0) ((digits_zeros _).append hdigits) hfraction, ?_, ?_⟩
  · rw [Parts.text_pointed hfraction]
    simp [zeros, Text.repeated]
  · rw [Parts.significand_pointed, Parts.scale_pointed, valueOf_append, valueOf_append,
      valueOf_zeros, hzero, Nat.zero_mul, Nat.zero_mul, Nat.zero_add, Nat.zero_add,
      List.length_append, List.length_replicate]
    congr 1
    omega

/-- All digits stand in front of the point, perhaps with zeros behind them. -/
lemma comes_front (hhigh : (digits.toList.length : Int) ≤ point) :
    Comes negative (digits ++ Text.repeated '0' (point - digits.toList.length).toNat ++ ".0")
      digits e := by
  let zeros := List.replicate (point - digits.toList.length).toNat '0'
  have hzero : valueOf ['0'] = 0 := rfl
  have hwhole : Whole (digits.toList ++ zeros) := by
    obtain ⟨c, cs, hcs, hc⟩ := hhead
    refine ⟨hdigits.append (digits_zeros _), .inr ⟨c, cs ++ zeros, ?_, hc⟩⟩
    rw [hcs, List.cons_append]
  refine ⟨.pointed (digits.toList ++ zeros) ['0'],
    Parts.pointed_fit hwhole (whole_digits 0).digits (by simp), ?_, ?_⟩
  · rw [Parts.text_pointed (by simp)]
    simp [zeros, Text.repeated]
  · rw [Parts.significand_pointed, Parts.scale_pointed, valueOf_append, valueOf_append,
      valueOf_zeros, hzero, Nat.add_zero, Nat.add_zero, List.length_replicate, Nat.mul_assoc,
      ← Nat.pow_add, Double.ofDecimal_zeros, List.length_singleton]
    congr 1
    omega

/-- The point stands among the digits. -/
lemma comes_among (hlow : 0 < point) (hhigh : point < digits.toList.length) :
    Comes negative (String.ofList (digits.toList.take point.toNat) ++ "." ++
      String.ofList (digits.toList.drop point.toNat)) digits e := by
  have hfraction : digits.toList.drop point.toNat ≠ [] := by
    rw [ne_eq, List.drop_eq_nil_iff]
    omega
  have hwhole : Whole (digits.toList.take point.toNat) := by
    obtain ⟨c, cs, hcs, hc⟩ := hhead
    obtain ⟨k, hk⟩ : ∃ k, point.toNat = k + 1 := ⟨point.toNat - 1, by omega⟩
    refine ⟨fun c hc => hdigits c (List.mem_of_mem_take hc), .inr ⟨c, cs.take k, ?_, hc⟩⟩
    rw [hcs, hk, List.take_succ_cons]
  refine ⟨.pointed (digits.toList.take point.toNat) (digits.toList.drop point.toNat),
    Parts.pointed_fit hwhole (fun c hc => hdigits c (List.mem_of_mem_drop hc)) hfraction, ?_, ?_⟩
  · rw [Parts.text_pointed hfraction]
    simp
  · rw [Parts.significand_pointed, Parts.scale_pointed, List.take_append_drop, List.length_drop]
    congr 1
    omega

/-- One digit stands in front of the point, and an exponent behind the digits. -/
lemma comes_scaled : Comes negative (String.ofList (digits.toList.take 1) ++
    (if (digits.toList.drop 1).isEmpty then "" else "." ++ String.ofList (digits.toList.drop 1)) ++
      "e" ++ (if point - 1 < 0 then "-" else "+") ++
        Text.padLeft '0' 2 (Nat.repr (point - 1).natAbs)) digits e := by
  obtain ⟨c, cs, hcs, hc⟩ := hhead
  obtain ⟨hsize, hne, hvalue⟩ := padded_digits 2 (point - 1).natAbs
  let p : Parts := ⟨[c], cs, some (decide (point - 1 < 0),
    (Text.padLeft '0' 2 (Nat.repr (point - 1).natAbs)).toList)⟩
  have hfit : p.Fit := by
    refine ⟨⟨?_, .inr ⟨c, [], rfl, hc⟩⟩, fun d hd => ?_, ?_, .inr nofun⟩
    · exact fun d hd => hdigits d (hcs ▸ List.mem_singleton.mp hd ▸ List.mem_cons_self)
    · exact hdigits d (hcs ▸ List.mem_cons_of_mem _ hd)
    · rintro _ _ ⟨⟩
      exact ⟨hsize, hne⟩
  have hscale : p.scale = e := by
    rw [hcs, List.length_cons] at hpoint
    simp only [p, Parts.scale, hvalue, decide_eq_true_eq]
    split <;> omega
  refine ⟨p, hfit, ?_, ?_⟩
  · by_cases hnil : cs = [] <;> by_cases hsign : point - 1 < 0 <;>
      simp [p, Parts.text, Parts.fractionText, Parts.exponentText, hcs, hnil, hsign]
  · rw [hscale, hcs]
    rfl

end Layout

/-- Digits are laid out with a point or with an exponent, as the number that they are with a power
of ten. -/
lemma layout_comes {digits : String} (hdigits : Digits digits.toList)
    (hhead : ∃ c cs, digits.toList = c :: cs ∧ c ≠ '0') (e : Int) :
    Comes negative (Double.layout digits e) digits e := by
  have hlength : digits.length = digits.toList.length := String.length_toList.symm
  rw [Double.layout]
  dsimp only
  rw [hlength]
  split
  · split
    · next hlow => exact comes_behind hdigits hhead rfl hlow
    · next hlow =>
      split
      · next hhigh => exact comes_front hdigits hhead rfl hhigh
      · next hhigh => exact comes_among hdigits hhead rfl (by omega) (by omega)
  · exact comes_scaled hdigits hhead rfl

/-- The text of a number without its sign, with its digits found. -/
def magnitude (units : Nat) (digits : Nat × Int) : String :=
  if units = 0 then "0.0"
  else
    let (d, e) := digits
    Double.layout (Nat.repr d) e

/-- A magnitude is written in parts that are rounded to it. -/
lemma magnitude_parts (digits : Nat × Int) (hreads : 0 < units → digits.1 ≠ 0 ∧
      Double.ofDecimal negative digits.1 digits.2 = .finite negative units) :
    ∃ p : Parts, p.Fit ∧ (magnitude units digits).toList = p.text ∧
      Double.ofDecimal negative p.significand p.scale = .finite negative units := by
  rcases Nat.eq_zero_or_pos units with rfl | hunits
  · refine ⟨.pointed ['0'] ['0'],
      Parts.pointed_fit (whole_digits 0) (whole_digits 0).digits (by simp), ?_, ?_⟩
    · rw [magnitude, if_pos rfl, Parts.text_pointed (by simp)]
      exact String.toList_ofList
    · have hzero : (Parts.pointed ['0'] ['0']).significand = 0 := rfl
      rw [hzero, Double.ofDecimal, if_pos rfl]
  · obtain ⟨hne, hreads⟩ := hreads hunits
    have hhead : ∃ c cs, (Nat.repr digits.1).toList = c :: cs ∧ c ≠ '0' := by
      rw [Nat.toList_repr]
      exact Number.toDigits_head (Nat.pos_of_ne_zero hne)
    obtain ⟨p, hfit, htext, hvalue⟩ : Comes negative (Double.layout (Nat.repr digits.1) digits.2)
        (Nat.repr digits.1) digits.2 := layout_comes (digits_repr digits.1) hhead digits.2
    rw [valueOf_digits, hreads] at hvalue
    rw [magnitude, if_neg hunits.ne']
    exact ⟨p, hfit, htext, hvalue⟩

-- The search for the digits must not be computed: they are set apart here.
lemma render_eq (negative : Bool) (units : Nat) : (Double.finite negative units).render =
    if negative then "-" ++ magnitude units (Double.shortest units)
    else magnitude units (Double.shortest units) := rfl

/-- A finite number is written in parts that are rounded to it. -/
lemma render_parts (hproper : (Double.finite negative units).Proper) :
    ∃ p : Parts, p.Fit ∧
      (Double.finite negative units).render.toList =
        (if negative then '-' :: p.text else p.text) ∧
      Double.ofDecimal negative p.significand p.scale = .finite negative units := by
  obtain ⟨p, hfit, htext, hvalue⟩ := magnitude_parts (Double.shortest units)
    fun h => Double.shortest_reads negative h hproper.1 hproper.2
  refine ⟨p, hfit, ?_, hvalue⟩
  rw [render_eq, ← htext]
  cases negative
  · rw [if_neg nofun, if_neg nofun]
  · rw [if_pos rfl, if_pos rfl, String.toList_append]
    rfl

/-- **A number is spelled as it is written**, with the fewest digits that are rounded to it. -/
theorem spells_double {d : Double} (h : d.Proper) : Spells (ofDouble d).toList (.float d) := by
  cases d with
  | finite negative units =>
    obtain ⟨p, hfit, htext, hvalue⟩ := render_parts h
    have hspells := hfit.spells negative
    rwa [hvalue, ← htext] at hspells
  | infinite negative =>
    cases negative
    · have hname : "Infinity".toList = 'I' :: ['n', 'f', 'i', 'n', 'i', 't', 'y'] := by simp
      refine spells_constant hname (by decide) (by decide) fun _ => ?_
      simp [constants, Text.startsWith, ofDouble]
    · have hname : "-Infinity".toList = '-' :: ['I', 'n', 'f', 'i', 'n', 'i', 't', 'y'] := by simp
      refine spells_constant hname (by decide) (by decide) fun _ => ?_
      simp [constants, Text.startsWith, ofDouble]
  | nan =>
    have hname : "NaN".toList = 'N' :: ['a', 'N'] := by simp
    refine spells_constant hname (by decide) (by decide) fun _ => ?_
    simp [constants, Text.startsWith, ofDouble]

end Json

end BlockSuite
