import BlockSuite.Proofs.Decimal
import Mathlib

/-!
Sums of floating point numbers. Rounding keeps the order of exact counts of units, and what has been
rounded is left as it is. So with a line on which every number has its place, infinities at the
ends, to add a step keeps the order of places, and a positive step leads to no smaller place; it can
lead to the same place, and then the sum is the number itself.
-/

namespace BlockSuite

namespace Double

variable {a b g k m n num den : Nat}

lemma roundDiv_exact (hg : 0 < g) : roundDiv (k * g) g = k := by
  simp [roundDiv, Nat.mul_div_cancel _ hg, hg]

/-- A larger quotient is never rounded to a smaller number. -/
lemma roundDiv_mono (h : a ≤ b) : roundDiv a g ≤ roundDiv b g := by
  have hquotient : a / g ≤ b / g := Nat.div_le_div_right h
  have hlow := Nat.div_add_mod a g
  have hhigh := Nat.div_add_mod b g
  rcases Nat.eq_or_lt_of_le hquotient with heq | hlt
  · rw [heq] at hlow
    simp only [roundDiv, heq]
    split_ifs <;> omega
  · simp only [roundDiv]
    split_ifs <;> omega

/-- What counts of units of some size are rounded to multiples of. -/
def grain (n : Nat) : Nat := 2 ^ (Nat.log2 n + 1 - 53)

lemma grain_pos (n : Nat) : 0 < grain n := Nat.two_pow_pos _

lemma grain_dvd_pow (h : Nat.log2 n ≤ k) : grain n ∣ 2 ^ k := Nat.pow_dvd_pow 2 (by omega)

lemma roundUnits_eq (num den : Nat) : roundUnits num den =
    roundDiv num (den * grain (num / den)) * grain (num / den) := rfl

lemma roundUnits_one (n : Nat) : roundUnits n 1 = roundDiv n (grain n) * grain n := by
  rw [roundUnits_eq, Nat.div_one, Nat.one_mul]

lemma roundUnits_le (h : n ≤ m) (hm : grain n ∣ m) : roundUnits n 1 ≤ m := by
  obtain ⟨k, rfl⟩ := hm
  rw [roundUnits_one, Nat.mul_comm (grain n)]
  have hround := roundDiv_mono (g := grain n) h
  rw [Nat.mul_comm, roundDiv_exact (grain_pos n)] at hround
  exact Nat.mul_le_mul_right _ hround

lemma le_roundUnits (h : m ≤ n) (hm : grain n ∣ m) : m ≤ roundUnits n 1 := by
  obtain ⟨k, rfl⟩ := hm
  rw [roundUnits_one, Nat.mul_comm (grain n)]
  have hround := roundDiv_mono (g := grain n) h
  rw [Nat.mul_comm, roundDiv_exact (grain_pos n)] at hround
  exact Nat.mul_le_mul_right _ hround

/-- The counts that rounding leaves as they are. -/
lemma roundUnits_eq_self_iff : roundUnits n 1 = n ↔ grain n ∣ n := by
  refine ⟨fun h => ?_, fun h => ?_⟩
  · rw [roundUnits_one, Nat.mul_comm] at h
    exact ⟨_, h.symm⟩
  · exact Nat.le_antisymm (roundUnits_le (Nat.le_refl n) h) (le_roundUnits (Nat.le_refl n) h)

/-- **Rounding keeps the order.** -/
theorem roundUnits_mono (h : a ≤ b) : roundUnits a 1 ≤ roundUnits b 1 := by
  have hlog : Nat.log2 a ≤ Nat.log2 b := by
    rw [Nat.log2_eq_log_two, Nat.log2_eq_log_two]
    exact Nat.log_mono_right h
  rcases Nat.eq_or_lt_of_le hlog with heq | hlt
  · rw [roundUnits_one, roundUnits_one, grain, grain, heq]
    exact Nat.mul_le_mul_right _ (roundDiv_mono h)
  · -- A power of two lies between the two, and it is left as it is on either side.
    have hb : b ≠ 0 := by rintro rfl; simp at hlt
    have hlow : a ≤ 2 ^ Nat.log2 b :=
      (Nat.lt_log2_self.trans_le (Nat.pow_le_pow_right (by decide) hlt)).le
    calc roundUnits a 1 ≤ 2 ^ Nat.log2 b := roundUnits_le hlow (grain_dvd_pow hlog)
      _ ≤ roundUnits b 1 := le_roundUnits (Nat.log2_self_le hb) (grain_dvd_pow (Nat.le_refl _))

/-- **What is rounded is left as it is.** -/
theorem roundUnits_idem (hden : 0 < den) :
    roundUnits (roundUnits num den) 1 = roundUnits num den := by
  obtain ⟨s, hs⟩ : ∃ s, s = Nat.log2 (num / den) + 1 - 53 := ⟨_, rfl⟩
  obtain ⟨u, hu⟩ : ∃ u, u = roundUnits num den := ⟨_, rfl⟩
  have hpos : 0 < den * 2 ^ s := Nat.mul_pos hden (Nat.two_pow_pos s)
  have hdvd : 2 ^ s ∣ u := by
    rw [hu, roundUnits_eq, grain, ← hs]
    exact Nat.dvd_mul_left _ _
  have hbound : u ≤ 2 ^ (53 + s) := by
    have hsize : num / den < 2 ^ (53 + s) :=
      Nat.lt_log2_self.trans_le (Nat.pow_le_pow_right (by decide) (by omega))
    have hnum : num ≤ 2 ^ 53 * (den * 2 ^ s) := by
      rw [Nat.mul_left_comm, ← Nat.pow_add, Nat.mul_comm]
      exact ((Nat.div_lt_iff_lt_mul hden).mp hsize).le
    have hround := roundDiv_mono (g := den * 2 ^ s) hnum
    rw [roundDiv_exact hpos] at hround
    rw [hu, roundUnits_eq, grain, ← hs, Nat.pow_add]
    exact Nat.mul_le_mul_right _ hround
  rw [← hu, roundUnits_eq_self_iff]
  rcases Nat.eq_or_lt_of_le hbound with heq | hlt
  · rw [heq, grain, Nat.log2_two_pow]
    exact Nat.pow_dvd_pow 2 (by omega)
  · have hlog : Nat.log2 u ≤ 52 + s := by
      by_cases hzero : u = 0
      · simp [hzero]
      · have := (Nat.log2_lt hzero).mpr hlt
        omega
    exact (Nat.pow_dvd_pow 2 (by omega)).trans hdvd

/-! ### Places on the line of numbers -/

/-- Counts of units, with an end on both sides. -/
abbrev Point := WithBot (WithTop ℤ)

/-- The place of a count of units. -/
def Point.ofUnits (i : ℤ) : Point := ((i : WithTop ℤ) : Point)

lemma Point.ofUnits_le {i j : ℤ} : Point.ofUnits i ≤ Point.ofUnits j ↔ i ≤ j := by
  rw [Point.ofUnits, Point.ofUnits, WithBot.coe_le_coe, WithTop.coe_le_coe]

lemma Point.ofUnits_lt {i j : ℤ} : Point.ofUnits i < Point.ofUnits j ↔ i < j := by
  rw [Point.ofUnits, Point.ofUnits, WithBot.coe_lt_coe, WithTop.coe_lt_coe]

lemma Point.ofUnits_inj {i j : ℤ} : Point.ofUnits i = Point.ofUnits j ↔ i = j := by
  rw [Point.ofUnits, Point.ofUnits, WithBot.coe_inj, WithTop.coe_inj]

@[simp] lemma Point.ofUnits_ne_bot (i : ℤ) : Point.ofUnits i ≠ ⊥ := WithBot.coe_ne_bot

@[simp] lemma Point.ofUnits_ne_top (i : ℤ) : Point.ofUnits i ≠ ⊤ := fun h =>
  WithTop.coe_ne_top (WithBot.coe_injective h)

/-- The count of units that a sign and a size make. -/
def signed (negative : Bool) (units : Nat) : ℤ := if negative then -(units : ℤ) else units

/-- Where a number stands, unless it is none. -/
def point? : Double → Option Point
  | nan => none
  | infinite negative => some (if negative then ⊥ else ⊤)
  | finite negative units => some (.ofUnits (signed negative units))

/-- A number stands at an end of the line, or at the count of its units. -/
lemma point?_cases {d : Double} {x : Point} (h : d.point? = some x) :
    d = infinite true ∧ x = ⊥ ∨ d = infinite false ∧ x = ⊤ ∨
      ∃ s u, d = finite s u ∧ x = .ofUnits (signed s u) := by
  rcases d with _ | s | ⟨s, u⟩
  · cases h
  · cases s <;> cases h
    · exact .inr (.inl ⟨rfl, rfl⟩)
    · exact .inl ⟨rfl, rfl⟩
  · cases h
    exact .inr (.inr ⟨s, u, rfl, rfl⟩)

lemma point?_bot {d : Double} : d.point? = some ⊥ ↔ d = infinite true := by
  refine ⟨fun h => ?_, fun h => h ▸ rfl⟩
  obtain ⟨hd, -⟩ | ⟨-, hx⟩ | ⟨s, u, -, hx⟩ := point?_cases h
  · exact hd
  · cases hx
  · exact absurd hx.symm (Point.ofUnits_ne_bot _)

lemma point?_top {d : Double} : d.point? = some ⊤ ↔ d = infinite false := by
  refine ⟨fun h => ?_, fun h => h ▸ rfl⟩
  obtain ⟨-, hx⟩ | ⟨hd, -⟩ | ⟨s, u, -, hx⟩ := point?_cases h
  · cases hx
  · exact hd
  · exact absurd hx.symm (Point.ofUnits_ne_top _)

lemma point?_units {d : Double} {i : ℤ} :
    d.point? = some (.ofUnits i) ↔ ∃ s u, d = finite s u ∧ signed s u = i := by
  constructor
  · intro h
    obtain ⟨-, hx⟩ | ⟨-, hx⟩ | ⟨s, u, hd, hx⟩ := point?_cases h
    · exact absurd hx (Point.ofUnits_ne_bot _)
    · exact absurd hx (Point.ofUnits_ne_top _)
    · exact ⟨s, u, hd, Point.ofUnits_inj.mp hx.symm⟩
  · rintro ⟨s, u, rfl, rfl⟩
    rfl

/-- Where the number nearest to a count of units stands. -/
def rounded (i : ℤ) : Point :=
  if roundUnits i.natAbs 1 < bound then .ofUnits (signed (i < 0) (roundUnits i.natAbs 1))
  else if i < 0 then ⊥ else ⊤

lemma point?_ofUnits (i : ℤ) :
    (ofUnits (i < 0) (roundUnits i.natAbs 1)).point? = some (rounded i) := by
  unfold Double.ofUnits rounded
  split
  · rfl
  · simp [point?]

lemma rounded_zero : rounded 0 = .ofUnits 0 := by decide +kernel

lemma rounded_one : rounded 1 = .ofUnits 1 := by decide +kernel

lemma point?_ofSigned (i : ℤ) (negativeZero : Bool) :
    (ofSigned i negativeZero).point? = some (rounded i) := by
  unfold ofSigned
  split
  · next h =>
    rw [h, rounded_zero]
    cases negativeZero <;> rfl
  · exact point?_ofUnits i

/-- The number nearest to a whole number has the place of its units, rounded. -/
lemma point?_ofInt (i : ℤ) : (ofInt i).point? = some (rounded (i * perOne)) := by
  have hone : (0 : ℤ) < perOne := by exact_mod_cast perOne_pos
  have hsign : i * perOne < 0 ↔ i < 0 := by
    rw [Int.mul_neg_iff]
    omega
  rw [ofInt, ofQuotient, ← point?_ofUnits, Int.natAbs_mul, Int.natAbs_natCast,
    decide_eq_decide.mpr hsign]

lemma rounded_nonneg {i : ℤ} (h : 0 ≤ i) : .ofUnits 0 ≤ rounded i := by
  unfold rounded
  have hi : ¬i < 0 := by omega
  split
  · simp [signed, hi, Point.ofUnits_le]
  · simp

lemma rounded_nonpos {i : ℤ} (h : i ≤ 0) : rounded i ≤ .ofUnits 0 := by
  rcases Int.lt_or_eq_of_le h with hlt | rfl
  · unfold rounded
    split
    · simp [signed, hlt, Point.ofUnits_le]
    · simp
  · rw [rounded_zero]

/-- **Rounding keeps the order of places.** -/
theorem rounded_mono {i j : ℤ} (h : i ≤ j) : rounded i ≤ rounded j := by
  by_cases hi : i < 0
  · by_cases hj : j < 0
    · have hround := roundUnits_mono (a := j.natAbs) (b := i.natAbs) (by omega)
      unfold rounded
      generalize bound = limit
      simp only [hi, hj, signed, decide_true, if_true]
      split
      · split
        · rw [Point.ofUnits_le]
          omega
        · omega
      · exact bot_le
    · exact (rounded_nonpos hi.le).trans (rounded_nonneg (by omega))
  · have hround := roundUnits_mono (a := i.natAbs) (b := j.natAbs) (by omega)
    have hj : ¬j < 0 := by omega
    unfold rounded
    generalize bound = limit
    simp only [hi, hj, signed, decide_false, Bool.false_eq_true, if_false]
    split
    · split
      · rw [Point.ofUnits_le]
        omega
      · exact le_top
    · split
      · omega
      · exact le_rfl

/-- A proper number is rounded to itself. -/
lemma rounded_of_proper {negative : Bool} {units : Nat} (h : (finite negative units).Proper) :
    rounded (signed negative units) = .ofUnits (signed negative units) := by
  obtain ⟨hround, hbound⟩ := h
  have habs : (signed negative units).natAbs = units := by
    unfold signed
    split <;> omega
  unfold rounded
  rw [habs, hround, if_pos hbound]
  rcases Nat.eq_zero_or_pos units with rfl | hpos
  · cases negative <;> rfl
  · have hneg : decide (signed negative units < 0) = negative := by
      cases negative <;> simp [signed]
      omega
    rw [hneg]

/-! ### Sums -/

section Sums

variable {d e v : Double} {x y z : Point}

lemma point?_sum (s t : Bool) (u v : Nat) : ((finite s u).add (finite t v)).point? =
    some (rounded (signed s u + signed t v)) := point?_ofSigned _ _

/-- Above zero. -/
def Positive (d : Double) : Prop := ∃ x, d.point? = some x ∧ .ofUnits 0 < x

lemma Positive.cases (h : e.Positive) :
    e = infinite false ∨ ∃ s u, e = finite s u ∧ 0 < signed s u := by
  obtain ⟨x, hx, hpos⟩ := h
  obtain ⟨-, rfl⟩ | ⟨he, -⟩ | ⟨s, u, he, rfl⟩ := point?_cases hx
  · exact absurd hpos not_lt_bot
  · exact .inl he
  · exact .inr ⟨s, u, he, Point.ofUnits_lt.mp hpos⟩

lemma bound_pos : 0 < bound := by decide +kernel

lemma roundUnits_bound : roundUnits bound 1 = bound := by decide +kernel

-- The number is a variable of its own here: for one that is written out, the bound of its units
-- would be computed wherever its properness is mentioned.
/-- What is rounded is proper. -/
lemma proper_of_ofUnits {negative : Bool} (h : roundUnits n 1 = n)
    (hd : ofUnits negative n = d) : d.Proper := by
  rw [ofUnits] at hd
  split at hd
  · next hlt =>
    rw [← hd]
    exact ⟨h, hlt⟩
  · rw [← hd]
    exact True.intro

lemma proper_of_ofSigned {i : ℤ} {negativeZero : Bool} (hd : ofSigned i negativeZero = d) :
    d.Proper := by
  rw [ofSigned] at hd
  split at hd
  · rw [← hd]
    exact ⟨by decide +kernel, bound_pos⟩
  · exact proper_of_ofUnits (roundUnits_idem Nat.one_pos) hd

/-- A sum is proper. -/
lemma proper_of_add {a b : Double} (hd : a.add b = d) : d.Proper := by
  rcases a with _ | s | ⟨s, u⟩ <;> rcases b with _ | t | ⟨t, v⟩
  case finite.finite => exact proper_of_ofSigned hd
  case infinite.infinite =>
    rw [← hd]
    change (if s = t then infinite s else nan).Proper
    split <;> exact True.intro
  all_goals
    rw [← hd]
    exact True.intro

/-- An infinite step leads to the upper end. -/
lemma eq_top_of_add (h : (d.add (infinite false)).point? = some x) : x = ⊤ := by
  rcases d with _ | s | ⟨s, u⟩
  · cases h
  · cases s <;> cases h
    rfl
  · cases h
    rfl

/-- **To add a step keeps the order.** -/
theorem add_mono (he : e.Positive) (hd : d.point? = some x) (hv : v.point? = some y) (h : x ≤ y)
    {x' y' : Point} (hx' : (d.add e).point? = some x') (hy' : (v.add e).point? = some y') :
    x' ≤ y' := by
  obtain rfl | ⟨t, w, rfl, -⟩ := he.cases
  · rw [eq_top_of_add hx', eq_top_of_add hy']
  obtain ⟨rfl, rfl⟩ | ⟨rfl, rfl⟩ | ⟨s, u, rfl, rfl⟩ := point?_cases hd
  · cases hx'
    exact bot_le
  · obtain rfl := point?_top.mp (top_le_iff.mp h ▸ hv)
    cases hx'
    cases hy'
    exact le_rfl
  · obtain ⟨rfl, rfl⟩ | ⟨rfl, rfl⟩ | ⟨s', u', rfl, rfl⟩ := point?_cases hv
    · exact absurd (le_bot_iff.mp h) (Point.ofUnits_ne_bot _)
    · cases hy'
      exact le_top
    · rw [point?_sum] at hx' hy'
      obtain rfl := Option.some.inj hx'
      obtain rfl := Option.some.inj hy'
      exact rounded_mono (Int.add_le_add_right (Point.ofUnits_le.mp h) _)

/-- **A step leads to no smaller number.** -/
theorem le_add (he : e.Positive) (proper : d.Proper) (hd : d.point? = some x)
    (hy : (d.add e).point? = some y) : x ≤ y := by
  obtain rfl | ⟨t, w, rfl, hpos⟩ := he.cases
  · rw [eq_top_of_add hy]
    exact le_top
  obtain ⟨rfl, rfl⟩ | ⟨rfl, rfl⟩ | ⟨s, u, rfl, rfl⟩ := point?_cases hd
  · exact bot_le
  · cases hy
    exact le_rfl
  · rw [point?_sum] at hy
    obtain rfl := Option.some.inj hy
    rw [← rounded_of_proper proper]
    exact rounded_mono (by omega)

/-- Two steps lead to a number if one does. -/
lemma add_add_point? (he : e.Positive) (hx : (d.add e).point? = some x) :
    ∃ y, ((d.add e).add e).point? = some y := by
  obtain rfl | ⟨t, w, rfl, -⟩ := he.cases
  · obtain rfl := eq_top_of_add hx
    rw [point?_top.mp hx]
    exact ⟨_, rfl⟩
  · generalize d.add (finite t w) = f at hx
    obtain ⟨rfl, -⟩ | ⟨rfl, -⟩ | ⟨s, u, rfl, -⟩ := point?_cases hx
    · exact ⟨_, rfl⟩
    · exact ⟨_, rfl⟩
    · exact ⟨_, point?_sum _ _ _ _⟩

/-- The place tells the number, but for the sign of zero. -/
lemma eq_of_point? (hd : d.point? = some x) (hv : v.point? = some x) (hx : x ≠ .ofUnits 0) :
    d = v := by
  obtain ⟨rfl, rfl⟩ | ⟨rfl, rfl⟩ | ⟨s, u, rfl, rfl⟩ := point?_cases hd
  · exact (point?_bot.mp hv).symm
  · exact (point?_top.mp hv).symm
  · obtain ⟨t, w, rfl, hsame⟩ := point?_units.mp hv
    have hne : signed s u ≠ 0 := fun h => hx (congrArg Point.ofUnits h)
    unfold signed at hsame hne
    cases s <;> cases t <;> simp at hsame hne ⊢ <;> omega

/-- What stays in its place by a step is the same number afterwards. -/
lemma add_eq_self (he : e.Positive) (hv : v.point? = some x) (h : (v.add e).point? = some x) :
    v.add e = v := by
  refine eq_of_point? h hv ?_
  rintro rfl
  obtain ⟨s, u, rfl, hzero⟩ := point?_units.mp hv
  obtain rfl | ⟨t, w, rfl, hpos⟩ := he.cases
  · exact Point.ofUnits_ne_top _ (eq_top_of_add h)
  · rw [point?_sum, hzero, Int.zero_add] at h
    have hone : Point.ofUnits 1 ≤ rounded (signed t w) := rounded_one ▸ rounded_mono hpos
    rw [Option.some.inj h, Point.ofUnits_le] at hone
    omega

end Sums

end Double

end BlockSuite
