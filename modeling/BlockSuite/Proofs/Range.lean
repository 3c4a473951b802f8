import BlockSuite.Library.Rows
import BlockSuite.Proofs.Rendering
import BlockSuite.Proofs.Rounding

/-!
Ranges of numbers. The rows are those of a loop that goes from a number to the next one by adding
the step, as long as the end is not passed. The loop ends unless the numbers come to one that the
step does not change any more. Ranges of whole numbers end, and their rows hold an arithmetic
progression.
-/

namespace BlockSuite

open Double (Point)

lemma Double.orOverflow_eq {message : String} {x y : Double} (h : x.orOverflow message = .ok y) :
    x = y := by
  cases x with
  | infinite _ => cases h
  | nan | finite => exact Except.ok.inj h

namespace Numeric

variable {a b c : Numeric}

/-- Where a number stands, unless it is none. -/
def point? : Numeric → Option Point
  | whole i => some (.ofUnits (i * Double.perOne))
  | real d => d.point?

/-- An order that is not "greater". -/
def isAtMost : Option Ordering → Bool
  | some .lt | some .eq => true
  | _ => false

lemma isAtMost_compare (i j : ℤ) : isAtMost (some (compare i j)) = decide (i ≤ j) := by
  rcases Int.lt_trichotomy i j with h | rfl | h
  · rw [compare_lt_iff_lt.mpr h]
    simp [isAtMost, h.le]
  · rw [compare_eq_iff_eq.mpr rfl]
    simp [isAtMost]
  · rw [compare_gt_iff_gt.mpr h]
    simp [isAtMost, h]

lemma isAtMost_compare_swap (i j : ℤ) : isAtMost (some (compare i j).swap) = decide (j ≤ i) := by
  have hswap : compare j i = (compare i j).swap := Std.OrientedCmp.eq_swap
  rw [← isAtMost_compare, hswap]

/-- One number is at most another one if it does not stand above it. -/
theorem atMost_iff : Library.atMost a b = true ↔
    ∃ x y, a.point? = some x ∧ b.point? = some y ∧ x ≤ y := by
  have hone : (0 : ℤ) < Double.perOne := by exact_mod_cast Double.perOne_pos
  have h : Library.atMost a b = isAtMost (a.compare? b) := rfl
  rw [h]
  rcases a with i | ⟨⟩ | s | ⟨s, u⟩ <;> rcases b with j | ⟨⟩ | t | ⟨t, v⟩ <;>
    simp only [compare?, Double.compare?, Double.compareInt?, point?, Double.point?,
      Option.map_some, Option.map_none, isAtMost_compare, isAtMost_compare_swap,
      Option.some.injEq, decide_eq_true_eq, exists_eq_left', exists_and_left, reduceCtorEq,
      false_and, and_false, exists_false, Point.ofUnits_le]
  case whole.whole => rw [Int.mul_le_mul_right hone]
  case whole.real.infinite =>
    generalize i * (Double.perOne : ℤ) = n
    cases t <;> simp [isAtMost]
  case real.infinite.whole =>
    generalize j * (Double.perOne : ℤ) = n
    cases s <;> simp [isAtMost]
  case real.infinite.real.finite => cases s <;> simp [isAtMost]
  case real.finite.real.infinite => cases t <;> simp [isAtMost]
  case real.infinite.real.infinite => cases s <;> cases t <;> simp [isAtMost]
  case whole.real.finite | real.finite.whole | real.finite.real.finite => rfl
  all_goals simp [isAtMost]

lemma atMost_trans (hab : Library.atMost a b = true) (hbc : Library.atMost b c = true) :
    Library.atMost a c = true := by
  obtain ⟨x, y, hx, hy, hxy⟩ := atMost_iff.mp hab
  obtain ⟨y', z, hy', hz, hyz⟩ := atMost_iff.mp hbc
  obtain rfl : y = y' := Option.some.inj (hy.symm.trans hy')
  exact atMost_iff.mpr ⟨x, z, hx, hz, hxy.trans hyz⟩

/-- Above zero. -/
def Positive (n : Numeric) : Prop := n.compare? (.whole 0) = some .gt

lemma positive_whole {k : ℤ} : (whole k).Positive ↔ 0 < k := by
  rw [Positive, compare?, Option.some.injEq, compare_gt_iff_gt]

lemma toDouble_whole (i : ℤ) :
    (whole i).toDouble = (Double.ofInt i).orOverflow "int too large to convert to float" := rfl

lemma toDouble_cases {x : Double} (h : a.toDouble = .ok x) :
    a = real x ∨ ∃ i, a = whole i ∧ Double.ofInt i = x := by
  cases a with
  | whole i =>
    rw [toDouble_whole] at h
    exact .inr ⟨i, rfl, Double.orOverflow_eq h⟩
  | real d => exact .inl (congrArg real (Except.ok.inj h))

lemma Positive.toDouble {e : Double} (h : a.Positive) (he : a.toDouble = .ok e) : e.Positive := by
  rcases toDouble_cases he with rfl | ⟨k, rfl, hk⟩
  · rcases e with _ | s | ⟨s, u⟩
    · cases h
    · cases s
      · exact ⟨⊤, rfl, lt_top_iff_ne_top.mpr (Point.ofUnits_ne_top 0)⟩
      · cases h
    · have hpos := compare_gt_iff_gt.mp (Option.some.inj h)
      rw [Int.zero_mul] at hpos
      exact ⟨_, rfl, Point.ofUnits_lt.mpr hpos⟩
  · have hone : (0 : ℤ) < Double.perOne := by exact_mod_cast Double.perOne_pos
    have hunits : 1 ≤ k * Double.perOne := Int.mul_pos (positive_whole.mp h) hone
    refine ⟨_, hk ▸ Double.point?_ofInt k, ?_⟩
    calc Point.ofUnits 0 < .ofUnits 1 := Point.ofUnits_lt.mpr (by decide)
      _ = Double.rounded 1 := Double.rounded_one.symm
      _ ≤ _ := Double.rounded_mono hunits

/-- A sum is one of whole numbers or one of floating point numbers. -/
lemma add_cases (h : a.add b = .ok c) :
    (∃ i j, a = whole i ∧ b = whole j ∧ c = whole (i + j)) ∨
      ∃ x y, a.toDouble = .ok x ∧ b.toDouble = .ok y ∧ c = real (x.add y) := by
  have hreal (h : (do return real (Double.add (← a.toDouble) (← b.toDouble))) = Except.ok c) :
      ∃ x y, a.toDouble = .ok x ∧ b.toDouble = .ok y ∧ c = real (x.add y) := by
    obtain ⟨x, hx, h⟩ := except_bind_ok h
    obtain ⟨y, hy, h⟩ := except_bind_ok h
    exact ⟨x, y, hx, hy, (Except.ok.inj h).symm⟩
  rcases a with i | d
  · rcases b with j | e
    · exact .inl ⟨i, j, rfl, rfl, (Except.ok.inj h).symm⟩
    · exact .inr (hreal h)
  · exact .inr (hreal h)

section Steps

variable {step : Numeric} {v w : Double}

lemma atMost_real {x y : Point} (hx : v.point? = some x) (hy : w.point? = some y) (h : x ≤ y) :
    Library.atMost (real v) (real w) = true := atMost_iff.mpr ⟨x, y, hx, hy, h⟩

lemma add_eq_real (h : a.add step = .ok (real v)) :
    ∃ x e, a.toDouble = .ok x ∧ step.toDouble = .ok e ∧ v = x.add e := by
  rcases add_cases h with ⟨i, j, -, -, hv⟩ | ⟨x, e, hx, he, hv⟩
  · cases hv
  · exact ⟨x, e, hx, he, real.inj hv⟩

lemma add_real {e : Double} (he : step.toDouble = .ok e) :
    (real v).add step = .ok (real (v.add e)) := by
  cases step with
  | real d =>
    cases he
    rfl
  | whole k =>
    change (do return real (Double.add (← toDouble (real v)) (← toDouble (whole k)))) = _
    rw [he]
    rfl

/-- A sum that is at most what a step was added to stays where it is by the next step. -/
lemma add_stuck (hstep : step.Positive) (hv : a.add step = .ok (real v))
    (hle : Library.atMost (real v) a = true) : (real v).add step = .ok (real v) := by
  obtain ⟨x, e, hx, he, hsum⟩ := add_eq_real hv
  have hpos := hstep.toDouble he
  have hproper : v.Proper := Double.proper_of_add hsum.symm
  obtain ⟨p, q, hp, hq, hpq⟩ := atMost_iff.mp hle
  -- What the step is added to is the number itself, or the one that is nearest to it.
  obtain ⟨r, hr, hpr⟩ : ∃ r, x.point? = some r ∧ p ≤ r := by
    rcases toDouble_cases hx with rfl | ⟨i, rfl, hi⟩
    · exact ⟨q, hq, hpq⟩
    · refine ⟨_, hi ▸ Double.point?_ofInt i, ?_⟩
      obtain rfl := Option.some.inj hq
      obtain ⟨-, rfl⟩ | ⟨-, rfl⟩ | ⟨s, u, rfl, rfl⟩ := Double.point?_cases hp
      · exact bot_le
      · exact absurd (top_le_iff.mp hpq) (Point.ofUnits_ne_top _)
      · rw [← Double.rounded_of_proper hproper]
        exact Double.rounded_mono (Point.ofUnits_le.mp hpq)
  rw [hsum] at hp
  obtain ⟨z, hz⟩ := Double.add_add_point? hpos hp
  rw [← hsum] at hz hp
  have hup : p ≤ z := Double.le_add hpos hproper hp hz
  have hdown : z ≤ p := Double.add_mono hpos hp hr hpr hz (hsum ▸ hp)
  obtain rfl : p = z := le_antisymm hup hdown
  rw [add_real he, Double.add_eq_self hpos hp hz]

/-- A sum is at most the next one. -/
lemma atMost_add (hstep : step.Positive) (hv : a.add step = .ok (real v))
    (hnumber : v.point? ≠ none) (hw : (real v).add step = .ok (real w)) :
    Library.atMost (real v) (real w) = true := by
  obtain ⟨x, e, -, he, hsum⟩ := add_eq_real hv
  have hpos := hstep.toDouble he
  rw [add_real he] at hw
  obtain rfl := real.inj (Except.ok.inj hw)
  obtain ⟨p, hp⟩ := Option.ne_none_iff_exists'.mp hnumber
  obtain ⟨q, hq⟩ := Double.add_add_point? hpos (hsum ▸ hp)
  rw [← hsum] at hq
  exact atMost_real hp hq (Double.le_add hpos (Double.proper_of_add hsum.symm) hp hq)

/-- No step leads beyond a number that the step does not change. -/
lemma add_atMost (hstep : step.Positive) (hv : a.add step = .ok (real v))
    (hle : Library.atMost (real v) (real w) = true) (hw : (real w).add step = .ok (real w)) :
    ∃ next, (real v).add step = .ok (real next) ∧
      Library.atMost (real next) (real w) = true := by
  obtain ⟨x, e, -, he, hsum⟩ := add_eq_real hv
  have hpos := hstep.toDouble he
  rw [add_real he] at hw
  have hfixed := real.inj (Except.ok.inj hw)
  obtain ⟨p, q, hp, hq, hpq⟩ := atMost_iff.mp hle
  change v.point? = some p at hp
  obtain ⟨z, hz⟩ := Double.add_add_point? hpos (hsum ▸ hp)
  rw [← hsum] at hz
  exact ⟨_, add_real he, atMost_real hz hq (Double.add_mono hpos hp hq hpq hz (hfixed.symm ▸ hq))⟩

end Steps

end Numeric

namespace Library

variable {name : String} {first last step next n : Numeric} {v : Double}

/-! ### The loop -/

/-- The loop of a range, turn by turn: a number up to the end makes a row, and what follows are the
rows from the sum of the number and the step on. It is counted how many sums are made. -/
inductive Loops (name : String) (last step : Numeric) : Nat → Numeric → RangeEnd → Prop
  | past {n : Numeric} (beyond : atMost n last = false) : Loops name last step 0 n (.rows [])
  | unshown {n : Numeric} {f : Fault} (within : atMost n last = true)
    (unshown : rangeRow name n = .error f) : Loops name last step 0 n (.fault f)
  | overflow {n : Numeric} {f : Fault} {row : Value} (within : atMost n last = true)
    (shown : rangeRow name n = .ok row) (overflow : n.add step = .error f) :
    Loops name last step 0 n (.fault f)
  | turn {k : Nat} {n next : Numeric} {row : Value} {e : RangeEnd} (within : atMost n last = true)
    (shown : rangeRow name n = .ok row) (sum : n.add step = .ok next)
    (rest : Loops name last step k next e) : Loops name last step (k + 1) n (e.after row)

/-- A range that stays where it is: from the second number on there is one up to the end that the
step does not change. -/
def Stalls (first last step : Numeric) : Prop :=
  ∃ next v : Double, first.add step = .ok (.real next) ∧ atMost first last = true ∧
    atMost (.real next) (.real v) = true ∧ atMost (.real v) last = true ∧
    (Numeric.real v).add step = .ok (.real v)

/-! ### Numbers that can be shown -/

/-- The row of a whole number. -/
def wholeRow (name : String) (i : ℤ) : Value :=
  .record [("name", .text (name ++ "=" ++ toString i)), ("values", .record [(name, .int i)])]

/-- A whole number in the range of floating point numbers is not too long to be shown. -/
lemma isShort_of_toDouble {i : ℤ} {x : Double} (h : (Numeric.whole i).toDouble = .ok x) :
    Number.isShort i = true := by
  rw [Number.isShort_iff]
  by_contra hlong
  have hlimit : Double.bound ≤ 10 ^ Number.maxDigits * Double.perOne := by decide +kernel
  have hbound := hlimit.trans (Nat.mul_le_mul_right Double.perOne (Nat.not_lt.mp hlong))
  have hround : Double.bound ≤ Double.roundUnits (i.natAbs * Double.perOne) 1 := by
    rw [← Double.roundUnits_bound]
    exact Double.roundUnits_mono hbound
  rw [Numeric.toDouble_whole, Double.ofInt, Double.ofQuotient, Double.ofUnits,
    if_neg (Nat.not_lt.mpr hround)] at h
  cases h

lemma rangeRow_real (name : String) (d : Double) : ∃ row, rangeRow name (.real d) = .ok row :=
  ⟨_, rfl⟩

lemma rangeRow_whole {i : ℤ} (h : Number.isShort i = true) :
    rangeRow name (.whole i) = .ok (wholeRow name i) := by
  have htext : (Numeric.whole i).text = .ok (toString i) := by
    rw [Numeric.text, Number.intText_short h, ← Number.toList_toString, String.ofList_toList]
  rw [rangeRow, htext]
  rfl

lemma rangeRow_long {i : ℤ} (h : Number.isShort i = false) :
    rangeRow name (.whole i) = .error .tooManyDigits := by
  have htext : (Numeric.whole i).text = .error .tooManyDigits := by
    rw [Numeric.text, Number.intText_eq, if_neg (by simp [h])]
  rw [rangeRow, htext]
  rfl

lemma rangeRow_of_toDouble (name : String) {x : Double} (h : n.toDouble = .ok x) :
    ∃ row, rangeRow name n = .ok row := by
  cases n with
  | real d => exact rangeRow_real name d
  | whole i => exact ⟨_, rangeRow_whole (isShort_of_toDouble h)⟩

/-! ### Ranges that stay where they are -/

/-- No turn leads out of the numbers below one that the step does not change. -/
lemma not_loops_below (hstep : step.Positive) (hlast : atMost (.real v) last = true)
    (hfixed : (Numeric.real v).add step = .ok (.real v)) {k : Nat} {e : RangeEnd}
    (h : Loops name last step k next e) {d : Double} (hd : next = .real d)
    (hsum : n.add step = .ok next) (hle : atMost next (.real v) = true) : False := by
  induction h generalizing n d with
  | past beyond => simp [Numeric.atMost_trans hle hlast] at beyond
  | unshown _ unshown =>
    obtain ⟨row, hrow⟩ := rangeRow_real name d
    rw [hd, hrow] at unshown
    cases unshown
  | overflow _ _ overflow =>
    subst hd
    obtain ⟨_, hnext, -⟩ := Numeric.add_atMost hstep hsum hle hfixed
    rw [hnext] at overflow
    cases overflow
  | turn _ _ sum _ ih =>
    subst hd
    obtain ⟨_, hnext, hbelow⟩ := Numeric.add_atMost hstep hsum hle hfixed
    obtain rfl := Except.ok.inj (sum.symm.trans hnext)
    exact ih rfl sum hbelow

/-- **The loop of a range that stays where it is does not end.** -/
theorem Stalls.not_loops (hstep : step.Positive) (h : Stalls first last step) {k : Nat}
    {e : RangeEnd} : ¬Loops name last step k first e := by
  obtain ⟨next, v, hnext, hfirst, hle, hlast, hfixed⟩ := h
  obtain ⟨x, -, hx, -, -⟩ := Numeric.add_eq_real hnext
  obtain ⟨row, hrow⟩ := rangeRow_of_toDouble name hx
  rintro (⟨beyond⟩ | ⟨_, unshown⟩ | ⟨_, _, overflow⟩ | ⟨_, _, sum, rest⟩)
  · simp [hfirst] at beyond
  · simp [hrow] at unshown
  · simp [hnext] at overflow
  · obtain rfl := Except.ok.inj (sum.symm.trans hnext)
    exact not_loops_below hstep hlast hfixed rest rfl hnext hle

/-! ### Ends of ranges -/

/-- A number stands at an end of the line, or at the count of its units. -/
lemma place_cases {x : Point} (h : n.point? = some x) :
    n = .real (.infinite true) ∧ x = ⊥ ∨ n = .real (.infinite false) ∧ x = ⊤ ∨
      ∃ u, unitsOf n = some u ∧ x = .ofUnits u := by
  cases n with
  | whole i => exact .inr (.inr ⟨_, rfl, (Option.some.inj h).symm⟩)
  | real d =>
    obtain ⟨rfl, rfl⟩ | ⟨rfl, rfl⟩ | ⟨s, u, rfl, rfl⟩ := Double.point?_cases h
    · exact .inl ⟨rfl, rfl⟩
    · exact .inr (.inl ⟨rfl, rfl⟩)
    · exact .inr (.inr ⟨_, rfl, rfl⟩)

/-- What is neither end of the line is a finite number. -/
lemma exists_unitsOf {x : Point} (h : n.point? = some x) (hbot : x ≠ ⊥) (htop : x ≠ ⊤) :
    ∃ u, unitsOf n = some u ∧ x = .ofUnits u :=
  ((place_cases h).resolve_left fun h => hbot h.2).resolve_left fun h => htop h.2

lemma eq_infinite (h : n.point? = some ⊤) : n = .real (.infinite false) := by
  obtain ⟨-, hx⟩ | ⟨hn, -⟩ | ⟨u, -, hx⟩ := place_cases h
  · cases hx
  · exact hn
  · exact absurd hx.symm (Point.ofUnits_ne_top _)

/-- No step leads away from the lower end of the line. -/
lemma ne_bot_of_add {x y : Point} (hnext : n.add step = .ok next) (hx : n.point? = some x)
    (hy : next.point? = some y) (hxy : x < y) (hstep : step.Positive) : x ≠ ⊥ := by
  rintro rfl
  obtain ⟨rfl, -⟩ | ⟨-, hx⟩ | ⟨u, -, hx⟩ := place_cases hx
  · obtain ⟨i, j, h, -, -⟩ | ⟨d, e, hd, he, rfl⟩ := Numeric.add_cases hnext
    · cases h
    · cases hd
      obtain rfl | ⟨t, w, rfl, -⟩ := (hstep.toDouble he).cases <;> cases hy
      exact lt_irrefl _ hxy
  · cases hx
  · exact absurd hx.symm (Point.ofUnits_ne_bot _)

/-- The next number is nearer to an end that is finite. -/
def Nearer (n next last : Numeric) : Prop :=
  ∃ u v w, unitsOf n = some u ∧ unitsOf next = some v ∧ unitsOf last = some w ∧ u < v ∧ v ≤ w

lemma nearer_of_lt (hstep : step.Positive) (hnext : n.add step = .ok next) {x y z : Point}
    (hx : n.point? = some x) (hy : next.point? = some y) (hz : last.point? = some z) (hxy : x < y)
    (hyz : y ≤ z) (htop : z ≠ ⊤) : Nearer n next last := by
  obtain ⟨u, hu, rfl⟩ := exists_unitsOf hx (ne_bot_of_add hnext hx hy hxy hstep)
    (hxy.trans_le le_top).ne
  obtain ⟨v, hv, rfl⟩ := exists_unitsOf hy (bot_le.trans_lt hxy).ne'
    (hyz.trans_lt (lt_top_iff_ne_top.mpr htop)).ne
  obtain ⟨w, hw, rfl⟩ := exists_unitsOf hz ((bot_le.trans_lt hxy).trans_le hyz).ne' htop
  exact ⟨u, v, w, hu, hv, hw, Point.ofUnits_lt.mp hxy, Point.ofUnits_le.mp hyz⟩

/-- How a turn of the loop goes on if the next number does not pass the end: the range stays where
it is, the next number is nearer to the end, or whole numbers go on without an end. -/
lemma turn_cases (hstep : step.Positive) (hn : atMost n last = true)
    (hnext : n.add step = .ok next) (hle : atMost next last = true) :
    Stalls n last step ∨ Nearer n next last ∨
      ∃ i j, n = .whole i ∧ step = .whole j ∧ last = .real (.infinite false) := by
  obtain ⟨x, z, hx, hz, hxz⟩ := Numeric.atMost_iff.mp hn
  obtain ⟨y, z', hy, hz', hyz⟩ := Numeric.atMost_iff.mp hle
  obtain rfl : z = z' := Option.some.inj (hz.symm.trans hz')
  obtain ⟨i, j, rfl, rfl, rfl⟩ | ⟨d, e, hd, he, rfl⟩ := Numeric.add_cases hnext
  · by_cases htop : z = ⊤
    · subst htop
      exact .inr (.inr ⟨i, j, rfl, rfl, eq_infinite hz⟩)
    · have hj := Numeric.positive_whole.mp hstep
      obtain rfl := Option.some.inj hx
      obtain rfl := Option.some.inj hy
      have hone : (0 : ℤ) < Double.perOne := by exact_mod_cast Double.perOne_pos
      have hxy := Point.ofUnits_lt.mpr (Int.mul_lt_mul_of_pos_right (by omega : i < i + j) hone)
      exact .inr (.inl (nearer_of_lt hstep hnext hx hy hz hxy hyz htop))
  · rcases lt_or_ge x y with hxy | hyx
    · by_cases htop : z = ⊤
      · -- The upper end of the line is a number that no step changes.
        subst htop
        obtain rfl := eq_infinite hz
        refine .inl ⟨_, .infinite false, hnext, hn, hle, rfl, ?_⟩
        rw [Numeric.add_real he]
        rcases (hstep.toDouble he).cases with rfl | ⟨t, w, rfl, -⟩ <;> rfl
      · exact .inr (.inl (nearer_of_lt hstep hnext hx hy hz hxy hyz htop))
    · have hstuck := Numeric.add_stuck hstep hnext (Numeric.atMost_iff.mpr ⟨y, x, hy, hx, hyx⟩)
      have hself := Numeric.atMost_iff.mpr ⟨y, y, hy, hy, le_rfl⟩
      exact .inl ⟨_, _, hnext, hn, hself, hle, hstuck⟩

/-- The loop over whole numbers without an end comes to a number that is too long to be shown. -/
lemma loops_unbounded {j : ℤ} (hj : 0 < j) (name : String) (i : ℤ) :
    ∃ k, Loops name (.real (.infinite false)) (.whole j) k (.whole i) (.fault .tooManyDigits) := by
  obtain ⟨limit, hlimit⟩ : ∃ limit : ℕ, ∀ i, Number.isShort i = true → i.natAbs < limit :=
    ⟨_, fun _ => Number.isShort_iff.mp⟩
  induction h : (limit - i).toNat using Nat.strongRecOn generalizing i with
  | ind m ih =>
    rcases hshort : Number.isShort i with _ | _
    · exact ⟨0, .unshown rfl (rangeRow_long hshort)⟩
    · have hlt := hlimit i hshort
      obtain ⟨k, hk⟩ := ih _ (by omega) (i + j) rfl
      exact ⟨k + 1, .turn rfl (rangeRow_whole hshort) rfl hk⟩

/-- What keeps the loop from ending behind the next number keeps it from ending. -/
lemma Stalls.of_next (hstep : step.Positive) (hn : atMost n last = true)
    (hnext : n.add step = .ok next) (h : Stalls next last step) : Stalls n last step := by
  obtain ⟨d, v, hd, hnext', hle, hlast, hfixed⟩ := h
  obtain ⟨i, j, rfl, rfl, rfl⟩ | ⟨x, e, -, -, rfl⟩ := Numeric.add_cases hnext
  · rw [Numeric.add_whole] at hd
    cases hd
  · obtain ⟨p, -, hp, -, -⟩ := Numeric.atMost_iff.mp hnext'
    have hbelow := Numeric.atMost_add hstep hnext (Option.ne_none_iff_exists'.mpr ⟨p, hp⟩) hd
    exact ⟨_, v, hnext, hn, Numeric.atMost_trans hbelow hle, hlast, hfixed⟩

/-- **A range stays where it is, or its loop comes to its rows or its fault.** -/
theorem stalls_or_loops (hstep : step.Positive) (name : String) (last n : Numeric) :
    rangeRows name last step n = .endless ∧ Stalls n last step ∨
      ∃ k, Loops name last step k n (rangeRows name last step n) := by
  fun_induction rangeRows name last step n with
  | case1 n hn f hrow => exact .inr ⟨0, .unshown hn hrow⟩
  | case2 n hn f hnext hshown =>
    cases hrow : rangeRow name n with
    | error f => exact (hshown f hrow).elim
    | ok row => exact .inr ⟨0, .overflow hn hrow hnext⟩
  | case3 n hn row next hnext hrow hle u v w hu hv hw hprogress ih =>
    obtain ⟨hendless, hstalls⟩ | ⟨k, hk⟩ := ih
    · exact .inl ⟨by rw [hendless]; rfl, hstalls.of_next hstep hn hnext⟩
    · exact .inr ⟨k + 1, .turn hn hrow hnext hk⟩
  | case4 n hn row next hnext hrow hle u v w hu hv hw hprogress =>
    obtain hstalls | ⟨u', v', w', hu', hv', hw', h⟩ | ⟨i, j, rfl, rfl, rfl⟩ :=
      turn_cases hstep hn hnext hle
    · exact .inl ⟨rfl, hstalls⟩
    · cases hu.symm.trans hu'
      cases hv.symm.trans hv'
      cases hw.symm.trans hw'
      exact absurd h hprogress
    · cases hw
  | case5 n hn row next hnext hrow hle hends =>
    obtain hstalls | ⟨u, v, w, hu, hv, hw, -⟩ | ⟨i, j, rfl, rfl, rfl⟩ :=
      turn_cases hstep hn hnext hle
    · refine .inl ⟨?_, hstalls⟩
      obtain ⟨d, -, hd, -⟩ := hstalls
      cases hd.symm.trans hnext
      cases step <;> rfl
    · exact (hends u v w hu hv hw).elim
    · cases hnext
      exact .inr (loops_unbounded (Numeric.positive_whole.mp hstep) name i)
  | case6 n hn row next hnext hrow hle =>
    exact .inr ⟨1, .turn hn hrow hnext (.past (by simpa using hle))⟩
  | case7 n hn => exact .inr ⟨0, .past (by simpa using hn)⟩

/-- The loop comes to one end only. -/
theorem Loops.unique {k l : ℕ} {e e' : RangeEnd} (h : Loops name last step k n e)
    (h' : Loops name last step l n e') : e = e' := by
  induction h generalizing l e' with
  | past beyond => cases h' <;> simp_all
  | unshown within unshown => cases h' <;> simp_all
  | overflow within shown overflow => cases h' <;> simp_all
  | turn within shown sum rest ih =>
    cases h' with
    | turn within' shown' sum' rest' =>
      cases shown.symm.trans shown'
      cases sum.symm.trans sum'
      rw [ih rest']
    | past beyond => simp [within] at beyond
    | unshown _ unshown => simp [shown] at unshown
    | overflow _ _ overflow => simp [sum] at overflow

/-- **What the loop comes to is the end of the range.** -/
theorem Loops.rangeRows_eq (hstep : step.Positive) {k : ℕ} {e : RangeEnd}
    (h : Loops name last step k n e) : rangeRows name last step n = e := by
  obtain ⟨-, hstalls⟩ | ⟨l, hl⟩ := stalls_or_loops hstep name last n
  · exact absurd h (hstalls.not_loops hstep)
  · exact hl.unique h

/-- Whole numbers do not stay where they are. -/
lemma not_stalls_whole (i j : ℤ) : ¬Stalls (.whole i) last (.whole j) := by
  rintro ⟨_, _, hnext, -⟩
  cases hnext

/-! ### The block -/

/-- How the block of a range ends. -/
def RangeEnd.outcome : RangeEnd → Outcome Answer
  | rows xs => .done (.value (.list xs))
  | fault f => .failed (.ofFault f)
  | endless => .exhausted

/-- The inputs of a range are taken for numbers and a name. -/
structure Given (params : Dict Value) (first last step : Numeric) (name : String) : Prop where
  start : ∃ v, params.get? "START" = some v ∧ v.toNumber = .ok first
  finish : ∃ v, params.get? "END" = some v ∧ v.toNumber = .ok last
  step : ∃ v, params.get? "STEP" = some v ∧ v.toNumber = .ok step
  name : ∃ v, params.get? "VAR_NAME" = some v ∧ v.toText = .ok name

variable {params : Dict Value}

lemma need_run {key : String} {v : Value} (h : params.get? key = some v) (c : Context) :
    need params key c = (.done v, c) := by
  rw [need, h]
  rfl

lemma numberOf_run {v : Value} (h : v.toNumber = .ok n) (c : Context) :
    numberOf v c = (.done n, c) := by
  rw [numberOf, Action.compute_run, h]

/-- The block does nothing but make the rows. -/
lemma Given.executor_run (given : Given params first last step name) (hstep : step.Positive)
    (c : Context) :
    range.executor params c = ((rangeRows name last step first).outcome, c) := by
  obtain ⟨⟨a, ha, hfirst⟩, ⟨b, hb, hlast⟩, ⟨s, hs, hsize⟩, ⟨w, hw, hname⟩⟩ := given
  have htext : needText params "VAR_NAME" c = (.done name, c) := by
    rw [needText, Action.bind_of_done (need_run hw c), textOf, Action.compute_run, hname]
  have hpositive : atMost step (.whole 0) = false := by
    rw [atMost, hstep]
  change (need params "START" >>= _) c = _
  rw [Action.bind_of_done (need_run ha c), Action.bind_of_done (numberOf_run hfirst c),
    Action.bind_of_done (need_run hb c), Action.bind_of_done (numberOf_run hlast c),
    Action.bind_of_done (need_run hs c), Action.bind_of_done (numberOf_run hsize c),
    Action.bind_of_done htext, if_neg (by simp [hpositive])]
  cases rangeRows name last step first <;> rfl

/-- **A range ends unless it comes to a number that its step does not change.** A range from a whole
number in whole steps always ends. -/
theorem range_ends_iff (given : Given params first last step name) (hstep : step.Positive) :
    ((∃ k e, Loops name last step k first e) ↔ ¬Stalls first last step) ∧
      (∀ k e, Loops name last step k first e → ∀ c, range.executor params c = (e.outcome, c)) ∧
      (Stalls first last step → ∀ c, range.executor params c = (.exhausted, c)) ∧
      ∀ i j, first = .whole i → step = .whole j → ¬Stalls first last step := by
  have hends := stalls_or_loops hstep name last first
  refine ⟨⟨?_, fun hmoves => ?_⟩, fun k e h c => ?_, fun hstalls c => ?_, ?_⟩
  · rintro ⟨k, e, h⟩ hstalls
    exact hstalls.not_loops hstep h
  · obtain ⟨-, hstalls⟩ | ⟨k, h⟩ := hends
    · exact absurd hstalls hmoves
    · exact ⟨k, _, h⟩
  · rw [given.executor_run hstep, h.rangeRows_eq hstep]
  · obtain ⟨hendless, -⟩ | ⟨k, h⟩ := hends
    · rw [given.executor_run hstep, hendless]
      rfl
    · exact absurd h (hstalls.not_loops hstep)
  · rintro i j rfl rfl
    exact not_stalls_whole i j

/-- The inputs of a range of two visits. -/
def visits : Dict Value :=
  [("START", .int 1), ("END", .text "2"), ("STEP", .int 1), ("VAR_NAME", .text "visit")]

lemma visits_given : Given visits (.whole 1) (.whole 2) (.whole 1) "visit" where
  start := ⟨_, rfl, rfl⟩
  finish := ⟨_, rfl, by decide +kernel⟩
  step := ⟨_, rfl, rfl⟩
  name := ⟨_, rfl, rfl⟩

theorem range_ends_iff_visits : Given visits (.whole 1) (.whole 2) (.whole 1) "visit" ∧
    (Numeric.whole 1).Positive ∧ ∃ k e, Loops "visit" (.whole 2) (.whole 1) k (.whole 1) e :=
  have hstep : (Numeric.whole 1).Positive := Numeric.positive_whole.mpr (by decide)
  have h := range_ends_iff visits_given hstep
  ⟨visits_given, hstep, h.1.mpr (h.2.2.2 1 1 rfl rfl)⟩

/-- The greatest number that is finite; the next whole number is none of its kind. -/
def farAway : Double := .ofInt ((2 ^ 53 - 1) * 2 ^ 971)

/-- A range of the one number that is its start and its end, in steps of one. -/
def farVisit : Dict Value :=
  [("START", .float farAway), ("END", .float farAway), ("STEP", .int 1), ("VAR_NAME", .text "n")]

/-- A range of the greatest finite number in steps of one does not end: one more is too little to
be told from it. -/
theorem farVisit_stalls : Given farVisit (.real farAway) (.real farAway) (.whole 1) "n" ∧
    (Numeric.whole 1).Positive ∧ Stalls (.real farAway) (.real farAway) (.whole 1) ∧
    ¬∃ k e, Loops "n" (.real farAway) (.whole 1) k (.real farAway) e := by
  have hstep : (Numeric.whole 1).Positive := Numeric.positive_whole.mpr (by decide)
  have hself : atMost (.real farAway) (.real farAway) = true := by decide +kernel
  have hone : (Numeric.whole 1).toDouble = .ok (.ofInt 1) := by decide +kernel
  have hsum : farAway.add (.ofInt 1) = farAway := by decide +kernel
  have hnext : (Numeric.real farAway).add (.whole 1) = .ok (.real farAway) := by
    rw [Numeric.add_real hone, hsum]
  have hstalls : Stalls (.real farAway) (.real farAway) (.whole 1) :=
    ⟨_, _, hnext, hself, hself, hself, hnext⟩
  exact ⟨⟨⟨_, rfl, rfl⟩, ⟨_, rfl, rfl⟩, ⟨_, rfl, rfl⟩, ⟨_, rfl, rfl⟩⟩, hstep, hstalls,
    fun ⟨_, _, h⟩ => hstalls.not_loops hstep h⟩

/-! ### Ranges of whole numbers -/

/-- The rows of whole numbers in equal steps. -/
def progression (name : String) (i k : ℤ) (count : ℕ) : List Value :=
  (List.range count).map fun n : ℕ => wholeRow name (i + n * k)

lemma progression_succ (name : String) (i k : ℤ) (count : ℕ) : progression name i k (count + 1) =
    wholeRow name i :: progression name (i + k) k count := by
  have hshift (n : ℕ) : i + ((n + 1 : ℕ) : ℤ) * k = i + k + n * k := by
    rw [Nat.cast_succ, add_mul, one_mul]
    omega
  simp only [progression, List.range_succ_eq_map, List.map_cons, List.map_map, Function.comp_def,
    hshift, Nat.cast_zero, zero_mul, add_zero]

/-- How many steps there are from a whole number up to an end, the number itself counted. -/
def stepsTo (i j k : ℤ) : ℕ := ((j - i) / k + 1).toNat

variable {i j k : ℤ}

lemma stepsTo_past (hk : 0 < k) (h : j < i) : stepsTo i j k = 0 := by
  have := Int.ediv_neg_of_neg_of_pos (by omega : j - i < 0) hk
  rw [stepsTo]
  omega

lemma stepsTo_succ (hk : 0 < k) (h : i ≤ j) : stepsTo i j k = stepsTo (i + k) j k + 1 := by
  have hpos := Int.ediv_nonneg (by omega : 0 ≤ j - i) hk.le
  have hnext : (j - (i + k)) / k = (j - i) / k - 1 := by
    rw [← Int.sub_sub, Int.sub_ediv_of_dvd _ (Int.dvd_refl k), Int.ediv_self hk.ne']
  rw [stepsTo, stepsTo, hnext]
  omega

lemma atMost_whole : atMost (.whole i) (.whole j) = decide (i ≤ j) :=
  Numeric.isAtMost_compare i j

/-- **The loop over whole numbers makes the rows of an arithmetic progression.** -/
theorem loops_whole (name : String) (hk : 0 < k)
    (short : ∀ x, i ≤ x → x ≤ j → Number.isShort x = true) :
    Loops name (.whole j) (.whole k) (stepsTo i j k) (.whole i)
      (.rows (progression name i k (stepsTo i j k))) := by
  induction h : stepsTo i j k generalizing i with
  | zero =>
    have hpast : j < i := by
      by_contra hle
      have := stepsTo_succ hk (Int.not_lt.mp hle)
      omega
    exact .past (by rw [atMost_whole, decide_eq_false (by omega)])
  | succ count ih =>
    have hle : i ≤ j := by
      by_contra hlt
      have := stepsTo_past hk (Int.not_le.mp hlt)
      omega
    have hcount := stepsTo_succ hk hle
    have hrest := ih (i := i + k) (fun x hx => short x (by omega)) (by omega)
    rw [progression_succ]
    exact .turn (by rw [atMost_whole, decide_eq_true hle])
      (rangeRow_whole (short i le_rfl hle)) (Numeric.add_whole i k) hrest

/-- The values that stand for a whole number: the number, and the text of its digits. -/
inductive StandsFor : Value → ℤ → Prop
  | number (i : ℤ) : StandsFor (.int i) i
  | digits (i : ℤ) : StandsFor (.text (toString i)) i

lemma StandsFor.toNumber {v : Value} (h : StandsFor v i) (short : Number.isShort i = true) :
    v.toNumber = .ok (.whole i) := by
  cases h with
  | number => rfl
  | digits =>
    rw [← String.ofList_toList (s := toString i), Number.toList_toString, Value.toNumber,
      Number.readInt_spelled short]

/-- The numbers between two that are not too long to be shown are not too long either. -/
lemma isShort_between {x : ℤ} (hi : Number.isShort i = true) (hj : Number.isShort j = true)
    (hix : i ≤ x) (hxj : x ≤ j) : Number.isShort x = true := by
  rw [Number.isShort_iff] at hi hj ⊢
  omega

/-- No row but those of the progression is within the end. -/
lemma stepsTo_spec (hk : 0 < k) (i j : ℤ) :
    (∀ n : ℕ, n < stepsTo i j k → i + n * k ≤ j) ∧ j < i + stepsTo i j k * k := by
  constructor
  · intro n hn
    rw [stepsTo] at hn
    have hle := (Int.le_ediv_iff_mul_le hk).mp (by omega : (n : ℤ) ≤ (j - i) / k)
    omega
  · rcases Int.lt_or_le j i with hlt | hle
    · rw [stepsTo_past hk hlt]
      omega
    · have hpos := Int.ediv_nonneg (by omega : 0 ≤ j - i) hk.le
      have hover := Int.lt_ediv_add_one_mul_self (j - i) hk
      rw [stepsTo, Int.toNat_of_nonneg (by omega)]
      omega

/-- **The range of whole numbers is the arithmetic progression up to its end.** -/
theorem range_of_whole_numbers {a b s : Value} (ha : StandsFor a i) (hb : StandsFor b j)
    (hs : StandsFor s k) (hi : (Number.digits i).length ≤ 4000)
    (hj : (Number.digits j).length ≤ 4000) (hdigits : (Number.digits k).length ≤ 4000)
    (hk : 0 < k) (hstart : params.get? "START" = some a) (hend : params.get? "END" = some b)
    (hstep : params.get? "STEP" = some s) (hname : params.get? "VAR_NAME" = some (.text name)) :
    ∃ rows : List Value, (∀ c, range.executor params c = (.done (.value (.list rows)), c)) ∧
      (rows.length : ℤ) = max 0 ((j - i) / k + 1) ∧
      (∀ n : ℕ, ∀ h : n < rows.length, rows[n] = wholeRow name (i + n * k) ∧ i + n * k ≤ j) ∧
      j < i + rows.length * k := by
  have short {x : ℤ} (hx : (Number.digits x).length ≤ 4000) : Number.isShort x = true :=
    decide_eq_true (hx.trans (by decide))
  have given : Given params (.whole i) (.whole j) (.whole k) name :=
    ⟨⟨a, hstart, ha.toNumber (short hi)⟩, ⟨b, hend, hb.toNumber (short hj)⟩,
      ⟨s, hstep, hs.toNumber (short hdigits)⟩, ⟨.text name, hname, rfl⟩⟩
  have hpositive := Numeric.positive_whole.mpr hk
  have hloop := loops_whole name hk fun _ => isShort_between (short hi) (short hj)
  have hlength : (progression name i k (stepsTo i j k)).length = stepsTo i j k := by
    simp [progression]
  obtain ⟨hwithin, hover⟩ := stepsTo_spec hk i j
  refine ⟨progression name i k (stepsTo i j k), fun c => ?_, ?_, fun n h => ?_, ?_⟩
  · rw [given.executor_run hpositive, hloop.rangeRows_eq hpositive]
    rfl
  · rw [hlength, stepsTo]
    omega
  · exact ⟨by simp [progression], hwithin n (hlength ▸ h)⟩
  · rw [hlength]
    exact hover

theorem range_of_whole_numbers_visits :
    ∃ rows : List Value, (∀ c, range.executor visits c = (.done (.value (.list rows)), c)) ∧
      (rows.length : ℤ) = max 0 ((2 - 1) / 1 + 1) ∧
      (∀ n : ℕ, ∀ h : n < rows.length,
        rows[n] = wholeRow "visit" (1 + n * 1) ∧ 1 + (n : ℤ) * 1 ≤ 2) ∧
      2 < 1 + (rows.length : ℤ) * 1 :=
  range_of_whole_numbers (.number 1) (.digits 2) (.number 1) (by decide) (by decide) (by decide)
    (by decide) rfl rfl rfl rfl

end Library

end BlockSuite
