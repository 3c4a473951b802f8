import BlockSuite.Proofs.Name
import BlockSuite.Value.Quoted

/-!
Whole numbers as they are spelled: a sign below zero, then decimal digits, of which the first is
zero for nothing but zero. A number that is not too long to be written is read as itself.
-/

namespace BlockSuite

namespace Number

variable {c : Char} {cs : List Char} {i : Int}

/-- The decimal digits of a whole number, its sign aside. -/
def digits (i : Int) : List Char := Nat.toDigits 10 i.natAbs

/-- How a whole number is spelled. -/
def spelled (i : Int) : List Char := if i < 0 then '-' :: digits i else digits i

/-- Whether a whole number has no more digits than are written and read. -/
def isShort (i : Int) : Bool := (digits i).length ≤ maxDigits

/-! ### Digits -/

lemma isDigit_of_mem (h : c ∈ digits i) : c.isDigit = true :=
  Nat.isDigit_of_mem_toDigits (by decide) (by decide) h

lemma toNat_of_isDigit (h : c.isDigit = true) : 48 ≤ c.toNat ∧ c.toNat ≤ 57 := by
  simpa [Char.isDigit, UInt32.le_iff_toNat_le] using h

lemma digits_ne_nil (i : Int) : digits i ≠ [] := Nat.toDigits_ne_nil

/-- Only zero is spelled with a leading zero. -/
lemma toDigits_head {n : Nat} (h : 0 < n) : ∃ c cs, Nat.toDigits 10 n = c :: cs ∧ c ≠ '0' := by
  induction n using Nat.strongRecOn with
  | ind n ih =>
    rw [Nat.toDigits_eq_if (by decide)]
    split
    · exact ⟨_, _, rfl, fun hc => by rw [Nat.digitChar_eq_zero] at hc; omega⟩
    · obtain ⟨c, cs, hcs, hc⟩ := ih (n / 10) (by omega) (by omega)
      exact ⟨c, cs ++ [(n % 10).digitChar], by rw [hcs]; rfl, hc⟩

/-- Digits spell the number that they are the digits of. -/
lemma ofDigits_digits (i : Int) : ofDigits ((digits i).map (·.toNat - 48)) = i.natAbs := by
  have hdigits : Nat.ofDigitChars 10 (digits i) 0 = i.natAbs := Nat.ofDigitChars_ten_toDigits
  rw [ofDigits, List.foldl_map, ← hdigits, Nat.ofDigitChars_eq_foldl]
  simp only [Nat.mul_comm]
  rfl

lemma signed_natAbs (i : Int) :
    (if decide (i < 0) = true then -(i.natAbs : Int) else (i.natAbs : Int)) = i := by
  split
  · next h => have := of_decide_eq_true h; omega
  · next h => have := of_decide_eq_false (Bool.not_eq_true _ ▸ h); omega

/-! ### Writing -/

lemma toList_toString (i : Int) : (toString i).toList = spelled i := by
  rw [Int.toString_eq_repr, Int.repr_eq_if, spelled, digits]
  by_cases h : i < 0
  · have habs : (-i).toNat = i.natAbs := by omega
    rw [if_pos h, if_neg (by omega), habs, Nat.repr_eq_ofList_toDigits]
    simp
  · have habs : i.toNat = i.natAbs := by omega
    rw [if_neg h, if_pos (by omega), habs, Nat.repr_eq_ofList_toDigits, String.toList_ofList]

/-- A whole number is written in digits unless it has too many of them. -/
lemma intText_eq (i : Int) : intText i =
    if isShort i = true then .ok (String.ofList (spelled i)) else .error .tooManyDigits := by
  have hlength : (toString i).length = (spelled i).length := by
    rw [← String.length_toList, toList_toString]
  have hdigits : (if i < 0 then (toString i).length - 1 else (toString i).length) =
      (digits i).length := by
    rw [hlength, spelled]
    split
    · rw [List.length_cons, Nat.add_sub_cancel]
    · rfl
  rw [intText, hdigits, ← toList_toString, String.ofList_toList]
  by_cases h : isShort i = true
  · rw [if_pos h, if_neg (Nat.not_lt.mpr (of_decide_eq_true h))]
  · rw [if_neg h, if_pos (by simpa [isShort] using h)]

/-- **A whole number that is not too long is written in digits.** -/
theorem intText_short (h : isShort i = true) : intText i = .ok (String.ofList (spelled i)) := by
  rw [intText_eq, if_pos h]

/-! ### Reading -/

lemma digitValue?_of_isDigit (h : c.isDigit = true) :
    Text.digitValue? c = some (c.toNat - 48) := by
  obtain ⟨hlow, hhigh⟩ := toNat_of_isDigit h
  have hzero : (decide (0x30 ≤ c.toNat) && decide (c.toNat < 0x30 + 10)) = true := by
    simp only [Bool.and_eq_true, decide_eq_true_eq]
    omega
  rw [Text.digitValue?, Text.zeros, List.find?_cons, hzero]
  rfl

/-- Digits are read one by one. -/
lemma digitsOf?_digits (hne : cs ≠ []) (h : ∀ c ∈ cs, c.isDigit = true) :
    digitsOf? cs = some (cs.map (·.toNat - 48)) := by
  induction cs with
  | nil => exact absurd rfl hne
  | cons c rest ih =>
    have hc := digitValue?_of_isDigit (h c List.mem_cons_self)
    cases rest with
    | nil =>
      rw [digitsOf?, hc]
      rfl
    | cons d rest =>
      have hrest := ih (by simp) fun x hx => h x (List.mem_cons_of_mem _ hx)
      rw [digitsOf?, hc, hrest]
      · rfl
      · simp
      · rintro rest' heq
        have hd := h '_' (by rw [heq]; simp)
        simp at hd

lemma isBlank_of_isDigit (h : c.isDigit = true) : Text.isBlank c = false := by
  have hbounds := toNat_of_isDigit h
  rw [← Bool.not_eq_true]
  simp only [Text.isBlank, Bool.or_eq_true, Bool.and_eq_true, decide_eq_true_eq, beq_iff_eq]
  omega

lemma isBlank_of_mem_spelled (h : c ∈ spelled i) : Text.isBlank c = false := by
  rw [spelled] at h
  split at h
  · rcases List.mem_cons.mp h with rfl | h
    · decide
    · exact isBlank_of_isDigit (isDigit_of_mem h)
  · exact isBlank_of_isDigit (isDigit_of_mem h)

lemma spelled_ne_nil (i : Int) : spelled i ≠ [] := by
  rw [spelled]
  split
  · exact List.cons_ne_nil _ _
  · exact digits_ne_nil i

lemma takeSign_spelled (i : Int) : takeSign (spelled i) = (decide (i < 0), digits i) := by
  rw [spelled]
  split
  · next h => rw [takeSign, decide_eq_true h]
  · next h =>
    rw [decide_eq_false h, takeSign]
    · intro rest heq
      exact absurd (isDigit_of_mem (i := i) (heq ▸ List.mem_cons_self)) (by decide)
    · intro rest heq
      exact absurd (isDigit_of_mem (i := i) (heq ▸ List.mem_cons_self)) (by decide)

/-- **A whole number that is not too long is read as itself.** -/
theorem readInt_spelled (h : isShort i = true) : readInt (String.ofList (spelled i)) = .ok i := by
  have hblank : ∀ c ∈ spelled i, Text.isBlank c = false := fun _ => isBlank_of_mem_spelled
  have hlength : ¬maxDigits < ((digits i).map (·.toNat - 48)).length := by
    rw [List.length_map]
    exact Nat.not_lt.mpr (of_decide_eq_true h)
  rw [readInt, String.toList_ofList, Text.trimChars_of_not_blank hblank, takeSign_spelled]
  dsimp only
  rw [digitsOf?_digits (digits_ne_nil i) fun c hc => isDigit_of_mem hc]
  dsimp only
  rw [if_neg hlength, ofDigits_digits, signed_natAbs]

end Number

end BlockSuite
