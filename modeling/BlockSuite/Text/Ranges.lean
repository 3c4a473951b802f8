/-!
Sets of characters given as closed ranges of code points, in ascending order.
-/

namespace BlockSuite.Text

/-- Whether a code point lies in one of the ranges. -/
def inRanges (ranges : List (Nat × Nat)) (code : Nat) : Bool :=
  ranges.any fun r => r.1 ≤ code && code ≤ r.2

@[simp] theorem inRanges_nil (code : Nat) : inRanges [] code = false := rfl

@[simp] theorem inRanges_cons (r : Nat × Nat) (rs : List (Nat × Nat)) (code : Nat) :
    inRanges (r :: rs) code = (r.1 ≤ code && code ≤ r.2 || inRanges rs code) := rfl

end BlockSuite.Text
