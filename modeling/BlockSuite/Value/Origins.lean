import BlockSuite.Value.Basic

/-!
Where the dates of a value come from. The dates that were read from one place of a text are one
date that stands at several places of the value.
-/

namespace BlockSuite

/-- The origins of the dates in a value, in the shape of the value: a list has those of its items
as parts, a mapping those of each key and of its value in turn. -/
inductive Origins where
  | unknown
  | date (place : Nat)
  | parts (ps : List Origins)
deriving Repr, Inhabited, BEq

namespace Origins

/-- The origins of a part. -/
def part (i : Nat) : Origins → Origins
  | parts ps => (ps[i]?).getD unknown
  | _ => unknown

mutual

/-- The places of all dates, in the order in which they stand in the value. -/
def places : Origins → List Nat
  | unknown => []
  | date place => [place]
  | parts ps => placesOfAll ps

def placesOfAll : List Origins → List Nat
  | [] => []
  | o :: rest => places o ++ placesOfAll rest

end

/-- Those of some places that repeat an earlier one, each once. -/
def repeated (seen found : List Nat) : List Nat → List Nat
  | [] => found
  | p :: rest =>
    if seen.contains p && !found.contains p then repeated seen (found ++ [p]) rest
    else repeated (p :: seen) found rest

@[simp] theorem places_unknown : places unknown = [] := by simp [places]

@[simp] theorem places_date (p : Nat) : places (date p) = [p] := by simp [places]

@[simp] theorem repeated_nil (seen found : List Nat) : repeated seen found [] = found := rfl

end Origins

end BlockSuite
