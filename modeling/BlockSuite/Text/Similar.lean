/-!
How similar two texts are: the share of characters in runs that they have in common. The longest
common run is taken first, then those before it and those behind it.
-/

namespace BlockSuite.Text

/-- The number of characters that two texts both start with. -/
def commonLead : List Char → List Char → Nat
  | a :: as, b :: bs => if a == b then commonLead as bs + 1 else 0
  | _, _ => 0

/-- A run that two texts have in common: its length and where it starts in each. -/
structure CommonRun where
  length : Nat
  left : Nat
  right : Nat
deriving Repr, DecidableEq, Inhabited

/-- The longest run that two texts have in common; of several the one that starts first in the
left text, and then in the right one. -/
def longestRun (as bs : List Char) : CommonRun :=
  (List.range as.length).foldl (fun best i =>
    (List.range bs.length).foldl (fun best j =>
      let n := commonLead (as.drop i) (bs.drop j)
      if best.length < n then ⟨n, i, j⟩ else best) best) ⟨0, 0, 0⟩

/-- The number of characters in common runs. Fuel bounds the runs. -/
def commonCount : Nat → List Char → List Char → Nat
  | 0, _, _ => 0
  | fuel + 1, as, bs =>
    let r := longestRun as bs
    if r.length == 0 then 0
    else
      commonCount fuel (as.take r.left) (bs.take r.right) + r.length +
        commonCount fuel (as.drop (r.left + r.length)) (bs.drop (r.right + r.length))

/-- Twice the characters in common runs, and the characters of both texts. -/
def similarity (a b : String) : Nat × Nat :=
  (2 * commonCount a.length a.toList b.toList, a.length + b.length)

/-- The texts most similar to a word, the most similar first: at most three, and only those with
three fifths of their characters in common. -/
def closest (word : String) (texts : List String) : List String :=
  let scored := texts.map fun t => (similarity t word, t)
  let close := scored.filter fun e => e.1.2 * 3 ≤ e.1.1 * 5
  let sorted := close.mergeSort fun x y =>
    let (p, q) := (x.1.1 * y.1.2, y.1.1 * x.1.2)
    q < p || (p == q && y.2 ≤ x.2)
  (sorted.map (·.2)).take 3

end BlockSuite.Text
