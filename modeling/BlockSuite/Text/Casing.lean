/-!
Letters in another case. Most letters move by a fixed distance over a run of code points; a few
become other characters, which a table lists.
-/

namespace BlockSuite.Text

/-- A run of letters that have one letter each in the other case: first and last code point, step
and distance to the other case. -/
abbrev CaseRun := Nat × Nat × Nat × Int

/-- A character in the other case, by the letters that become several and the runs of the others. -/
def recased (specials : List (Nat × List Nat)) (runs : List CaseRun) (c : Char) : List Char :=
  let n := c.toNat
  match specials.find? (·.1 == n) with
  | some (_, codes) => codes.map Char.ofNat
  | none =>
    match runs.find? fun (lo, hi, by_, _) => lo ≤ n && n ≤ hi && (n - lo) % by_ == 0 with
    | some (_, _, _, distance) => [Char.ofNat (Int.toNat (n + distance))]
    | none => [c]

end BlockSuite.Text
