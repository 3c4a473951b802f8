import BlockSuite.Proofs.Machine.Layer

/-!
Trees of results. A tree is its root, the trees of its inputs and those of its children, in this
order. The last failure in a tree is the one of its root only where nothing else in the tree fails.
-/

namespace BlockSuite

namespace StepResult

variable {r x : StepResult}

lemma walk_eq (r : StepResult) : r.walk = r :: (walkAll r.given ++ walkAll r.children) := by
  have hinputs (l : List (String × StepResult)) : walkInputs l = walkAll (l.map (·.2)) := by
    induction l with
    | nil => rfl
    | cons e rest ih => rw [walkInputs, List.map_cons, walkAll, ih]
  cases r
  rw [walk, hinputs]
  rfl

lemma walkAll_append (rs rs' : List StepResult) :
    walkAll (rs ++ rs') = walkAll rs ++ walkAll rs' := by
  induction rs with
  | nil => rfl
  | cons y rest ih => rw [List.cons_append, walkAll, ih, walkAll, List.append_assoc]

lemma walkAll_singleton (r : StepResult) : walkAll [r] = r.walk := by
  rw [walkAll, walkAll, List.append_nil]

lemma walkAll_concat (rs : List StepResult) (r : StepResult) :
    walkAll (rs ++ [r]) = walkAll rs ++ r.walk := by
  rw [walkAll_append, walkAll_singleton]

lemma mem_walkAll {rs : List StepResult} : x ∈ walkAll rs ↔ ∃ y ∈ rs, x ∈ walk y := by
  induction rs with
  | nil => simp [walkAll]
  | cons y rest ih =>
    rw [walkAll, List.mem_append, ih]
    simp

lemma mem_walk :
    x ∈ walk r ↔ x = r ∨ (∃ y ∈ r.given, x ∈ walk y) ∨ ∃ y ∈ r.children, x ∈ walk y := by
  rw [walk_eq, List.mem_cons, List.mem_append, mem_walkAll, mem_walkAll]

/-- The failures in the tree of a result, the result itself aside. -/
def failuresInside (r : StepResult) : List StepResult :=
  (walkAll r.given ++ walkAll r.children).filter (·.isFatal)

/-- The last failure in the tree of a result that fails. -/
def lastFailure (r : StepResult) : StepResult := r.failuresInside.getLast?.getD r

lemma getLast?_failures {z : StepResult} {pre : List StepResult}
    (h : r.walk = pre ++ z.walk) (hz : z.isFatal = true) :
    (r.walk.filter (·.isFatal)).getLast? = some z.lastFailure := by
  have hz' : z.walk.filter (·.isFatal) = z :: z.failuresInside := by
    rw [walk_eq, List.filter_cons_of_pos hz]
    rfl
  rw [h, List.filter_append, hz', List.getLast?_append, List.getLast?_cons, lastFailure]
  rfl

lemma sizeOf_lt (h : x ∈ r.given ∨ x ∈ r.children) : sizeOf x < sizeOf r := by
  cases r with
  | mk id type status time output error artifact inputs children soft returned failure =>
    rw [StepResult.mk.sizeOf_spec]
    rcases h with h | h
    · obtain ⟨⟨name, y⟩, he, rfl⟩ := List.mem_map.mp h
      have hlt := List.sizeOf_lt_of_mem he
      rw [Prod.mk.sizeOf_spec] at hlt
      dsimp only at hlt ⊢
      omega
    · have hlt := List.sizeOf_lt_of_mem h
      dsimp only at hlt
      omega

lemma sizeOf_le {x r : StepResult} (h : x ∈ r.walk) : sizeOf x ≤ sizeOf r := by
  rcases mem_walk.mp h with rfl | ⟨y, hy, hx⟩ | ⟨y, hy, hx⟩
  · exact Nat.le_refl _
  · have hlt : sizeOf y < sizeOf r := sizeOf_lt (.inl hy)
    have hle := sizeOf_le hx
    omega
  · have hlt : sizeOf y < sizeOf r := sizeOf_lt (.inr hy)
    have hle := sizeOf_le hx
    omega
termination_by sizeOf r

/-- The last failure in the tree of a result is its own, unless there are others inside it. -/
lemma lastFailure_eq_iff : r.lastFailure = r ↔ r.failuresInside = [] := by
  constructor
  · intro h
    by_contra hne
    obtain ⟨x, hx⟩ := List.getLast?_isSome.mpr hne |> Option.isSome_iff_exists.mp
    rw [lastFailure, hx, Option.getD_some] at h
    subst h
    obtain ⟨hmem, -⟩ := List.mem_filter.mp (List.mem_of_getLast? hx)
    obtain ⟨y, hy, hxy⟩ : ∃ y, (y ∈ x.given ∨ y ∈ x.children) ∧ x ∈ y.walk := by
      rcases List.mem_append.mp hmem with h | h
      · obtain ⟨y, hy, hxy⟩ := mem_walkAll.mp h
        exact ⟨y, .inl hy, hxy⟩
      · obtain ⟨y, hy, hxy⟩ := mem_walkAll.mp h
        exact ⟨y, .inr hy, hxy⟩
    have hlt := sizeOf_lt hy
    have hle := sizeOf_le hxy
    omega
  · intro h
    rw [lastFailure, h]
    rfl

end StepResult

end BlockSuite
