import BlockSuite.Proofs.Machine.Work

/-!
Lists of steps. A chain is a sequence of steps that all run to their results, each in the context
the one before has left. A list of steps runs as the chain of its steps up to the first one whose
result stops the list, and it fails only where a step of that chain has no result.
-/

namespace BlockSuite.Machine

/-- Steps that run one after the other, with their results. -/
inductive Chain (run : Step → Run StepResult) : Context → List Step → List StepResult →
    Context → Prop
  | nil (c : Context) : Chain run c [] [] c
  | cons {c c' c'' : Context} {step : Step} {r : StepResult} {steps : List Step}
      {rs : List StepResult} (head : run step c = (.done r, c'))
      (tail : Chain run c' steps rs c'') : Chain run c (step :: steps) (r :: rs) c''

/-- No result stops the list it belongs to. -/
def Calm (rs : List StepResult) : Prop := ∀ r ∈ rs, r.stops = false

variable {run : Step → Run StepResult} {c c' c'' : Context} {step : Step}
  {steps ran rest : List Step} {r : StepResult} {rs : List StepResult}

lemma Chain.append {rs' : List StepResult} (h : Chain run c ran rs c')
    (h' : Chain run c' rest rs' c'') : Chain run c (ran ++ rest) (rs ++ rs') c'' := by
  induction h with
  | nil => exact h'
  | cons head _ ih => exact .cons head (ih h')

lemma Chain.snoc (h : Chain run c ran rs c') (h' : run step c' = (.done r, c'')) :
    Chain run c (ran ++ [step]) (rs ++ [r]) c'' :=
  h.append (.cons h' (.nil _))

lemma Chain.forall_result {P : StepResult → Prop}
    (hP : ∀ step c r c', run step c = (.done r, c') → P r) (h : Chain run c ran rs c') :
    ∀ r ∈ rs, P r := by
  induction h with
  | nil => simp
  | cons head _ ih =>
    intro x hx
    rcases List.mem_cons.mp hx with rfl | hx
    · exact hP _ _ _ _ head
    · exact ih x hx

lemma Calm.nil : Calm [] := by simp [Calm]

lemma Calm.cons (hr : r.stops = false) (h : Calm rs) : Calm (r :: rs) := by
  intro x hx
  rcases List.mem_cons.mp hx with rfl | hx
  · exact hr
  · exact h x hx

/-- Behind a chain that nothing stops the list goes on. -/
lemma runList_append (h : Chain run c ran rs c') (hc : Calm rs) {o : Outcome (List StepResult)}
    (h' : runList run rest c' = (o, c'')) :
    runList run (ran ++ rest) c =
      (match o with
        | .done rs' => .done (rs ++ rs')
        | .failed e => .failed e
        | .exhausted => .exhausted, c'') := by
  induction h with
  | nil => cases o <;> exact h'
  | cons head _ ih =>
    have hr := hc _ List.mem_cons_self
    have hrest := ih (fun x hx => hc x (List.mem_cons_of_mem _ hx)) h'
    rw [List.cons_append, runList_cons, Action.bind_of_done head]
    simp only [hr, Bool.false_eq_true, if_false]
    cases o with
    | done rs' => rw [Action.bind_of_done hrest]; rfl
    | failed e => rw [Action.bind_of_failed hrest]
    | exhausted => rw [Action.bind_of_exhausted hrest]

/-- A list ends with the first result that stops it. -/
lemma runList_of_stop (h : Chain run c ran rs c') (hc : Calm rs)
    (hr : run step c' = (.done r, c'')) (hs : r.stops = true) (rest : List Step) :
    runList run (ran ++ step :: rest) c = (.done (rs ++ [r]), c'') := by
  refine runList_append h hc (o := .done [r]) ?_
  rw [runList_cons, Action.bind_of_done hr, if_pos hs]
  rfl

/-- **What a list of steps does**: all of its steps run and none stops it, or one of them stops
it, or one of them does not come to its result. -/
lemma runList_cases {o : Outcome (List StepResult)} (h : runList run steps c = (o, c'')) :
    (∃ rs, Chain run c steps rs c'' ∧ Calm rs ∧ o = .done rs) ∨
      ∃ ran step rest rs c', steps = ran ++ step :: rest ∧ Chain run c ran rs c' ∧ Calm rs ∧
        ((∃ r, run step c' = (.done r, c'') ∧ r.stops = true ∧ o = .done (rs ++ [r])) ∨
          ∃ o', run step c' = (o', c'') ∧ Action.Broken o' o) := by
  induction steps generalizing c o with
  | nil =>
    obtain ⟨rfl, rfl⟩ := Prod.mk.inj h
    exact .inl ⟨[], .nil _, .nil, rfl⟩
  | cons step rest ih =>
    rw [runList_cons] at h
    rcases Action.bind_cases h with ⟨r, c', hr, h⟩ | ⟨o', hr, hb⟩
    · by_cases hs : r.stops = true
      · rw [if_pos hs] at h
        obtain ⟨rfl, rfl⟩ := Prod.mk.inj h
        exact .inr ⟨[], step, rest, [], c, rfl, .nil _, .nil, .inl ⟨r, hr, hs, rfl⟩⟩
      rw [if_neg hs] at h
      rw [Bool.not_eq_true] at hs
      rcases Action.bind_cases h with ⟨rs, c₁, hrest, h⟩ | ⟨o', hrest, hb⟩
      · obtain ⟨rfl, rfl⟩ := Prod.mk.inj h
        rcases ih hrest with ⟨rs', hch, hc, hd⟩ | ⟨ran, x, post, rs', c₂, rfl, hch, hc, hx⟩
        · cases hd
          exact .inl ⟨_, .cons hr hch, .cons hs hc, rfl⟩
        · refine .inr ⟨_, x, post, _, c₂, rfl, .cons hr hch, .cons hs hc, ?_⟩
          rcases hx with ⟨y, hy, hys, hd⟩ | ⟨_, _, hb⟩
          · cases hd
            exact .inl ⟨y, hy, hys, rfl⟩
          · exact hb.not_done.elim
      · rcases ih hrest with ⟨rs', -, -, rfl⟩ | ⟨ran, x, post, rs', c₂, rfl, hch, hc, hx⟩
        · cases hb
        · refine .inr ⟨_, x, post, _, c₂, rfl, .cons hr hch, .cons hs hc, ?_⟩
          rcases hx with ⟨y, -, -, rfl⟩ | ⟨o'', hx, hb'⟩
          · cases hb
          · refine .inr ⟨o'', hx, ?_⟩
            cases hb <;> exact hb'
    · exact .inr ⟨[], step, rest, [], c, rfl, .nil _, .nil, .inr ⟨o', hr, hb⟩⟩

/-- The results of a list are those of a chain of its first steps, all of them calm but perhaps
the last one. -/
lemma runList_done (h : runList run steps c = (.done rs, c')) :
    ∃ ran rest, steps = ran ++ rest ∧ Chain run c ran rs c' ∧ Calm rs.dropLast ∧
      (rest ≠ [] → ∃ r, rs.getLast? = some r ∧ r.stops = true) := by
  rcases runList_cases h with ⟨rs', hch, hc, hd⟩ | ⟨ran, x, rest, rs', c₁, rfl, hch, hc, hx⟩
  · cases hd
    refine ⟨steps, [], by simp, hch, fun r hr => hc r (List.dropLast_subset _ hr), by simp⟩
  · rcases hx with ⟨r, hr, hs, hd⟩ | ⟨_, _, hb⟩
    · cases hd
      refine ⟨ran ++ [x], rest, by simp, hch.snoc hr, by simpa using hc, fun _ => ?_⟩
      exact ⟨r, by simp, hs⟩
    · exact hb.not_done.elim

end BlockSuite.Machine
