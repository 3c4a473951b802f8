import BlockSuite.Proofs.Machine.Contained

/-!
Failures that are carried. A step goes no further once something inside it has failed, so it passes
on one failure at most, and it passes on every failure inside it but for those of its try slot. The
steps whose results carry a failure are therefore on one way, which ends at a step that has failed
by itself.
-/

namespace BlockSuite

namespace Machine

variable {m : Machine} {run : Runner} {step : Step} {steps : List Step} {f f' : Frame}
  {e : Failure} {c c' : Context}

/-! ### A step is interrupted once -/

lemma Interrupts.not_done {b : Block} {name : String} {x : Step}
    (h : Interrupts (run true x) f.context)
    (bound : Dict.get? step.params name = some (.nested x)) {v : Value} :
    resolveInput run b step name f ≠ (.done v, f') := by
  intro hdone
  have hasks : Asks run b step [name] f x f.context := .here bound
  have hall : resolveAll run b step [name] f = (.done [(name, v)], f') := by
    rw [resolveAll, Action.bind_of_done hdone]
    rfl
  exact hasks.not_done h hall

lemma Asks.unique {b : Block} {names : List String} {x y : Step} {cx cy : Context}
    (h : Asks run b step names f x cx) (h' : Asks run b step names f y cy)
    (hx : Interrupts (run true x) cx) (hy : Interrupts (run true y) cy) : x = y ∧ cx = cy := by
  induction h with
  | here bound =>
    cases h' with
    | here bound' =>
      rw [bound] at bound'
      cases bound'
      exact ⟨rfl, rfl⟩
    | later given' next' => exact absurd given' (hx.not_done bound)
  | later given next ih =>
    cases h' with
    | here bound' => exact absurd given (hy.not_done bound')
    | later given' next' =>
      rw [given] at given'
      cases given'
      exact ih next' hx

lemma StartsAt.unique {run : Step → Run StepResult} {i j : Nat} {x y : Step} {cx cy : Context}
    (h : StartsAt run steps c i x cx) (h' : StartsAt run steps c j y cy)
    (hx : Interrupts (run x) cx) (hy : Interrupts (run y) cy) : x = y ∧ cx = cy := by
  have hstop {z : Step} {cz c₁ : Context} {r : StepResult} (hz : Interrupts (run z) cz)
      (hrun : run z cz = (.done r, c₁)) (hr : r.stops = false) : False := by
    rw [StepResult.stops_of_breaks (hz r c₁ hrun)] at hr
    cases hr
  induction h generalizing j with
  | here =>
    cases h' with
    | here => exact ⟨rfl, rfl⟩
    | later head' hr' => exact (hstop hx head' hr').elim
  | later head hr next ih =>
    cases h' with
    | here => exact (hstop hy head hr).elim
    | later head' hr' next' =>
      rw [head] at head'
      cases head'
      exact ih next' hx

section Lists

variable (ha : run.Yields StepResult.Accounts)
include ha

lemma Pass.unique {starts : List (Run Unit)} {k k' : Nat} {cx cy : Context}
    (h : Pass run steps starts f k cx) (h' : Pass run steps starts f k' cy)
    (hx : Halts run steps cx) (hy : Halts run steps cy) : cx = cy := by
  induction h generalizing k' with
  | here begins =>
    cases h' with
    | here begins' =>
      rw [begins] at begins'
      cases begins'
      rfl
    | later begins' body' =>
      rw [begins] at begins'
      cases begins'
      exact absurd body' (hx.runBody ha)
  | later begins body stays next ih =>
    cases h' with
    | here begins' =>
      rw [begins] at begins'
      cases begins'
      exact absurd body (hy.runBody ha)
    | later begins' body' stays' next' =>
      rw [begins] at begins'
      cases begins'
      rw [body] at body'
      cases body'
      exact ih next' hx

/-- Of the lists that some work opens, try slots aside, at most one halts. -/
lemma Opens.unique {w : Work} {k k' : Nat} {xs ys : List Step} {cx cy : Context}
    (h : Opens run f w k xs cx) (h' : Opens run f w k' ys cy) (hk : w.tries k = false)
    (hk' : w.tries k' = false) (hx : Halts run xs cx) (hy : Halts run ys cy) :
    xs = ys ∧ cx = cy := by
  cases h with
  | pass hp =>
    cases h' with
    | pass hp' => exact ⟨rfl, hp.unique ha hp' hx hy⟩
  | attempt => cases hk
  | handler attempt fails begins =>
    cases h' with
    | attempt => cases hk'
    | handler attempt' fails' begins' =>
      rw [attempt] at attempt'
      cases attempt'
      rw [fails] at fails'
      cases fails'
      rw [begins] at begins'
      cases begins'
      exact ⟨rfl, rfl⟩
  | frame begins =>
    cases h' with
    | frame begins' =>
      rw [begins] at begins'
      cases begins'
      exact ⟨rfl, rfl⟩

end Lists

namespace Inside

variable {a b b' : Start}

lemma layers (h : m.Inside a b) : a.layers = b.layers + 1 := h.contains.layers

/-- **A step is interrupted by one step inside it** at most. -/
lemma unique (h : m.Inside a b) (h' : m.Inside a b') (hb : b.Interrupted m)
    (hb' : b'.Interrupted m) : b = b' := by
  have ha : (a.inner m).Yields StepResult.Accounts := m.runWith_accounts a.layers
  have hlayers : b.layers = b'.layers := by
    have := h.layers
    have := h'.layers
    omega
  have heq (hstep : b.step = b'.step) (hbefore : b.before = b'.before)
      (hnested : b.nested = b'.nested) : b = b' := by
    cases b
    cases b'
    cases hlayers
    cases hstep
    cases hbefore
    cases hnested
    rfl
  cases h with
  | input layers nested announced known asks =>
    cases h' with
    | input layers' nested' announced' known' asks' =>
      rw [announced] at announced'
      cases announced'
      rw [known] at known'
      cases known'
      have hx := hb.interrupts layers
      have hy := hb'.interrupts layers'
      rw [nested] at hx
      rw [nested'] at hy
      obtain ⟨hstep, hbefore⟩ := asks.unique asks' hx hy
      exact heq hstep hbefore (nested.trans nested'.symm)
    | body layers' nested' answered' opened' kept' started' =>
      exact absurd answered' (asks.not_answered hb layers nested announced known)
  | body layers nested answered opened kept started =>
    cases h' with
    | input layers' nested' announced' known' asks' =>
      exact absurd answered (asks'.not_answered hb' layers' nested' announced' known')
    | body layers' nested' answered' opened' kept' started' =>
      rw [answered] at answered'
      cases answered'
      obtain ⟨rfl, rfl⟩ := opened.unique ha opened' kept kept' (started.halts hb layers nested)
        (started'.halts hb' layers' nested')
      have hx := hb.interrupts layers
      have hy := hb'.interrupts layers'
      rw [nested] at hx
      rw [nested'] at hy
      obtain ⟨hstep, hbefore⟩ := started.unique started' hx hy
      exact heq hstep hbefore (nested.trans nested'.symm)

end Inside

namespace Activation

variable {a b b' y z : m.Activation} {r : StepResult}

/-- A step that is started once comes to one result. -/
lemma eq_of_start (h : a.start = b.start) : a = b := by
  obtain ⟨layers, nested, step, before, result, after, ran⟩ := a
  obtain ⟨layers', nested', step', before', result', after', ran'⟩ := b
  cases h
  rw [ran] at ran'
  cases ran'
  rfl

lemma interrupted_of_fatal (h : a.result.isFatal = true) : a.start.Interrupted m := by
  intro r c hrun
  have hran : m.runWith (a.start.layers + 1) a.start.nested a.start.step a.start.before =
      (.done a.result, a.after) := a.ran
  rw [hran] at hrun
  cases hrun
  exact StepResult.breaks_iff.mpr (.inl h)

/-- A step fails with one step inside it at most. -/
lemma FailsWith.unique (h : a.FailsWith b) (h' : a.FailsWith b') : b = b' :=
  eq_of_start (h.inside.unique h'.inside (interrupted_of_fatal h.fatal)
    (interrupted_of_fatal h'.fatal))

/-- A step passes on the failure of a step inside it: it has failed with it. -/
def PassesOn (a b : m.Activation) : Prop := ∃ e f, a.Failed e f ∧ a.HandsOn b e

/-- The result of a step carries the failure of another one, which all steps in between have passed
on. -/
def Carries : m.Activation → m.Activation → Prop := Relation.ReflTransGen PassesOn

lemma PassesOn.unique (h : a.PassesOn b) (h' : a.PassesOn b') : b = b' := by
  obtain ⟨e, f, -, h⟩ := h
  obtain ⟨e', f', -, h'⟩ := h'
  exact h.failsWith.unique h'.failsWith

lemma PassesOn.fatal (h : a.PassesOn b) : a.result.isFatal = true ∧ b.result.isFatal = true := by
  obtain ⟨e, f, -, h⟩ := h
  exact ⟨(h.failsWith.passes.fatal h.failsWith.fatal).1, h.failsWith.fatal⟩

lemma PassesOn.layers (h : a.PassesOn b) : b.layers < a.layers := by
  obtain ⟨e, f, -, h⟩ := h
  exact h.failsWith.layers

/-- A step that fails passes on a failure, or fails by itself. -/
lemma passesOn_cases (h : a.result.isFatal = true) :
    (∃ b, a.PassesOn b) ∨ (∀ b, ¬a.PassesOn b) ∧ a.FailsItself := by
  by_cases hb : ∃ b, a.PassesOn b
  · exact .inl hb
  · obtain ⟨e, f, hfailed⟩ := failed_of_fatal h
    rcases hfailed.cases h with ⟨b, hb'⟩ | hitself
    · exact absurd ⟨b, e, f, hfailed, hb'⟩ hb
    · exact .inr ⟨fun b hb' => hb ⟨b, hb'⟩, hitself⟩

/-- A step passes on whatever has failed inside it, but for a try slot. -/
lemma passesOn_of_mem (ha : a.result.isFatal = true)
    (hr : r ∈ a.result.given ∨ ∃ rest, a.result.children = a.tried ++ rest ∧ r ∈ rest)
    (hfatal : r.isFatal = true) : ∃ b, a.PassesOn b ∧ b.result = r := by
  obtain ⟨b, hinside, rfl⟩ : ∃ b : m.Activation, m.Inside a.start b.start ∧ b.result = r := by
    rcases hr with hr | ⟨rest, hrest, hr⟩
    · exact inside_of_given hr
    · obtain ⟨rest', hrest', hinside⟩ := a.inside_of_children
      rw [hrest] at hrest'
      rw [← List.append_cancel_left hrest'] at hinside
      exact hinside r hr
  rcases passesOn_cases ha with ⟨b', hb'⟩ | ⟨-, hitself⟩
  · obtain ⟨e, f, hfailed, hhands⟩ := hb'
    have hsame : b' = b := eq_of_start (hhands.failsWith.inside.unique hinside
      (interrupted_of_fatal hhands.failsWith.fatal) (interrupted_of_fatal hfatal))
    exact ⟨b, hsame ▸ ⟨e, f, hfailed, hhands⟩, rfl⟩
  · have hcalm : b.result.breaks = false := by
      rcases hr with hr | ⟨rest, hrest, hr⟩
      · exact hitself.given _ hr
      · obtain ⟨rest', hrest', hcalm⟩ := hitself.children
        rw [hrest] at hrest'
        rw [← List.append_cancel_left hrest'] at hcalm
        exact hcalm _ hr
    exact absurd hfatal (StepResult.not_fatal hcalm)

/-! ### Following a failure inwards -/

/-- Every failure is carried from a step that has failed by itself. -/
lemma exists_carries (ha : a.result.isFatal = true) :
    ∃ z, a.Carries z ∧ z.FailsItself ∧ ∀ b, ¬z.PassesOn b := by
  induction hn : a.layers using Nat.strongRecOn generalizing a with
  | _ n ih =>
    rcases passesOn_cases ha with ⟨b, hb⟩ | ⟨hends, hitself⟩
    · have hlayers := hb.layers
      obtain ⟨z, hz, hitself⟩ := ih b.layers (by omega) hb.fatal.2 rfl
      exact ⟨z, .head hb hz, hitself⟩
    · exact ⟨a, .refl, hitself, hends⟩

/-- The steps whose failure a result carries are on one way. -/
lemma Carries.total (h : a.Carries y) (h' : a.Carries z) : y.Carries z ∨ z.Carries y :=
  Relation.ReflTransGen.total_of_right_unique (fun _ _ _ => PassesOn.unique) h h'

/-- A way ends where nothing is passed on. -/
lemma Carries.to_end (h : a.Carries z) (hends : ∀ b, ¬z.PassesOn b) (hy : a.Carries y) :
    y.Carries z := by
  rcases hy.total h with hyz | hzy
  · exact hyz
  · rcases Relation.ReflTransGen.cases_head hzy with rfl | ⟨b, hb, -⟩
    · exact .refl
    · exact absurd hb (hends b)

lemma Carries.leadsTo (h : a.Carries z) : a.LeadsTo z := by
  refine Relation.ReflTransGen.mono (fun x y hxy => ?_) a z h
  obtain ⟨_, _, _, hands⟩ := hxy
  exact hands.failsWith

lemma Carries.contains (h : a.Carries z) :
    Relation.ReflTransGen m.Contains a.start z.start := by
  refine Relation.ReflTransGen.lift start (fun x y hxy => ?_) a z h
  obtain ⟨_, _, _, hands⟩ := hxy
  exact hands.failsWith.inside.contains

lemma Carries.fatal (h : a.Carries z) (hz : z.result.isFatal = true) :
    a.result.isFatal = true := by
  rcases Relation.ReflTransGen.cases_head h with rfl | ⟨b, hb, -⟩
  · exact hz
  · exact hb.fatal.1

end Activation

end Machine

end BlockSuite
