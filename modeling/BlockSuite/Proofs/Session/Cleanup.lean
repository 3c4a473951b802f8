import BlockSuite.Proofs.Session.Shape

/-!
What happens to the steps after all cases. Whatever a run comes to before, it comes to them once, at
last. They are run, from the first one on, exactly if the hooks that are called before them come to
their end: where one of these fails, none of the steps is run, whichever they are.
-/

namespace BlockSuite

namespace Session

open BlockSuite.Action (Keeps)
open BlockSuite.Context (SameDepth Lenient)
open BlockSuite.Trial (UpToFirst)

variable {s s' s₂ : Session} {c c' c₀ : Context}

/-- How the phase after all cases ends. Its steps are run, or a hook has failed: then it ends as it
would with any other steps, with an error without results or with no way to tell of it. -/
inductive CleansUp (s : Session) : Outcome (Option TestResult) → Session → Prop
  | ran {c₀ : Context} {o : Outcome (Option TestResult)} {s' : Session}
    (hooked : s.opens Hooks.afterAll s.context = (.done (), c₀))
    (ends : s.PhaseEnd "after_all" s.suite.afterAll c₀ o s'.context) : CleansUp s o s'
  | unhooked {c₁ : Context} {f : Failure} {o : Outcome (Option TestResult)} {s' : Session}
    (hook : s.opens Hooks.afterAll s.context = (.failed f, c₁))
    (ends : (∃ i, f.info = .ok i ∧ o = .done (some (s.phaseError "after_all" [] i))) ∨
      ∃ e, o = .failed e)
    (regardless : ∀ steps, runPhase "after_all" steps Hooks.afterAll s = (o, s')) : CleansUp s o s'

lemma afterAll_cleansUp {o : Outcome (Option TestResult)} (h : afterAll s = (o, s'))
    (ho : o ≠ .exhausted) : s.CleansUp o s' := by
  rcases (runPhase_cases h).2 with ⟨c₀, hooked, ends⟩ | ⟨f, c₁, hook, hconclude, hregardless⟩ | rfl
  · exact .ran hooked ends
  · refine .unhooked hook ?_ hregardless
    rcases (concludePhase_unhooked hconclude).2 with htold | ⟨e, he, -⟩
    · exact .inl htold
    · exact .inr ⟨e, he⟩
  · exact absurd rfl ho

/-- No call is open in a session, and what is attached to it leaves that so. -/
structure Grounded (s : Session) : Prop where
  depth : s.context.callDepth = 0
  machine : s.machine.Respects SameDepth
  beforeAll : ∀ h ∈ s.environment.hooks, ∀ f, h.beforeAll = some f → ∀ suite,
    Keeps SameDepth (f suite)
  afterAll : ∀ h ∈ s.environment.hooks, ∀ f, h.afterAll = some f → ∀ suite,
    Keeps SameDepth (f suite)

lemma sameDepth_lenient : Lenient SameDepth where
  refl := Machine.sameDepth_harmless.refl
  trans := Machine.sameDepth_harmless.trans
  records c _ := Machine.sameDepth_harmless.records c _
  bindings := Machine.sameDepth_harmless.bindings
  currentStep := Machine.sameDepth_harmless.currentStep
  frame := Machine.sameDepth_harmless.frame

lemma opens_sameDepth {event : Hooks → Option (Suite → Run Unit)}
    (h : ∀ k ∈ s.environment.hooks, ∀ f, event k = some f → ∀ suite, Keeps SameDepth (f suite)) :
    Keeps SameDepth (s.opens event) :=
  Machine.runAll_keeps Machine.sameDepth_harmless fun k hk f hf => h k hk f hf s.suite

/-- The steps after all cases are run where no call is open. -/
lemma Grounded.afterOpening (hs : s.Grounded) {o : Outcome (List TestResult)}
    (h : opening s = (o, s₂)) (ho : o ≠ .exhausted)
    (hooked : s₂.opens Hooks.afterAll s₂.context = (.done (), c₀)) :
    s₂.machine.Respects SameDepth ∧ c₀.callDepth = 0 := by
  have hsame := opening_same h
  have hopening : SameDepth s.context s₂.context :=
    opening_keeps sameDepth_lenient (fun _ _ => rfl) (opens_sameDepth hs.beforeAll)
      (Machine.runSteps_keeps Machine.sameDepth_harmless hs.machine _) h ho
  have hhooks : SameDepth s₂.context c₀ := by
    have hkeeps : ∀ k ∈ s₂.environment.hooks, ∀ f, k.afterAll = some f →
        ∀ suite, Keeps SameDepth (f suite) := by
      rw [hsame.environment]
      exact hs.afterAll
    exact opens_sameDepth hkeeps _ _ _ hooked (by simp)
  refine ⟨?_, hhooks.trans (hopening.trans hs.depth)⟩
  rw [Session.machine, hsame.environment]
  exact hs.machine

/-- **The steps after all cases.** Every run that ends has come to them once, behind its opening,
whatever that has come to. Where the hooks before them come to their end, they are run from the
first one on; no call being open, up to the first that fails or skips. Where such a hook fails, none
of them is run. -/
theorem runSuite_cleansUp (s : Session) (o : Outcome (List TestResult)) (s' : Session)
    (h : runSuite s = (o, s')) (ho : o ≠ .exhausted) :
    ∃ before s₂ o₂, Action.attempt opening s = (.done before, s₂) ∧ s.Same s₂ ∧
      afterAll s₂ = (o₂, s') ∧ o = closed before o₂ ∧ s₂.CleansUp o₂ s' ∧
      (s.Grounded → ∀ c₀ rs c, s₂.opens Hooks.afterAll s₂.context = (.done (), c₀) →
        s₂.machine.runSteps s₂.suite.afterAll c₀ = (.done rs, c) →
          UpToFirst s₂.machine s₂.suite.afterAll c₀ rs c) := by
  rcases runSuite_cases h with ⟨before, s₂, o₂, hopening, hafter, rfl⟩ | ⟨-, rfl⟩
  swap
  · exact absurd rfl ho
  obtain ⟨o₁, hran, hne⟩ : ∃ o₁, opening s = (o₁, s₂) ∧ o₁ ≠ .exhausted := by
    cases before with
    | ok rs => exact ⟨_, Action.attempt_ok hopening, by simp⟩
    | error f => exact ⟨_, Action.attempt_error hopening, by simp⟩
  have ho₂ : o₂ ≠ .exhausted := by
    rintro rfl
    cases before <;> exact ho rfl
  have hcleans := afterAll_cleansUp hafter ho₂
  refine ⟨before, s₂, o₂, hopening, opening_same hran, hafter, rfl, hcleans, ?_⟩
  intro hs c₀ rs c hooked hsteps
  obtain ⟨hdepth, hc⟩ := hs.afterOpening hran hne hooked
  exact Trial.runSteps_upToFirst hdepth hc hsteps

/-- A session of a kitchen that is cleaned at last, and is watched by some hooks. -/
def kitchen (hooks : List Hooks) : Session :=
  let s := ofExecutors [("clean", do
    Context.setVariable "cleaned" (.bool true)
    return .value .null)] hooks Machine.silent
  { s with suite := { s.suite with name := "Kitchen", afterAll := [⟨"clean", "clean", [], []⟩] } }

/-- A hook that fails when all cases have been run. -/
def leaving : Hooks := { afterAll := some fun _ => Action.fail (.raised (.leaf "left early")) }

lemma kitchen_grounded : (kitchen []).Grounded where
  depth := rfl
  machine := by
    refine Machine.ofExecutors_respects fun e he c o c' h ho => ?_
    rw [List.mem_singleton.mp he] at h
    have hclean : Elementary (do
        Context.setVariable "cleaned" (.bool true)
        return .value .null : Run Answer) :=
      (Elementary.setVariable _ _).bind fun _ => .pure _
    exact hclean.keepsAt sameDepth_lenient c o c' h ho
  beforeAll h hh := by cases hh
  afterAll h hh := by cases hh

theorem runSuite_cleansUp_kitchen : ∃ s₂ o₂ t, runSuite (kitchen []) = (.done [], t) ∧
    afterAll s₂ = (o₂, t) ∧ s₂.CleansUp o₂ t ∧ t.context.bindings.has "cleaned" = true ∧
    ∀ c₀ rs c, s₂.opens Hooks.afterAll s₂.context = (.done (), c₀) →
      s₂.machine.runSteps s₂.suite.afterAll c₀ = (.done rs, c) →
        UpToFirst s₂.machine s₂.suite.afterAll c₀ rs c := by
  have hrun : runSuite (kitchen []) = (.done [], (runSuite (kitchen [])).2) := rfl
  have hcleaned : (runSuite (kitchen [])).2.context.bindings.has "cleaned" = true := by
    decide +kernel
  obtain ⟨before, s₂, o₂, -, -, hafter, -, hcleans, hsteps⟩ :=
    runSuite_cleansUp (kitchen []) _ _ hrun (by simp)
  exact ⟨s₂, o₂, _, hrun, hafter, hcleans, hcleaned, hsteps kitchen_grounded⟩

/-- Where the hook fails, the kitchen is not cleaned. -/
theorem kitchen_left_dirty : ∃ rs t, runSuite (kitchen [leaving]) = (.done rs, t) ∧
    rs.map (fun r => (r.testId, r.status, r.steps.length)) = [("after_all", .error, 0)] ∧
    t.context.bindings.has "cleaned" = false := by
  have hdirty : (runSuite (kitchen [leaving])).2.context.bindings.has "cleaned" = false := by
    decide +kernel
  obtain ⟨rs, t, h, hrs⟩ := Action.exists_done_eq (x := runSuite) (s := kitchen [leaving])
    (g := fun rs => rs.map fun r => (r.testId, r.status, r.steps.length))
    (b := [("after_all", .error, 0)]) (by decide +kernel)
  rw [h] at hdirty
  exact ⟨rs, t, h, hrs, hdirty⟩

end Session

end BlockSuite
