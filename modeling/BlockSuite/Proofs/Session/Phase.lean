import BlockSuite.Proofs.Machine.Assertion
import BlockSuite.Proofs.Session.Course

/-!
The phases around the cases of a suite. A phase ends with an error exactly if its steps fail or
skip, or do not all come to their results. Failures of assertions that are collected are none of
that, and a phase never looks at them: where assertions are soft, one that is found false can leave
no trace in what the phase gives. Where they are hard, a phase tells of every failure outside of try
slots.
-/

namespace BlockSuite

namespace Session

open BlockSuite.Action (Keeps)
open BlockSuite.Context (SameMarks)

variable {s s' : Session} {name : String} {steps : List Step}
  {event : Hooks → Option (Suite → Run Unit)} {c c' c₀ : Context}

/-! ### How a phase ends -/

/-- The hooks that are called at the beginning of a phase. -/
def opens (s : Session) (event : Hooks → Option (Suite → Run Unit)) : Run Unit :=
  Hooks.runAll s.environment.hooks fun h => (event h).map fun f => f s.suite

/-- The result of a phase before it ends. -/
def phaseBlank (s : Session) (name : String) : TestResult :=
  { testId := name, testName := s.suite.name ++ " " ++ name, lifecycle := some name }

/-- The result of a phase that ends with an error. -/
def phaseError (s : Session) (name : String) (rs : List StepResult) (info : ErrorInfo) :
    TestResult :=
  { s.phaseBlank name with status := .error, steps := rs, error := some info, finished := true }

/-- What a phase makes of how its hooks and its steps have ended. -/
def concludePhase (s : Session) (name : String) :
    Except Failure (List StepResult) → Run (Option TestResult)
  | .error f => do
    Context.log .error "Lifecycle %s raised an unexpected error" [.text name]
    return some (← Action.lift ((s.phaseBlank name).finish .error (some f)))
  | .ok rs =>
    match Trial.firstFailure rs with
    | none => return none
    | some r => do
      Context.log .error "Lifecycle %s failed on step %s" [.text name, .text r.stepId]
      return some (← Action.lift
        ({ s.phaseBlank name with steps := rs }.finish .error r.failure))

lemma runPhase_eq (s : Session) : runPhase name steps event s =
    inContext (do
      let outcome ← Action.attempt do
        s.opens event
        s.machine.runSteps steps
      s.concludePhase name outcome) s := by
  rw [runPhase, Action.bind_of_done (Action.get_run s)]
  rfl

/-- How a phase ends whose hooks have all come to their end: its steps have given results none of
which fails or skips, or it ends with an error, or the record of the error cannot be written. -/
inductive PhaseEnd (s : Session) (name : String) (steps : List Step) (c₀ : Context) :
    Outcome (Option TestResult) → Context → Prop
  | quiet {rs : List StepResult} {c : Context}
    (ran : s.machine.runSteps steps c₀ = (.done rs, c)) (calm : ∀ r ∈ rs, r.breaks = false) :
    PhaseEnd s name steps c₀ (.done none) c
  | broken {rs : List StepResult} {r : StepResult} {f : Failure} {i : ErrorInfo} {c c' : Context}
    (ran : s.machine.runSteps steps c₀ = (.done rs, c)) (first : Trial.firstFailure rs = some r)
    (failure : r.failure = some f) (told : f.info = .ok i) :
    PhaseEnd s name steps c₀ (.done (some (s.phaseError name rs i))) c'
  | escaped {f : Failure} {i : ErrorInfo} {c c' : Context}
    (ran : s.machine.runSteps steps c₀ = (.failed f, c)) (told : f.info = .ok i) :
    PhaseEnd s name steps c₀ (.done (some (s.phaseError name [] i))) c'
  | mute {o : Outcome (List StepResult)} {f : Failure} {c c' : Context}
    (ran : s.machine.runSteps steps c₀ = (o, c)) (ended : o ≠ .exhausted)
    (unwritten : ¬c.Loggable) : PhaseEnd s name steps c₀ (.failed f) c'
  | unfinished {c : Context} (ran : s.machine.runSteps steps c₀ = (.exhausted, c)) :
    PhaseEnd s name steps c₀ .exhausted c

lemma concludePhase_error {f : Failure} {o : Outcome (Option TestResult)}
    (ran : s.machine.runSteps steps c₀ = (.failed f, c))
    (h : s.concludePhase name (.error f) c = (o, c')) : s.PhaseEnd name steps c₀ o c' := by
  obtain ⟨i, hi⟩ := (Machine.runSteps_failed ran).info
  rcases c.log_cases .error "Lifecycle %s raised an unexpected error" [.text name] rfl with
    ⟨c₁, hlog⟩ | ⟨e, c₁, hlog, hmute⟩
  · rw [concludePhase, Action.bind_of_done hlog, TestResult.finish, hi] at h
    cases h
    exact .escaped ran hi
  · rw [concludePhase, Action.bind_of_failed hlog] at h
    cases h
    exact .mute ran (by simp) hmute

lemma concludePhase_ok {rs : List StepResult} {o : Outcome (Option TestResult)}
    (ran : s.machine.runSteps steps c₀ = (.done rs, c))
    (h : s.concludePhase name (.ok rs) c = (o, c')) : s.PhaseEnd name steps c₀ o c' := by
  cases hr : Trial.firstFailure rs with
  | none =>
    simp only [concludePhase, hr] at h
    cases h
    exact .quiet ran (Trial.firstFailure_none.mp hr)
  | some r =>
    obtain ⟨hmem, hb⟩ := Trial.firstFailure_some hr
    have haccounts := Machine.forall_runList (s.machine.runWith_accounts _) ran r hmem
    obtain ⟨f, i, hf, hi⟩ := haccounts.info hb
    simp only [concludePhase, hr] at h
    rcases c.log_cases .error "Lifecycle %s failed on step %s" [.text name, .text r.stepId] rfl with
      ⟨c₁, hlog⟩ | ⟨e, c₁, hlog, hmute⟩
    · rw [Action.bind_of_done hlog, hf, TestResult.finish, hi] at h
      cases h
      exact .broken ran hr hf hi
    · rw [Action.bind_of_failed hlog] at h
      cases h
      exact .mute ran (by simp) hmute

lemma runPhase_ends (hooked : s.opens event s.context = (.done (), c₀))
    {o : Outcome (Option TestResult)} (h : runPhase name steps event s = (o, s')) :
    s.PhaseEnd name steps c₀ o s'.context ∧ s' = { s with context := s'.context } := by
  rw [runPhase_eq] at h
  rcases hran : s.machine.runSteps steps c₀ with ⟨o₁, c⟩
  have hattempt : (do
      s.opens event
      s.machine.runSteps steps : Run (List StepResult)) s.context = (o₁, c) :=
    (Action.bind_of_done hooked _).trans hran
  rcases hrun : (do
      let outcome ← Action.attempt do
        s.opens event
        s.machine.runSteps steps
      s.concludePhase name outcome : Run (Option TestResult)) s.context with ⟨o₂, c'⟩
  simp only [inContext, Action.zoom, hrun] at h
  cases h
  refine ⟨?_, rfl⟩
  cases o₁ with
  | done rs =>
    rw [Action.bind_of_done (Action.attempt_of_done hattempt)] at hrun
    exact concludePhase_ok hran hrun
  | failed f =>
    rw [Action.bind_of_done (Action.attempt_of_failed hattempt)] at hrun
    exact concludePhase_error hran hrun
  | exhausted =>
    rw [Action.bind_of_exhausted (Action.attempt_of_exhausted hattempt)] at hrun
    cases hrun
    exact .unfinished hran

/-- A phase whose steps neither fail nor skip gives nothing, whatever was collected meanwhile. -/
lemma runPhase_quiet (hooked : s.opens event s.context = (.done (), c₀)) {rs : List StepResult}
    (ran : s.machine.runSteps steps c₀ = (.done rs, c)) (calm : ∀ r ∈ rs, r.breaks = false) :
    runPhase name steps event s = (.done none, { s with context := c }) := by
  have hattempt : (do
      s.opens event
      s.machine.runSteps steps : Run (List StepResult)) s.context = (.done rs, c) :=
    (Action.bind_of_done hooked _).trans ran
  have hrun : (do
      let outcome ← Action.attempt do
        s.opens event
        s.machine.runSteps steps
      s.concludePhase name outcome : Run (Option TestResult)) s.context = (.done none, c) := by
    rw [Action.bind_of_done (Action.attempt_of_done hattempt)]
    simp only [concludePhase, Trial.firstFailure_none.mpr calm]
    rfl
  rw [runPhase_eq]
  simp only [inContext, Action.zoom, hrun]

/-! ### What a phase tells of -/

/-- Where the records of the run can be written, a phase that ends gives something or nothing, but
does not fail. -/
lemma PhaseEnd.not_failed (hm : s.machine.Respects SameMarks) (hc : c₀.Loggable) {f : Failure} :
    ¬s.PhaseEnd name steps c₀ (.failed f) c := by
  intro h
  cases h with
  | mute ran ended unwritten =>
    have hmarks := Machine.runSteps_keeps Machine.sameMarks_harmless hm steps _ _ _ ran ended
    exact unwritten (hc.congr hmarks)

/-- A list of steps in which one is interrupted does not end quietly. -/
lemma PhaseEnd.not_quiet {i : Nat} {x : Step} {cx : Context}
    (hx : Machine.StartsAt s.machine.runStep steps c₀ i x cx)
    (hi : Machine.Interrupts (s.machine.runStep x) cx) :
    ¬s.PhaseEnd name steps c₀ (.done none) c := by
  intro h
  cases h with
  | quiet ran calm =>
    obtain ⟨pre, r, rfl, -, hb⟩ := hx.interrupted hi ran
    have hr := calm r (by simp)
    rw [hb] at hr
    cases hr

/-- A step that a phase comes to outside of try slots: one of its list, or one that is run inside of
such a step. -/
def Comes (s : Session) (steps : List Step) (c₀ : Context) (z : Machine.Start) : Prop :=
  ∃ i x cx, Machine.StartsAt s.machine.runStep steps c₀ i x cx ∧
    s.machine.Reaches ⟨Machine.maxDepth - 1, false, x, cx⟩ z

/-- **What a phase tells of failed assertions.** A phase whose hooks have come to their end gives
nothing exactly if its steps all come to results that neither fail nor skip; else it ends with an
error, or the record of that error cannot be written. So where an assertion is found false outside
of try slots, and assertions are hard, the phase never passes. Where they are soft, the failure is
collected, and the step's own result neither fails nor skips: the phase tells of it only if
something else ends it. -/
theorem runPhase_reports (s : Session) (name : String) (steps : List Step)
    (event : Hooks → Option (Suite → Run Unit)) (c₀ : Context)
    (hooked : s.opens event s.context = (.done (), c₀)) :
    (∀ o s', runPhase name steps event s = (o, s') → s.PhaseEnd name steps c₀ o s'.context) ∧
    (∀ c, runPhase name steps event s = (.done none, { s with context := c }) ↔
      ∃ rs, s.machine.runSteps steps c₀ = (.done rs, c) ∧ ∀ r ∈ rs, r.breaks = false) ∧
    ∀ z x f c, s.Comes steps c₀ z → s.machine.Refutes z x f c →
      (c.soft = false → ∀ o s', runPhase name steps event s = (o, s') → o ≠ .exhausted →
        (∃ rs i, o = .done (some (s.phaseError name rs i))) ∨
          (∃ e, o = .failed e) ∧ ¬(s.machine.Respects SameMarks ∧ c₀.Loggable)) ∧
      (c.soft = true → ∀ t, x.message = .text t → c.Loggable →
        ∃ e r c', s.machine.conclude (z.inner s.machine) z.nested z.step z.before = (.done r, c') ∧
          e.message = t ∧ c'.softErrors = c.softErrors ++ [e] ∧ r.breaks = false) := by
  have hends (o s') (h : runPhase name steps event s = (o, s')) :
      s.PhaseEnd name steps c₀ o s'.context := (runPhase_ends hooked h).1
  refine ⟨hends, fun c => ⟨fun h => ?_, fun ⟨rs, ran, calm⟩ => runPhase_quiet hooked ran calm⟩, ?_⟩
  · cases hends _ _ h with
    | quiet ran calm => exact ⟨_, ran, calm⟩
  rintro z x f c ⟨i, y, cy, hstart, hreach⟩ hrefutes
  refine ⟨fun hhard o s' h ho => ?_, fun hsoft t ht hc => ?_⟩
  · have hint : Machine.Interrupts (s.machine.runStep y) cy :=
      hreach.interrupted (hrefutes.interrupted hhard)
    have hend := hends o s' h
    cases o with
    | done r =>
      cases r with
      | none => exact absurd hend (PhaseEnd.not_quiet hstart hint)
      | some r =>
        cases hend with
        | broken => exact .inl ⟨_, _, rfl⟩
        | escaped => exact .inl ⟨_, _, rfl⟩
    | failed e => exact .inr ⟨⟨e, rfl⟩, fun ⟨hm, hc⟩ => PhaseEnd.not_failed hm hc hend⟩
    | exhausted => exact absurd rfl ho
  · obtain ⟨e, r, c', hrun, hmessage, hcollected, hb, -⟩ := hrefutes.conclude_soft hsoft ht hc
    exact ⟨e, r, c', hrun, hmessage, hcollected, hb⟩

/-- A step that checks for a database, which there is none of. -/
def checking : Step := ⟨"check", "check", [], []⟩

/-- A session of a suite that checks for a database before all cases. -/
def shop (soft : Bool) : Session :=
  let check : Block :=
    { type := "check"
      executor := Block.asserting fun _ =>
        return { holds := false, message := .text "no database" } }
  let environment : Environment := { settings := { soft }, blocks := [[("check", check)]] }
  { suite := { (default : Suite) with name := "Shop", beforeAll := [checking] }
    environment
    context := environment.context [] none { level := .critical } }

lemma shop_comes (soft : Bool) : (shop soft).Comes (shop soft).suite.beforeAll (shop soft).context
    ⟨9999, false, checking, (shop soft).context⟩ :=
  ⟨0, checking, (shop soft).context, .here _ _ _, .refl⟩

lemma shop_refutes (soft : Bool) : ∃ f c, c.soft = soft ∧
    (shop soft).machine.Refutes ⟨9999, false, checking, (shop soft).context⟩
      { holds := false, message := .text "no database" } f c :=
  ⟨_, _, rfl, .found rfl rfl rfl rfl rfl⟩

/-- With hard assertions the phase ends with an error. -/
theorem runPhase_reports_shop : ∃ t rs i,
    runPhase "before_all" (shop false).suite.beforeAll Hooks.beforeAll (shop false) =
      (.done (some ((shop false).phaseError "before_all" rs i)), t) := by
  obtain ⟨f, c, hc, hrefutes⟩ := shop_refutes false
  obtain ⟨r, t, h⟩ := Action.exists_done
    (x := runPhase "before_all" (shop false).suite.beforeAll Hooks.beforeAll) (s := shop false)
    (by decide +kernel)
  have hlaw := (runPhase_reports (shop false) "before_all" (shop false).suite.beforeAll
    Hooks.beforeAll (shop false).context rfl).2.2 _ _ f c (shop_comes false) hrefutes
  rcases hlaw.1 hc _ t h (by simp) with ⟨rs, i, ho⟩ | ⟨⟨e, he⟩, -⟩
  · exact ⟨t, rs, i, ho ▸ h⟩
  · cases he

/-- With soft ones it gives nothing, and the failure stays among those that were collected. -/
theorem runPhase_loses_shop : ∃ z x f c t,
    (shop true).Comes (shop true).suite.beforeAll (shop true).context z ∧
    (shop true).machine.Refutes z x f c ∧ beforeAll (shop true) = (.done none, t) ∧
    t.context.softErrors.map (·.message) = ["no database"] := by
  obtain ⟨f, c, -, hrefutes⟩ := shop_refutes true
  exact ⟨_, _, f, c, _, shop_comes true, hrefutes, rfl, rfl⟩

end Session

end BlockSuite
