import BlockSuite.Proofs.Machine.Origin
import BlockSuite.Proofs.Session.Trial

/-!
Where a case that has failed is said to have failed. Its error is that of a step which has failed by
itself, inside a step of one of its lists. The report looks for that step in the tree of the results
and takes the last failure in it. That is the right one unless failures were caught inside the step,
which is where the report then points.
-/

namespace BlockSuite

namespace Trial

open BlockSuite.Machine (StartsAt)

variable {m : Machine} {steps : List Step} {lists : List (List Step)} {suite : Suite} {k : Case}
  {c c₀ : Context} {rs : List StepResult} {x : StepResult}

/-- The lists that are come to when lists are run up to the first result that fails or skips, and
the contexts they are run in. -/
inductive Comes (m : Machine) : List (List Step) → Context → List Step → Context → Prop
  | here (steps : List Step) (rest : List (List Step)) (c : Context) :
    Comes m (steps :: rest) c steps c
  | later {steps steps' : List Step} {rest : List (List Step)} {rs : List StepResult}
    {c c' c'' : Context} (ran : m.runSteps steps c = (.done rs, c'))
    (calm : ∀ r ∈ rs, r.breaks = false) (next : Comes m rest c' steps' c'') :
    Comes m (steps :: rest) c steps' c''

/-- The lists that a run of a case comes to, and the contexts they are run in. -/
inductive Lists (m : Machine) (suite : Suite) (k : Case) (c₀ : Context) :
    List Step → Context → Prop
  | main {steps : List Step} {c : Context} (comes : Comes m (body suite k) c₀ steps c) :
    Lists m suite k c₀ steps c
  | caseEnd {rs : List StepResult} {c : Context} (main : Until m (body suite k) c₀ rs c) :
    Lists m suite k c₀ k.afterEach c
  | suiteEnd {rs rs' : List StepResult} {c c' : Context} (main : Until m (body suite k) c₀ rs c)
    (caseEnd : m.runSteps k.afterEach c = (.done rs', c')) : Lists m suite k c₀ suite.afterEach c'

lemma Comes.mem (h : Comes m lists c₀ steps c) : steps ∈ lists := by
  induction h with
  | here => exact List.mem_cons_self
  | later _ _ _ ih => exact List.mem_cons_of_mem _ ih

lemma Lists.mem (h : Lists m suite k c₀ steps c) :
    steps ∈ body suite k ++ [k.afterEach, suite.afterEach] := by
  cases h with
  | main comes => exact List.mem_append_left _ comes.mem
  | caseEnd => simp
  | suiteEnd => simp

/-- Every result of some lists is one of a list that is come to. -/
lemma Until.comes (h : Until m lists c₀ rs c) (hx : x ∈ rs) :
    ∃ steps c₁ rs' c₂, Comes m lists c₀ steps c₁ ∧ m.runSteps steps c₁ = (.done rs', c₂) ∧
      x ∈ rs' := by
  induction h with
  | nil c => cases hx
  | stop ran breaks rest => exact ⟨_, _, _, _, .here _ _ _, ran, hx⟩
  | next ran calm tail ih =>
    rcases List.mem_append.mp hx with hx | hx
    · exact ⟨_, _, _, _, .here _ _ _, ran, hx⟩
    · obtain ⟨steps, c₁, rs', c₂, hcomes, hrun, hx⟩ := ih hx
      exact ⟨steps, c₁, rs', c₂, .later ran calm hcomes, hrun, hx⟩

lemma Course.mem_lists (course : Course m suite k c₀) (hx : x ∈ course.results) :
    ∃ steps c₁ rs c₂, Lists m suite k c₀ steps c₁ ∧ m.runSteps steps c₁ = (.done rs, c₂) ∧
      x ∈ rs := by
  rcases List.mem_append.mp hx with hx | hx
  · rcases List.mem_append.mp hx with hx | hx
    · obtain ⟨steps, c₁, rs, c₂, hcomes, hrun, hx⟩ := course.mainRan.comes hx
      exact ⟨steps, c₁, rs, c₂, .main hcomes, hrun, hx⟩
    · exact ⟨_, _, _, _, .caseEnd course.mainRan, course.caseEndRan, hx⟩
  · exact ⟨_, _, _, _, .suiteEnd course.mainRan course.caseEndRan, course.suiteEndRan, hx⟩

/-- A step that a run of a case has started in one of its lists. -/
def Starts (m : Machine) (suite : Suite) (k : Case) (c₀ : Context) (a : m.Activation) : Prop :=
  ∃ steps c i, Lists m suite k c₀ steps c ∧ StartsAt m.runStep steps c i a.step a.before ∧
    a.layers + 1 = Machine.maxDepth ∧ a.nested = false

/-- A result of a case that fails or skips is that of a step of one of its lists. -/
lemma Course.starts (course : Course m suite k c₀) (hx : x ∈ course.results)
    (hb : x.breaks = true) : ∃ a : m.Activation, Starts m suite k c₀ a ∧ a.result = x := by
  obtain ⟨steps, c₁, rs, c₂, hlists, hrun, hx⟩ := course.mem_lists hx
  rcases Machine.ended_of_runList hrun with hcalm | ⟨pre, y, rfl, hcalm, hstops⟩
  · rw [hcalm.breaks x hx] at hb
    cases hb
  have hlast : x = y := by
    rcases List.mem_append.mp hx with hx | hx
    · rw [hcalm.breaks x hx] at hb
      cases hb
    · exact List.mem_singleton.mp hx
  subst hlast
  obtain ⟨i, step, cx, hstart, hstep⟩ := Machine.exists_startsAt hrun hstops
  obtain ⟨a, hlayers, hnested, rfl, rfl, hresult⟩ := Machine.Activation.of_run hstep
  exact ⟨a, ⟨steps, c₁, i, hlists, hstart, hlayers.symm, hnested⟩, hresult⟩

/-- The first result that fails is the first that fails or skips, where the verdict is a failure. -/
lemma Verdict.of_failed {first : List StepResult} {errors : List SoftError} {status : Status}
    {error : Option ErrorInfo} (h : Verdict (firstFailure first) errors status error)
    (hs : status = .failed) (hx : first.find? (·.isFatal) = some x) : error = x.error := by
  cases hfirst : firstFailure first with
  | none =>
    have hcalm := firstFailure_none.mp hfirst x (List.mem_of_find?_eq_some hx)
    exact absurd (List.find?_some hx) (StepResult.not_fatal hcalm)
  | some y =>
    obtain ⟨pre, rest, rfl, hpre⟩ := firstFailure_split hfirst
    have hnone : pre.find? (·.isFatal) = none := by
      rw [List.find?_eq_none]
      exact fun r hr => StepResult.not_fatal (hpre r hr)
    rw [hfirst] at h
    cases h with
    | skipped errors skips => cases hs
    | failed errors fails =>
      rw [List.find?_append, hnone, Option.none_or, List.find?_cons_of_pos fails] at hx
      cases hx
      rfl

end Trial

namespace Session

variable {r : TestResult}

/-- What a record tells of a step of a list that has failed and of the step that it leads to, which
has failed by itself. The record has the error of that step, and the error names the step, unless it
has come with the name of another one. The report points at the last failure in the tree of the
step, which is the step itself exactly if nothing inside it fails. -/
structure Locates {m : Machine} (r : TestResult) (x : StepResult) (a z : m.Activation) : Prop where
  result : a.result = x
  leads : a.LeadsTo z
  itself : z.FailsItself
  error : r.error = z.result.error
  origin : ∃ e f, m.evaluate z.inner z.nested z.step z.fresh = (.failed e, f) ∧
    x.origin = some (e.ownStepId.getD (.text z.result.stepId))
  reported : (∀ y, a.LeadsTo y → y.LeadsTo z → y.Distinct) →
    r.failedStep? = some z.result.lastFailure
  exact_iff : (∀ y, a.LeadsTo y → y.LeadsTo z → y.Distinct) →
    (r.failedStep? = some z.result ↔ z.result.failuresInside = [])

/-- A step that fails leads to what a record tells of it. -/
lemma exists_locates {m : Machine} {a : m.Activation} {x : StepResult} (hx : a.result = x)
    (first : r.steps.find? (·.isFatal) = some x) (herror : r.error = x.error) :
    ∃ z : m.Activation, Locates r x a z := by
  subst hx
  have hfatal : a.result.isFatal = true := List.find?_some first
  obtain ⟨z, hleads, hitself⟩ := a.exists_origin hfatal
  obtain ⟨e, f, hfailed⟩ := Machine.Activation.failed_of_fatal hitself.fatal
  have hreported (hd : ∀ y, a.LeadsTo y → y.LeadsTo z → y.Distinct) :
      r.failedStep? = some z.result.lastFailure := by
    obtain ⟨pre, hwalk⟩ := hleads.walk hd
    simp only [TestResult.failedStep?, first]
    exact StepResult.getLast?_failures hwalk hitself.fatal
  refine ⟨z, rfl, hleads, hitself, herror.trans hleads.error, ⟨e, f, hfailed.ran, ?_⟩, hreported,
    fun hd => ?_⟩
  · rw [z.stepId_eq]
    exact hleads.origin hfailed.origin
  · rw [hreported hd, Option.some.injEq]
    exact StepResult.lastFailure_eq_iff

/-- **Where a case has failed.** A record that tells of a failure, and has a result that fails, has
the error of a step that has failed by itself: the first of its results that fails is that of a step
of a list of the case, and this step leads to it. Where the inputs of the steps on the way have
different names, the report points at the last failure in the tree of that step. This is the step
itself exactly if no failure was caught inside it. -/
theorem runCase_locates (s : Session) (k : Case) (position : Option Position) (r : TestResult)
    (s' : Session) (x : StepResult) (h : runCase k position s = (.done r, s'))
    (failed : r.status = .failed) (first : r.steps.find? (·.isFatal) = some x) :
    ∃ row c₀, position.mapM (fun p => p.pick k.data) = .ok row ∧
      s.opensCase k (s.forked k position row) = (.done (), c₀) ∧
      ∃ a z : s.machine.Activation, Trial.Starts s.machine s.suite k c₀ a ∧ Locates r x a z := by
  rcases runCase_done h with ⟨-, rfl⟩ | ⟨-, row, hrow, hrecord⟩
  · cases failed
  cases hrecord with
  | broken hooked lost told => cases failed
  | unhooked hook told => cases failed
  | @settled c₀ status error hooked course verdict =>
    have hb : x.breaks = true := StepResult.breaks_iff.mpr (.inl (List.find?_some first))
    obtain ⟨a, hstarts, ha⟩ := course.starts (List.mem_of_find?_eq_some first) hb
    have herror : error = x.error := verdict.of_failed failed first
    obtain ⟨z, hz⟩ := exists_locates ha first herror
    exact ⟨row, c₀, hrow, hooked, a, z, hstarts, hz⟩

/-- What a kiosk does: it fails, or it tries steps and runs others should they fail. -/
def kiosk : Session :=
  ofExecutors
    [("try", return .signal (.tryCatch "TRY" "CATCH" none)),
      ("fail", Action.fail (.raised (.leaf "broken")))] [] Machine.silent

/-- A case that fails in handling a failure. -/
def recovery : Case :=
  { (default : Case) with
    name := "recovery"
    steps := [⟨"outer", "try", [],
      [("TRY", [⟨"tried", "fail", [], []⟩]), ("CATCH", [⟨"handler", "fail", [], []⟩])]⟩] }

theorem runCase_locates_recovery : ∃ r t x, runCase recovery none kiosk = (.done r, t) ∧
    r.steps.find? (·.isFatal) = some x ∧ ∃ a z : kiosk.machine.Activation, Locates r x a z := by
  obtain ⟨r, t, h, hr⟩ : ∃ r t, runCase recovery none kiosk = (.done r, t) ∧
      (r.status, (r.steps.find? (·.isFatal)).isSome) = (.failed, true) :=
    Action.exists_done_eq (by decide +kernel)
  obtain ⟨hstatus, hsome⟩ := Prod.mk.inj hr
  obtain ⟨x, hx⟩ := Option.isSome_iff_exists.mp hsome
  obtain ⟨row, c₀, -, -, a, z, -, hz⟩ := runCase_locates kiosk recovery none r t x h hstatus hx
  exact ⟨r, t, x, h, hx, a, z, hz⟩

/-- A case whose step fails, given an input in which a failure was caught. -/
def guarded : Case :=
  { (default : Case) with
    name := "guarded"
    steps := [⟨"pay", "fail",
      [("MESSAGE", .nested ⟨"guard", "try", [], [("TRY", [⟨"caught", "fail", [], []⟩])]⟩)], []⟩] }

/-- The report points at the failure that was caught, though the error names the step that has
failed. -/
theorem guarded_misleads : ∃ r t x y, runCase guarded none kiosk = (.done r, t) ∧
    r.status = .failed ∧ r.steps.find? (·.isFatal) = some x ∧ x.origin = some (.text "pay") ∧
    r.failedStep? = some y ∧ y.stepId = "caught" := by
  obtain ⟨r, t, h, hr⟩ : ∃ r t, runCase guarded none kiosk = (.done r, t) ∧
      (r.status, ((r.steps.find? (·.isFatal)).bind StepResult.origin).map (· == .text "pay"),
        r.failedStep?.map (·.stepId)) = (.failed, some true, some "caught") :=
    Action.exists_done_eq (by decide +kernel)
  obtain ⟨hstatus, hr⟩ := Prod.mk.inj hr
  obtain ⟨horigin, hstep⟩ := Prod.mk.inj hr
  obtain ⟨v, hv, hpay⟩ := Option.map_eq_some_iff.mp horigin
  obtain ⟨x, hx, hxv⟩ := Option.bind_eq_some_iff.mp hv
  obtain ⟨y, hy, hcaught⟩ := Option.map_eq_some_iff.mp hstep
  refine ⟨r, t, x, y, h, hstatus, hx, ?_, hy, hcaught⟩
  rw [hxv, (Value.beq_text v "pay").mp hpay]

end Session

end BlockSuite
