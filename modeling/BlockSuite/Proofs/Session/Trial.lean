import BlockSuite.Block.Declare
import BlockSuite.Proofs.Session.Course

/-!
The record of a case. A run of a case has a result when the hooks before it have come to their end
and all lists that are run come to theirs: the record holds the results of the lists in order, and
the status tells of the first one that fails or skips, or of the failures that were collected. A
skip takes the place of all that fails behind it.
-/

namespace BlockSuite

namespace Session

open BlockSuite.Action (Keeps)
open BlockSuite.Context (SameMarks SameDepth)
open BlockSuite.Trial (Course BreaksOff Verdict firstFailure)

variable {s s' : Session} {k : Case} {c c₀ : Context} {t t' : Trial} {r : TestResult}

/-- The hooks that are called before a case. -/
def opensCase (s : Session) (k : Case) : Run Unit :=
  Hooks.runAll s.environment.hooks fun h => h.beforeTest.map fun f => f k

/-- The hooks that are shown the result of a case. -/
def shows (s : Session) (k : Case) (r : TestResult) : Run Unit :=
  Hooks.runAll s.environment.hooks fun h => h.afterTest.map fun f => f k r

/-- Closes the record of a case that has failed. What goes wrong with that is kept for later. -/
def closing : Except Failure Unit → Trial.Act (Except Failure Unit)
  | .ok _ => pure (.ok ())
  | .error f => do
    Trial.inContext (Context.log .error "Test case raised an unexpected error" [])
    Trial.note fun r => { r with status := .error }
    Action.attempt (Trial.close .error (some f))

/-- Shows the record of a case to the hooks; what they fail with is logged. -/
def showing (s : Session) (k : Case) : Trial.Act Unit := do
  let r := (← Action.get).result
  match ← Action.attempt (Trial.inContext (s.shows k r)) with
  | .ok _ => pure ()
  | .error _ => Trial.inContext (Context.log .error "Hook after_test failed" [])

lemma runTrial_eq (s : Session) (k : Case) : runTrial s k =
    (do
      let outcome ← Action.attempt do
        Trial.inContext (s.opensCase k)
        Trial.run s.machine s.suite k
      let closed ← closing outcome
      s.showing k
      Action.lift closed) := by
  have hend (closed : Except Failure Unit) : (do
      let r := (← Action.get).result
      match ← Action.attempt (Trial.inContext (s.shows k r)) with
      | .ok _ => Action.lift closed
      | .error _ => do
        Trial.inContext (Context.log .error "Hook after_test failed" [])
        Action.lift closed : Trial.Act Unit) = (do s.showing k; Action.lift closed) := by
    simp only [showing, bind_assoc]
    refine bind_congr fun t => bind_congr fun outcome => ?_
    cases outcome <;> rfl
  simp only [← hend]
  refine bind_congr fun outcome => ?_
  cases outcome with
  | ok _ => rfl
  | error f =>
    simp only [closing, bind_assoc]
    rfl

/-- The hooks that are shown a record do not change it. -/
lemma showing_cases {o : Outcome Unit} (h : s.showing k t = (o, t')) :
    t'.result = t.result ∧ (o = .done () ∨ o = .exhausted ∨
      ∃ e c f, s.shows k t.result t.context = (.failed e, c) ∧ o = .failed f ∧ ¬c.Loggable) := by
  rw [showing, Action.bind_of_done (Action.get_run t)] at h
  rcases hshow : s.shows k t.result t.context with ⟨_ | e | _, c⟩
  · have hin := Action.attempt_of_done (Trial.inContext_run (t := t) hshow)
    rw [Action.bind_of_done hin] at h
    cases h
    exact ⟨rfl, .inl rfl⟩
  · have hin := Action.attempt_of_failed (Trial.inContext_run (t := t) hshow)
    rw [Action.bind_of_done hin] at h
    change Trial.inContext (Context.log .error "Hook after_test failed" []) _ = _ at h
    rcases c.log_cases .error "Hook after_test failed" [] rfl with
      ⟨c', hlog⟩ | ⟨f, c', hlog, hmute⟩
    · rw [Trial.inContext_run hlog] at h
      cases h
      exact ⟨rfl, .inl rfl⟩
    · rw [Trial.inContext_run hlog] at h
      cases h
      exact ⟨rfl, .inr (.inr ⟨e, c, f, rfl, rfl, hmute⟩)⟩
  · have hin := Action.attempt_of_exhausted (Trial.inContext_run (t := t) hshow)
    rw [Action.bind_of_exhausted hin] at h
    cases h
    exact ⟨rfl, .inr (.inl rfl)⟩

/-- The record of a case that has failed is closed with the failure. -/
lemma closing_done {f : Failure} (h : closing (.error f) t = (.done (.ok ()), t')) :
    ∃ i, f.info = .ok i ∧ t'.result = (t.closed .error (some i)).result := by
  obtain ⟨_, t₁, hlog, h⟩ := Action.bind_done h
  obtain ⟨_, t₂, hnote, h⟩ := Action.bind_done h
  cases hnote
  have hresult := (Trial.inContext_eq hlog).2
  cases hi : f.info with
  | ok i =>
    rw [Action.attempt_of_done (Trial.close_some hi _ _)] at h
    cases h
    exact ⟨i, rfl, by simp only [Trial.closed, hresult]⟩
  | error e =>
    rw [Action.attempt_of_failed (Trial.close_failed hi _ _)] at h
    cases h

/-- The record of a case before it is run. -/
def blank (k : Case) (position : Option Position) : TestResult :=
  { testId := k.key, testName := k.runName position, row := position.map Position.index }

/-- The context in which a case is run. -/
def forked (s : Session) (k : Case) (position : Option Position) (row : Option Row) : Context :=
  s.context.fork ((row.map (·.values)).getD []) row position
    (some (k.soft.getD s.environment.settings.soft)) (some k.name)

/-- How the record of a case that is run in a context comes about. -/
inductive Recorded (s : Session) (k : Case) (r₀ : TestResult) (c : Context) : TestResult → Prop
  | settled {c₀ : Context} {status : Status} {error : Option ErrorInfo}
    (hooked : s.opensCase k c = (.done (), c₀)) (course : Course s.machine s.suite k c₀)
    (verdict : Verdict (firstFailure course.results) course.final.softErrors status error) :
    Recorded s k r₀ c { r₀ with
      steps := course.results
      status
      error
      finished := true
      softErrors := course.final.softErrors }
  | broken {c₀ : Context} {f : Failure} {rs : List StepResult} {i : ErrorInfo}
    (hooked : s.opensCase k c = (.done (), c₀)) (lost : BreaksOff s.machine s.suite k c₀ f rs)
    (told : f.info = .ok i) :
    Recorded s k r₀ c { r₀ with steps := rs, status := .error, error := some i, finished := true }
  | unhooked {c₁ : Context} {f : Failure} {i : ErrorInfo}
    (failed : s.opensCase k c = (.failed f, c₁)) (told : f.info = .ok i) :
    Recorded s k r₀ c { r₀ with status := .error, error := some i, finished := true }

/-- A run of a case that has a record has one of three kinds. -/
lemma runTrial_done {r₀ : TestResult} (hsteps : r₀.steps = []) (he : r₀.error = none)
    (hs : r₀.softErrors = []) (h : runTrial s k ⟨c, r₀⟩ = (.done (), t')) :
    s.Recorded k r₀ c t'.result := by
  rw [runTrial_eq] at h
  obtain ⟨outcome, t₁, hrun, h⟩ := Action.bind_done h
  obtain ⟨closed, t₂, hclosing, h⟩ := Action.bind_done h
  obtain ⟨_, t₃, hshowing, h⟩ := Action.bind_done h
  cases closed with
  | error e => cases h
  | ok u =>
  cases h
  rw [(showing_cases hshowing).1]
  cases outcome with
  | ok u =>
    cases hclosing
    obtain ⟨_, t₄, hhook, hrun⟩ := Action.bind_done (Action.attempt_ok hrun)
    obtain ⟨hhooked, hr⟩ := Trial.inContext_eq hhook
    rcases Trial.run_cases (by rw [hr, he]) (by rw [hr, hs]) hrun with
      ⟨course, status, error, hverdict, -, ht⟩ | ⟨f, rs, c', -, ho, -⟩ | ho
    · rw [ht]
      simp only [Trial.closed, Trial.told, Trial.adding, hr, hsteps, List.nil_append]
      exact .settled hhooked course hverdict
    · cases ho
    · cases ho
  | error f =>
    obtain ⟨i, hi, hresult⟩ := closing_done hclosing
    rw [hresult]
    rcases Action.bind_cases (Action.attempt_error hrun) with ⟨_, t₄, hhook, hrun⟩ | ⟨o, hhook, hb⟩
    · obtain ⟨hhooked, hr⟩ := Trial.inContext_eq hhook
      rcases Trial.run_cases (by rw [hr, he]) (by rw [hr, hs]) hrun with
        ⟨course, status, error, -, ho, -⟩ | ⟨f', rs, c', hlost, ho, ht⟩ | ho
      · cases ho
      · cases ho
        rw [ht]
        simp only [Trial.closed, Trial.adding, hr, hsteps, List.nil_append]
        exact .broken hhooked hlost hi
      · cases ho
    · obtain rfl := hb.of_failed
      obtain ⟨hfailed, hr⟩ := Trial.inContext_eq hhook
      simp only [Trial.closed, hr]
      exact .unhooked hfailed hi

/-- What is attached to a session leaves alone what the records of a run are marked with. -/
structure Spares (s : Session) : Prop where
  machine : s.machine.Respects SameMarks
  afterTest : ∀ h ∈ s.environment.hooks, ∀ f, h.afterTest = some f →
    ∀ k r, Keeps SameMarks (f k r)

lemma Spares.shows (hs : s.Spares) (k : Case) (r : TestResult) : Keeps SameMarks (s.shows k r) := by
  refine Machine.runAll_keeps Machine.sameMarks_harmless fun h hh f hf => ?_
  exact hs.afterTest h hh f hf k r

/-- Where the records of the run can be written, a run of a case does not fail. -/
lemma runTrial_not_failed (hs : s.Spares) (ht : s.machine.Tells) {r₀ : TestResult}
    (he : r₀.error = none) (hsoft : r₀.softErrors = [])
    (hooked : s.opensCase k c = (.done (), c₀)) (hc : c₀.Loggable) {f : Failure} :
    runTrial s k ⟨c, r₀⟩ ≠ (.failed f, t') := by
  intro h
  rw [runTrial_eq] at h
  have hhook := Trial.inContext_run (t := ⟨c, r₀⟩) hooked
  rcases hrun : Trial.run s.machine s.suite k ⟨c₀, r₀⟩ with ⟨o, t₁⟩
  have hall := (Action.bind_of_done hhook fun _ => Trial.run s.machine s.suite k).trans hrun
  rcases Trial.run_cases he hsoft hrun with
    ⟨course, status, error, -, rfl, ht₁⟩ | ⟨f', rs, c', hlost, -, -⟩ | rfl
  · rw [Action.bind_of_done (Action.attempt_of_done hall)] at h
    change (do s.showing k; Action.lift (.ok ()) : Trial.Act Unit) t₁ = _ at h
    rcases Action.bind_cases h with ⟨_, t₂, -, h⟩ | ⟨o, hshowing, hb⟩
    · cases h
    · obtain rfl := hb.of_failed
      obtain ⟨-, hfailed⟩ := showing_cases hshowing
      rcases hfailed with ho | ho | ⟨e, c₁, f', hshows, -, hmute⟩
      · cases ho
      · cases ho
      · have hrun := course.keeps Machine.sameMarks_harmless hs.machine
        have hshown := hs.shows k t₁.result _ _ _ hshows (by simp)
        rw [ht₁] at hshown
        exact hmute ((hc.congr hrun).congr ⟨hshown.test, hshown.row⟩)
  · exact hlost.not_loggable ht hs.machine hc
  · rw [Action.bind_of_exhausted (Action.attempt_of_exhausted hall)] at h
    cases h

/-! ### Runs of cases -/

variable {position : Option Position} {row : Option Row}

lemma compute_ok {α : Type} {e : Except Fault α} {a : α} (h : e = .ok a) (s : Session) :
    (Action.compute e : Act α) s = (.done a, s) := by
  rw [h]
  rfl

/-- What a session takes over from a run of a case: what all contexts share, and the record. -/
def takeOver (ran : Outcome Unit × Trial) : Act TestResult := do
  Action.modify fun s => { s with context := { s.context with shared := ran.2.context.shared } }
  match ran.1 with
  | .done _ => return ran.2.result
  | .failed f => Action.fail f
  | .exhausted => Action.exhaust

lemma runCase_run (hs : s.setupError = none)
    (hp : position.mapM (fun p => p.pick k.data) = .ok row) :
    runCase k position s =
      takeOver (runTrial s k ⟨s.forked k position row, blank k position⟩) s := by
  rw [runCase, Action.bind_of_done (Action.get_run s), Action.bind_of_done (compute_ok hp s),
    if_neg (by simp [hs])]
  rfl

lemma runCase_notRun (hs : s.setupError.isSome = true)
    (hp : position.mapM (fun p => p.pick k.data) = .ok row) :
    runCase k position s = (.done (notRun (blank k position)), s) := by
  rw [runCase, Action.bind_of_done (Action.get_run s), Action.bind_of_done (compute_ok hp s),
    if_pos hs]
  rfl

/-- A case that has a result was left out since the phase before all cases has failed, or it was
run. -/
lemma runCase_done (h : runCase k position s = (.done r, s')) :
    (s.setupError.isSome = true ∧ r = notRun (blank k position)) ∨
      s.setupError = none ∧ ∃ row, position.mapM (fun p => p.pick k.data) = .ok row ∧
        s.Recorded k (blank k position) (s.forked k position row) r := by
  cases hp : position.mapM (fun p => p.pick k.data) with
  | error f =>
    rw [runCase, Action.bind_of_done (Action.get_run s), hp] at h
    cases h
  | ok row =>
    cases hs : s.setupError with
    | some e =>
      rw [runCase_notRun (by simp [hs]) hp] at h
      cases h
      exact .inl ⟨rfl, rfl⟩
    | none =>
      rw [runCase_run hs hp] at h
      rcases hrun : runTrial s k ⟨s.forked k position row, blank k position⟩ with ⟨o, t⟩
      rw [hrun] at h
      cases o with
      | done u =>
        cases h
        exact .inr ⟨rfl, row, rfl, runTrial_done rfl rfl rfl hrun⟩
      | failed f => cases h
      | exhausted => cases h

/-! ### What a record hides -/

/-- A record that tells of no failure hides nothing unless it tells of a skip. -/
lemma Recorded.passed {r₀ : TestResult} (h : s.Recorded k r₀ c r) (hr : r.status = .passed) :
    r.softErrors = [] ∧ ∀ x ∈ r.steps, x.breaks = false := by
  cases h with
  | settled hooked course verdict =>
    obtain ⟨hfirst, hsoft⟩ := verdict.passed_iff.mp hr
    exact ⟨hsoft, Trial.firstFailure_none.mp hfirst⟩
  | broken hooked lost told => cases hr
  | unhooked failed told => cases hr

/-- The record tells of a skip exactly if the first result that fails or skips is one. -/
lemma Recorded.skipped_iff {r₀ : TestResult} (h : s.Recorded k r₀ c r) :
    r.status = .skipped ↔
      r.status ≠ .error ∧ ∃ x, firstFailure r.steps = some x ∧ x.isSkipped = true := by
  cases h with
  | settled hooked course verdict =>
    rw [verdict.skipped_iff]
    exact ⟨fun h => ⟨verdict.ne_error, h⟩, fun h => h.2⟩
  | broken hooked lost told => simp
  | unhooked failed told => simp

/-- A skip stands for itself: none of the results before the steps that follow the case fails. -/
lemma Recorded.of_skipped {r₀ : TestResult} (h : s.Recorded k r₀ c r) (hr : r.status = .skipped) :
    ∃ c₀, ∃ course : Course s.machine s.suite k c₀, r.steps = course.results ∧
      ∀ y ∈ course.main, y.isFatal = false := by
  obtain ⟨-, x, hx, hskip⟩ := h.skipped_iff.mp hr
  cases h with
  | settled hooked course verdict =>
    refine ⟨_, course, rfl, fun y hy => ?_⟩
    by_contra hf
    have hfatal : y.isFatal = true := by simpa using hf
    have hy := Trial.firstFailure_last course.mainRan.dropLast hy
      (StepResult.breaks_iff.mpr (.inl hfatal))
    have hfirst : firstFailure course.results = some y := by
      rw [Course.results, List.append_assoc, Trial.firstFailure_append, hy]
      rfl
    rw [hfirst] at hx
    cases hx
    rw [Machine.isSkipped_of_isFatal hfatal] at hskip
    cases hskip
  | broken hooked lost told => cases hr
  | unhooked failed told => cases hr

/-- **What a record that tells of no failure can hide.** One that tells of success hides nothing.
One that tells of a skip hides a failure exactly if the first result that fails or skips is that
skip, and something was collected or a result behind it fails; only steps that follow the case can
fail there. -/
theorem runCase_hides_iff (s : Session) (k : Case) (position : Option Position) (r : TestResult)
    (s' : Session) (h : runCase k position s = (.done r, s')) :
    (r.status = .passed → r.softErrors = [] ∧ ∀ x ∈ r.steps, x.breaks = false) ∧
    ((r.status = .passed ∨ r.status = .skipped) ∧
        (r.softErrors ≠ [] ∨ ∃ x ∈ r.steps, x.isFatal = true) ↔
      r.status ≠ .error ∧ ∃ pre x rest, r.steps = pre ++ x :: rest ∧
        (∀ y ∈ pre, y.breaks = false) ∧ x.isSkipped = true ∧
        (r.softErrors ≠ [] ∨ ∃ y ∈ rest, y.isFatal = true)) ∧
    (r.status = .skipped → s.setupError.isSome = true ∨
      ∃ c₀, ∃ course : Course s.machine s.suite k c₀, r.steps = course.results ∧
        ∀ y ∈ course.main, y.isFatal = false) := by
  rcases runCase_done h with ⟨hs, rfl⟩ | ⟨-, row, -, hrec⟩
  · refine ⟨by simp [notRun], ?_, fun _ => .inl hs⟩
    simp [notRun, blank]
  refine ⟨hrec.passed, ⟨?_, ?_⟩, fun hr => .inr (hrec.of_skipped hr)⟩
  · rintro ⟨hgreen, hhides⟩
    rcases hgreen with hr | hr
    · obtain ⟨hsoft, hcalm⟩ := hrec.passed hr
      rcases hhides with hne | ⟨x, hx, hf⟩
      · exact absurd hsoft hne
      · exact absurd hf (StepResult.not_fatal (hcalm x hx))
    · obtain ⟨hne, x, hx, hskip⟩ := hrec.skipped_iff.mp hr
      obtain ⟨pre, rest, hsteps, hpre⟩ := Trial.firstFailure_split hx
      refine ⟨hne, pre, x, rest, hsteps, hpre, hskip, hhides.imp id fun ⟨y, hy, hf⟩ => ?_⟩
      refine ⟨y, ?_, hf⟩
      rw [hsteps] at hy
      rcases List.mem_append.mp hy with hy | hy
      · exact absurd hf (StepResult.not_fatal (hpre y hy))
      · rcases List.mem_cons.mp hy with rfl | hy
        · rw [Machine.isSkipped_of_isFatal hf] at hskip
          cases hskip
        · exact hy
  · rintro ⟨hne, pre, x, rest, hsteps, hpre, hskip, hhides⟩
    have hfirst : firstFailure r.steps = some x := by
      rw [hsteps]
      exact Trial.firstFailure_eq_some hpre (StepResult.breaks_iff.mpr (.inr hskip))
    refine ⟨.inr (hrec.skipped_iff.mpr ⟨hne, x, hfirst, hskip⟩), hhides.imp id ?_⟩
    rintro ⟨y, hy, hf⟩
    refine ⟨y, ?_, hf⟩
    rw [hsteps]
    exact List.mem_append_right _ (List.mem_cons_of_mem _ hy)

/-- A session of a suite with blocks that are given by what they do. -/
def ofExecutors (executors : Dict (Run Answer)) (hooks : List Hooks) (context : Context) :
    Session where
  suite := { (default : Suite) with name := "Shop" }
  environment := { blocks := (Machine.ofExecutors executors).blocks, hooks }
  context

/-- A session of a till that finds a wrong total, and then closes. -/
def till : Session :=
  ofExecutors
    [("check", Block.asserting
      (fun _ => return { holds := false, message := .text "wrong total" }) []),
      ("close", Action.fail (.skip (.text "closed")))] [] Machine.silent

/-- A case with soft assertions that checks the total and is skipped behind that. -/
def sale : Case :=
  { (default : Case) with
    name := "sale"
    soft := some true
    steps := [⟨"check", "check", [], []⟩, ⟨"stop", "close", [], []⟩] }

lemma sale_done : ∃ r t, runCase sale none till = (.done r, t) ∧
    (r.status, r.softErrors.map (·.message)) = (.skipped, ["wrong total"]) :=
  Action.exists_done_eq (by decide +kernel)

theorem runCase_hides_iff_till : ∃ r t, runCase sale none till = (.done r, t) ∧
    r.status ≠ .error ∧ ∃ pre x rest, r.steps = pre ++ x :: rest ∧
      (∀ y ∈ pre, y.breaks = false) ∧ x.isSkipped = true ∧
      (r.softErrors ≠ [] ∨ ∃ y ∈ rest, y.isFatal = true) := by
  obtain ⟨r, t, h, hr⟩ := sale_done
  obtain ⟨hstatus, hsoft⟩ := Prod.mk.inj hr
  refine ⟨r, t, h, (runCase_hides_iff till sale none r t h).2.1.mp ⟨.inr hstatus, .inl ?_⟩⟩
  intro hnil
  rw [hnil] at hsoft
  cases hsoft

/-- The record of the sale tells of the skip alone, though a failure was collected. -/
theorem skipped_sale_hides : ∃ r t, runCase sale none till = (.done r, t) ∧
    r.status = .skipped ∧ r.softErrors.map (·.message) = ["wrong total"] := by
  obtain ⟨r, t, h, hr⟩ := sale_done
  exact ⟨r, t, h, (Prod.mk.inj hr).1, (Prod.mk.inj hr).2⟩

end Session

end BlockSuite
