import BlockSuite.Proofs.Session.Trial

/-!
The steps that follow a case. Once the hooks before a case have come to their end, the record of the
case has the results of the lists before it up to the first that fails or skips, and behind them
those of the two lists that follow it, each from its beginning. Only where the result of a step is
lost does the run break off before: there is a hook that fails on being shown the result, and a
record of that failure that cannot be written.
-/

namespace BlockSuite

namespace Machine

open BlockSuite.Action (Meets)

lemma ofExecutors_tells {executors : Dict (Run Answer)} {hooks : List Hooks}
    (h : ∀ e ∈ executors, Meets recording e.2) (hh : ∀ k ∈ hooks, k.beforeStep = none) :
    Tells { ofExecutors executors with hooks } where
  executor type block hb params := by
    obtain ⟨e, he, hexec⟩ := ofExecutors_lookup hb
    rw [hexec]
    exact h e he
  beforeStep k hk f hf := by
    rw [hh k hk] at hf
    cases hf

end Machine

namespace Session

open BlockSuite.Context (SameDepth)
open BlockSuite.Trial (Course BreaksOff UpToFirst firstFailure)

variable {s s' : Session} {k : Case} {c c₀ : Context} {r : TestResult}
  {position : Option Position} {row : Option Row}

/-- The record of a case is that of a run in which all lists have come to their results. -/
structure Records (s : Session) (course : Course s.machine s.suite k c₀) (r : TestResult) :
    Prop where
  steps : r.steps = course.main ++ course.caseEnd ++ course.suiteEnd
  collected : r.softErrors = course.final.softErrors
  passed : r.status = .passed ↔
    (∀ x ∈ course.results, x.breaks = false) ∧ course.final.softErrors = []
  failed : ∀ x, firstFailure course.results = some x → x.isFatal = true →
    r.status = .failed ∧ r.error = x.error

/-- A run of a case that has a record has come to all its results, or it has broken off. -/
lemma Recorded.course {r₀ : TestResult} (h : s.Recorded k r₀ c r)
    (hooked : s.opensCase k c = (.done (), c₀)) :
    (∃ course : Course s.machine s.suite k c₀, s.Records course r) ∨
      ∃ f rs, BreaksOff s.machine s.suite k c₀ f rs ∧ r.steps = rs ∧ r.status = .error := by
  cases h with
  | settled hooked' course verdict =>
    rw [hooked] at hooked'
    cases hooked'
    refine .inl ⟨course, rfl, rfl, ?_, fun x hx hf => verdict.of_fatal hx hf⟩
    rw [verdict.passed_iff, Trial.firstFailure_none]
  | broken hooked' lost told =>
    rw [hooked] at hooked'
    cases hooked'
    exact .inr ⟨_, _, lost, rfl, rfl⟩
  | unhooked failed told =>
    rw [hooked] at failed
    cases failed

/-- **The steps that follow a case always run, unless a result is lost.** A case is run with hooks
before it that come to their end, and what is raised are texts. Its record has the results of the
lists of steps before it and of its own up to the first that fails or skips, then those of the two
lists that follow; it tells of success if none of them fails or skips and nothing was collected, and
of the first failure if that is no skip. Otherwise the run has broken off at a list that loses the
result of a step. Where the records of the run can be written, and what is attached to the session
leaves alone what they are marked with, no result is lost and the case does have a record. Where the
number of open frames is left alone, each list runs up to its first result that fails or skips. -/
theorem runCase_records (s : Session) (k : Case) (position : Option Position) (row : Option Row)
    (c₀ : Context) (ready : s.setupError = none)
    (picked : position.mapM (fun p => p.pick k.data) = .ok row)
    (hooked : s.opensCase k (s.forked k position row) = (.done (), c₀))
    (texts : s.machine.Tells) :
    (∀ r s', runCase k position s = (.done r, s') →
      (∃ course : Course s.machine s.suite k c₀, s.Records course r) ∨
      ∃ f rs, BreaksOff s.machine s.suite k c₀ f rs ∧ r.steps = rs ∧ r.status = .error) ∧
    (∀ steps c, (∃ f c', s.machine.runSteps steps c = (.failed f, c')) ↔
      s.machine.Loses steps c) ∧
    (s.Spares → c₀.Loggable → ∀ o s', runCase k position s = (o, s') → o ≠ .exhausted →
      ∃ r, o = .done r ∧ ∃ course : Course s.machine s.suite k c₀, s.Records course r) ∧
    (s.machine.Respects SameDepth → ∀ steps c rs c', c.callDepth = 0 →
      s.machine.runSteps steps c = (.done rs, c') →
      UpToFirst s.machine steps c rs c' ∧ c'.callDepth = 0) := by
  have hrecord (r s') (h : runCase k position s = (.done r, s')) :
      (∃ course : Course s.machine s.suite k c₀, s.Records course r) ∨
      ∃ f rs, BreaksOff s.machine s.suite k c₀ f rs ∧ r.steps = rs ∧ r.status = .error := by
    rcases runCase_done h with ⟨hs, -⟩ | ⟨-, row', hp, hrec⟩
    · rw [ready] at hs
      cases hs
    · rw [picked] at hp
      cases hp
      exact hrec.course hooked
  refine ⟨hrecord, fun steps c => Machine.runSteps_failed_iff texts, ?_, ?_⟩
  · intro hspares hlog o s' h ho
    rw [runCase_run ready picked] at h
    rcases hrun : runTrial s k ⟨s.forked k position row, blank k position⟩ with ⟨o₁, t⟩
    rw [hrun] at h
    cases o₁ with
    | done u =>
      cases h
      refine ⟨_, rfl, ?_⟩
      rcases (runTrial_done rfl rfl rfl hrun).course hooked with hcourse | ⟨f, rs, hlost, -⟩
      · exact hcourse
      · exact absurd hlog (hlost.not_loggable texts hspares.machine)
    | failed f => exact absurd hrun (runTrial_not_failed hspares texts rfl rfl hooked hlog)
    | exhausted =>
      cases h
      exact absurd rfl ho
  · intro hdepth steps c rs c' hc h
    have hkeep := Machine.runSteps_keeps Machine.sameDepth_harmless hdepth steps _ _ _ h (by simp)
    exact ⟨Trial.runSteps_upToFirst hdepth hc h, hkeep.trans hc⟩

/-- A till with steps that note something and steps that fail. -/
def tillExecutors : Dict (Run Answer) :=
  [("note", return .value .null), ("fail", Action.fail (.raised (.leaf "broken")))]

lemma tillExecutors_tell : ∀ e ∈ tillExecutors, Action.Meets Machine.recording e.2 := by
  have hbroken : (Failure.raised (.of (.leaf none none) "broken")).Recordable :=
    Failure.recordable_text rfl _
  intro e he
  rcases List.mem_cons.mp he with rfl | he
  · exact fun c => ⟨trivial, trivial⟩
  · rw [List.mem_singleton.mp he]
    exact fun c => ⟨trivial, hbroken⟩

/-- A sale that fails, with a step behind it. -/
def failing : Case :=
  { (default : Case) with
    name := "sale"
    steps := [⟨"pay", "fail", [], []⟩]
    afterEach := [⟨"clean", "note", [], []⟩] }

theorem runCase_records_failing :
    let s := ofExecutors tillExecutors [] Machine.silent
    ∃ r t, runCase failing none s = (.done r, t) ∧
      ((∃ course : Course s.machine s.suite failing (s.forked failing none none),
        s.Records course r) ∨
      ∃ f rs, BreaksOff s.machine s.suite failing (s.forked failing none none) f rs ∧
        r.steps = rs ∧ r.status = .error) := by
  intro s
  obtain ⟨r, t, h⟩ := Action.exists_done (x := runCase failing none) (s := s) (by decide +kernel)
  have hhooks : ∀ k ∈ ([] : List Hooks), k.beforeStep = none := by simp
  have htells : s.machine.Tells := Machine.ofExecutors_tells tillExecutors_tell hhooks
  exact ⟨r, t, h, (runCase_records s failing none none _ rfl rfl rfl htells).1 r t h⟩

/-- A case with a percent sign in its name, and a step behind it. -/
def halfDone : Case :=
  { (default : Case) with
    name := "50% done"
    steps := [⟨"pay", "note", [], []⟩]
    afterEach := [⟨"clean", "note", [], []⟩] }

/-- A hook that fails on being shown the result of a step. -/
def blind : Hooks := { afterStep := some fun _ _ => Action.fail (.raised (.leaf "blind")) }

/-- A till that such a hook watches. -/
def watched : Session := ofExecutors tillExecutors [blind] {}

/-- A hook that fails ends the case with the percent sign: the steps behind it do not run, and
nothing is on record. -/
theorem halfDone_breaks_off :
    watched.setupError = none ∧ watched.machine.Tells ∧
    ∃ c₀ r t, watched.opensCase halfDone (watched.forked halfDone none none) = (.done (), c₀) ∧
      runCase halfDone none watched = (.done r, t) ∧ r.status = .error ∧ r.steps = [] ∧
      ∀ course : Course watched.machine watched.suite halfDone c₀, ¬watched.Records course r := by
  obtain ⟨r, t, h, hr⟩ : ∃ r t, runCase halfDone none watched = (.done r, t) ∧
      (r.status, r.steps.length, r.softErrors.length) = (.error, 0, 0) :=
    Action.exists_done_eq (by decide +kernel)
  obtain ⟨hstatus, hr⟩ := Prod.mk.inj hr
  obtain ⟨hsteps, hsoft⟩ := Prod.mk.inj hr
  rw [List.length_eq_zero_iff] at hsteps hsoft
  have hhooks : ∀ k ∈ [blind], k.beforeStep = none := by
    intro k hk
    rw [List.mem_singleton.mp hk]
    rfl
  have htells : watched.machine.Tells := Machine.ofExecutors_tells tillExecutors_tell hhooks
  refine ⟨rfl, htells, _, r, t, rfl, h, hstatus, hsteps, fun course hrec => ?_⟩
  have hresults : course.results = [] := hrec.steps.symm.trans hsteps
  have hpassed := hrec.passed.mpr ⟨by simp [hresults], hrec.collected.symm.trans hsoft⟩
  rw [hstatus] at hpassed
  cases hpassed

end Session

end BlockSuite
