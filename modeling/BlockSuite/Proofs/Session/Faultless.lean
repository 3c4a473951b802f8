import BlockSuite.Proofs.Machine.Faultless
import BlockSuite.Proofs.Session.Shape
import Mathlib.Data.List.Forall2

/-!
Verdicts on runs without failures. Where hooks do not fail, and no step has a result that tells of a
failure, every case passes or is skipped. The phases around the cases are another matter: one whose
steps end with a skip is reported as an error, though nothing has failed. But for that, only what
hooks collect or what cannot be put on record gives a result that tells of a failure.
-/

namespace BlockSuite

open BlockSuite.Action (Keeps Meets)
open BlockSuite.Context (StaysClear staysClear_lenient)

/-! ### What is attached to an environment -/

namespace Environment

/-- No hook ever fails, those aside that are shown the results of cases. -/
structure Unfailing (e : Environment) : Prop where
  beforeAll : ∀ h ∈ e.hooks, ∀ f, h.beforeAll = some f → ∀ suite, Meets unfailing (f suite)
  afterAll : ∀ h ∈ e.hooks, ∀ f, h.afterAll = some f → ∀ suite, Meets unfailing (f suite)
  beforeTest : ∀ h ∈ e.hooks, ∀ f, h.beforeTest = some f → ∀ k, Meets unfailing (f k)
  beforeStep : ∀ h ∈ e.hooks, ∀ f, h.beforeStep = some f → ∀ step, Meets unfailing (f step)
  afterStep : ∀ h ∈ e.hooks, ∀ f, h.afterStep = some f → ∀ step r, Meets unfailing (f step r)

/-- What executors raise can be recorded. -/
def RaisesTexts (e : Environment) : Prop :=
  ∀ type block, e.blocks.lookup type = some block →
    ∀ params, Meets Machine.recording (block.executor params)

/-- Hooks collect nothing while a case is run. -/
structure CollectsNothing (e : Environment) : Prop extends e.machine.CollectsNothing where
  beforeTest : ∀ h ∈ e.hooks, ∀ f, h.beforeTest = some f → ∀ k, Keeps StaysClear (f k)

lemma Unfailing.tells {e : Environment} (he : e.Unfailing) (ht : e.RaisesTexts) :
    e.machine.Tells where
  executor := ht
  beforeStep h hh f hf step c := by
    have hmeets := he.beforeStep h hh f hf step c
    rcases hx : f step c with ⟨u | e | _, c'⟩
    · exact ⟨trivial, trivial⟩
    · rw [hx] at hmeets
      exact hmeets.2.elim
    · trivial

end Environment

namespace Trial

variable {m : Machine} {lists : List (List Step)} {suite : Suite} {k : Case} {c c' : Context}
  {rs : List StepResult} {f : Failure}

/-! ### The lists of a case -/

lemma UntilLost.comes (h : UntilLost m lists c rs f) :
    ∃ steps c₁ c₂, Comes m lists c steps c₁ ∧ m.runSteps steps c₁ = (.failed f, c₂) := by
  induction h with
  | here lost rest => exact ⟨_, _, _, .here _ _ _, lost⟩
  | next ran calm tail ih =>
    obtain ⟨steps, c₁, c₂, hcomes, hlost⟩ := ih
    exact ⟨steps, c₁, c₂, .later ran calm hcomes, hlost⟩

/-- A run of a case breaks off at one of the lists that it comes to. -/
lemma BreaksOff.comes (h : BreaksOff m suite k c f rs) :
    ∃ steps c₁ c₂, Lists m suite k c steps c₁ ∧ m.runSteps steps c₁ = (.failed f, c₂) := by
  cases h with
  | main lost =>
    obtain ⟨steps, c₁, c₂, hcomes, hlost⟩ := lost.comes
    exact ⟨steps, c₁, c₂, .main hcomes, hlost⟩
  | caseEnd main lost => exact ⟨_, _, _, .caseEnd main, lost⟩
  | suiteEnd main caseEnd lost => exact ⟨_, _, _, .suiteEnd main caseEnd, lost⟩

variable (hm : m.CollectsNothing)
include hm

lemma Until.staysClear (h : Until m lists c rs c')
    (hf : ∀ steps c₁, Comes m lists c steps c₁ → m.Faultless steps c₁)
    (hcalm : ∀ r ∈ rs, r.breaks = false) : StaysClear c c' := by
  induction h with
  | nil => exact id
  | stop ran breaks rest =>
    obtain ⟨r, hr, hbreaks⟩ := breaks
    rw [hcalm r hr] at hbreaks
    cases hbreaks
  | next ran calm tail ih =>
    refine staysClear_lenient.trans _ _ _ ((hf _ _ (.here _ _ _)).staysClear hm ran calm) ?_
    exact ih (fun steps c₁ hcomes => hf steps c₁ (.later ran calm hcomes))
      fun r hr => hcalm r (List.mem_append_right _ hr)

/-- A case without failures none of whose steps skips collects nothing. -/
lemma Course.staysClear (course : Course m suite k c)
    (hf : ∀ steps c₁, Lists m suite k c steps c₁ → m.Faultless steps c₁)
    (hcalm : ∀ r ∈ course.results, r.breaks = false) : StaysClear c course.final := by
  have hmain := course.mainRan.staysClear hm (fun steps c₁ hcomes => hf steps c₁ (.main hcomes))
    fun r hr => hcalm r (by simp [Course.results, hr])
  have hcase := (hf _ _ (.caseEnd course.mainRan)).staysClear hm course.caseEndRan
    fun r hr => hcalm r (by simp [Course.results, hr])
  have hsuite := (hf _ _ (.suiteEnd course.mainRan course.caseEndRan)).staysClear hm
    course.suiteEndRan fun r hr => hcalm r (by simp [Course.results, hr])
  exact fun h => hsuite (hcase (hmain h))

end Trial

namespace Session

open BlockSuite.Trial (firstFailure)

variable {s s' s₁ s₂ : Session} {k : Case} {position : Option Position} {r : TestResult}
  {name : String} {steps : List Step} {event : Hooks → Option (Suite → Run Unit)} {c c' : Context}

/-! ### Cases -/

/-- The verdict on a case without failures. -/
lemma runCase_faultless (he : s.environment.Unfailing)
    (hf : ∀ steps c, s.RunsIn k position steps c → s.machine.Faultless steps c)
    (h : runCase k position s = (.done r, s')) :
    r.status = .passed ∨ r.status = .skipped ∨
      (r.status = .error ∧ ¬s.environment.RaisesTexts) ∨
      (r.status = .failed ∧ ¬s.environment.CollectsNothing) := by
  rcases runCase_done h with ⟨-, rfl⟩ | ⟨ready, row, picked, hrecord⟩
  · exact .inr (.inl rfl)
  cases hrecord with
  | @settled c₀ status error hooked course verdict =>
    have hlists (steps : List Step) (c : Context)
        (hl : Trial.Lists s.machine s.suite k c₀ steps c) : s.machine.Faultless steps c :=
      hf steps c (.list ready picked hooked hl)
    generalize hfirst : firstFailure course.results = first at verdict
    generalize hsoft : course.final.softErrors = errors at verdict
    cases verdict with
    | passed => exact .inl rfl
    | skipped => exact .inr (.inl rfl)
    | @failed x _ fails =>
      obtain ⟨hx, -⟩ := Trial.firstFailure_some hfirst
      obtain ⟨steps, c₁, rs, c₂, hl, hran, hx⟩ := course.mem_lists hx
      rw [(hlists steps c₁ hl).not_fatal hran x hx] at fails
      cases fails
    | collected collects told =>
      refine .inr (.inr (.inr ⟨rfl, fun hcollect => collects ?_⟩))
      have hcalm := Trial.firstFailure_none.mp hfirst
      have hhooks : Keeps StaysClear (s.opensCase k) :=
        Machine.runAll_keeps Machine.staysClear_harmless fun h hh f hf =>
          hcollect.beforeTest h hh f hf k
      have hclear : StaysClear (s.forked k position row) c₀ := hhooks _ _ _ hooked (by simp)
      rw [← hsoft]
      exact course.staysClear hcollect.toCollectsNothing hlists hcalm (hclear rfl)
  | @broken c₀ f rs i hooked lost told =>
    obtain ⟨steps, c₁, c₂, hl, hlost⟩ := lost.comes
    refine .inr (.inr (.inl ⟨rfl, fun ht => ?_⟩))
    exact (hf steps c₁ (.list ready picked hooked hl)).not_failed (he.tells ht) he.afterStep hlost
  | unhooked failed told =>
    exact absurd failed (Hooks.runAll_not_failed fun h hh f hf => he.beforeTest h hh f hf k)

/-! ### Phases -/

lemma opens_not_failed
    (h : ∀ k ∈ s.environment.hooks, ∀ f, event k = some f → ∀ suite, Meets unfailing (f suite))
    {f : Failure} : s.opens event c ≠ (.failed f, c') :=
  Hooks.runAll_not_failed fun k hk f hf => h k hk f hf s.suite

/-- What a phase without failures gives is an error on account of a skip. -/
lemma runPhase_faultless (he : s.environment.Unfailing)
    (hopen : ∀ k ∈ s.environment.hooks, ∀ f, event k = some f → ∀ suite, Meets unfailing (f suite))
    (hf : ∀ c, s.opens event s.context = (.done (), c) → s.machine.Faultless steps c)
    (h : runPhase name steps event s = (.done (some r), s')) :
    (∃ c rs c' x i, s.opens event s.context = (.done (), c) ∧
      s.machine.runSteps steps c = (.done rs, c') ∧ firstFailure rs = some x ∧
      x.isSkipped = true ∧ r = s.phaseError name rs i) ∨
    (r.status = .error ∧ ¬s.environment.RaisesTexts) := by
  rcases (runPhase_cases h).2 with ⟨c, hooked, hend⟩ | ⟨f, c₁, hooked, -, -⟩ | ho
  · generalize ho : Outcome.done (some r) = o at hend
    cases hend with
    | quiet => cases ho
    | mute => cases ho
    | unfinished => cases ho
    | @broken rs x f i c' _ ran first failure told =>
      cases ho
      obtain ⟨hx, hbreaks⟩ := Trial.firstFailure_some first
      have hfatal := (hf c hooked).not_fatal ran x hx
      have hskip : x.isSkipped = true := by
        rwa [StepResult.breaks, hfatal, Bool.false_or] at hbreaks
      exact .inl ⟨c, rs, c', x, i, hooked, ran, first, hskip, rfl⟩
    | escaped ran told =>
      cases ho
      refine .inr ⟨rfl, fun ht => ?_⟩
      exact (hf c hooked).not_failed (he.tells ht) he.afterStep ran
  · exact absurd hooked (opens_not_failed hopen)
  · cases ho

/-- A phase whose steps skip gives an error. -/
lemma runPhase_skips {rs : List StepResult} {x : StepResult} {o : Option TestResult}
    (h : runPhase name steps event s = (.done o, s'))
    (hooked : s.opens event s.context = (.done (), c))
    (ran : s.machine.runSteps steps c = (.done rs, c')) (hx : x ∈ rs) (hskip : x.isSkipped = true) :
    ∃ i, o = some (s.phaseError name rs i) := by
  have hend := (runPhase_ends hooked h).1
  generalize ho : Outcome.done o = o' at hend
  cases hend with
  | quiet ran' calm =>
    cases ran.symm.trans ran'
    have hbreaks := calm x hx
    rw [StepResult.breaks, hskip, Bool.or_true] at hbreaks
    cases hbreaks
  | broken ran' =>
    cases ho
    cases ran.symm.trans ran'
    exact ⟨_, rfl⟩
  | escaped ran' => cases ran.symm.trans ran'
  | mute => cases ho
  | unfinished => cases ho

/-! ### The whole run -/

/-- The lists of steps that a run of a session comes to, and the contexts they are run in. -/
inductive Executes (s : Session) : List Step → Context → Prop
  | setup {c : Context} (hooked : s.opens Hooks.beforeAll s.context = (.done (), c)) :
    Executes s s.suite.beforeAll c
  | case {setup : Option TestResult} {s₁ s₂ : Session} {k : Case} {position : Option Position}
    {steps : List Step} {c : Context} (opened : beforeAll s = (.done setup, s₁))
    (turn : Turns s.suite.runs s₁ k position s₂) (runs : s₂.RunsIn k position steps c) :
    Executes s steps c
  | teardown {before : Except Failure (List TestResult)} {s₂ : Session} {c : Context}
    (opened : Action.attempt opening s = (.done before, s₂))
    (hooked : s₂.opens Hooks.afterAll s₂.context = (.done (), c)) : Executes s s.suite.afterAll c

/-- The results of the steps of a phase of a run. -/
inductive PhaseRan (s : Session) : String → List StepResult → Prop
  | setup {c c' : Context} {rs : List StepResult}
    (hooked : s.opens Hooks.beforeAll s.context = (.done (), c))
    (ran : s.machine.runSteps s.suite.beforeAll c = (.done rs, c')) : PhaseRan s "before_all" rs
  | teardown {before : Except Failure (List TestResult)} {s₂ : Session} {c c' : Context}
    {rs : List StepResult} (opened : Action.attempt opening s = (.done before, s₂))
    (hooked : s₂.opens Hooks.afterAll s₂.context = (.done (), c))
    (ran : s.machine.runSteps s.suite.afterAll c = (.done rs, c')) : PhaseRan s "after_all" rs

/-- How a result of a run without failures comes about. It tells of success or of a skip, unless it
is that of a phase whose steps end with a skip; what an executor raises cannot be recorded; or hooks
collect something. -/
inductive Reported (s : Session) : TestResult → Prop
  | passed {r : TestResult} (status : r.status = .passed) : Reported s r
  | skipped {r : TestResult} (status : r.status = .skipped) : Reported s r
  | phase {name : String} {rs : List StepResult} {x : StepResult} {i : ErrorInfo}
    (ran : s.PhaseRan name rs) (first : firstFailure rs = some x) (skips : x.isSkipped = true) :
    Reported s (s.phaseError name rs i)
  | unrecorded {r : TestResult} (status : r.status = .error)
    (raises : ¬s.environment.RaisesTexts) : Reported s r
  | collected {r : TestResult} (status : r.status = .failed)
    (collects : ¬s.environment.CollectsNothing) : Reported s r

/-- A result of some cases is that of one of their runs. -/
lemma runCases_mem {runs : List (Case × Option Position)} {rs : List TestResult}
    (h : runCases runs s = (.done rs, s')) (hr : r ∈ rs) :
    ∃ k position s₁ s₂, Turns runs s k position s₁ ∧ runCase k position s₁ = (.done r, s₂) := by
  let P (r : TestResult) : Prop :=
    ∃ k position s₁ s₂, Turns runs s k position s₁ ∧ runCase k position s₁ = (.done r, s₂)
  have hall : List.Forall₂ (fun r (_ : Case × Option Position) => P r ∧ True) rs runs :=
    ((runCases_done h).imp fun run r ⟨s₁, s₂, hturn, hran⟩ =>
      ⟨⟨run.1, run.2, s₁, s₂, hturn, hran⟩, trivial⟩).flip
  exact ((List.forall₂_and_left rs runs).mp hall).1 r hr

lemma Same.machine (h : s.Same s') : s'.machine = s.machine := by
  rw [Session.machine, Session.machine, h.environment]

section Reported

variable (he : s.environment.Unfailing)
  (hf : ∀ steps c, s.Executes steps c → s.machine.Faultless steps c)
include he hf

lemma setup_reported (h : beforeAll s = (.done (some r), s₁)) : s.Reported r := by
  obtain ⟨s₀, hphase, -⟩ := beforeAll_cases h
  rcases runPhase_faultless he he.beforeAll (fun c hooked => hf _ c (.setup hooked)) hphase with
    ⟨c, rs, c', x, i, hooked, ran, hfirst, hskip, rfl⟩ | ⟨hstatus, hraises⟩
  · exact .phase (.setup hooked ran) hfirst hskip
  · exact .unrecorded hstatus hraises

lemma case_reported {setup : Option TestResult} (hsetup : beforeAll s = (.done setup, s₁))
    (hturn : Turns s.suite.runs s₁ k position s₂) (hran : runCase k position s₂ = (.done r, s')) :
    s.Reported r := by
  have hsame : s.Same s₂ := (beforeAll_same hsetup).trans (same_sharing hturn.shares)
  have hlists (steps : List Step) (c : Context) (hruns : s₂.RunsIn k position steps c) :
      s₂.machine.Faultless steps c := by
    rw [hsame.machine]
    exact hf steps c (.case hsetup hturn hruns)
  rw [← hsame.environment] at he
  rcases runCase_faultless he hlists hran with hstatus | hstatus | ⟨hstatus, h⟩ | ⟨hstatus, h⟩
  · exact .passed hstatus
  · exact .skipped hstatus
  · exact .unrecorded hstatus (hsame.environment ▸ h)
  · exact .collected hstatus (hsame.environment ▸ h)

lemma teardown_reported {before : Except Failure (List TestResult)}
    (hopening : Action.attempt opening s = (.done before, s₂)) (hsame : s.Same s₂)
    (hafter : afterAll s₂ = (.done (some r), s')) : s.Reported r := by
  have hlist (c : Context) (hooked : s₂.opens Hooks.afterAll s₂.context = (.done (), c)) :
      s₂.machine.Faultless s₂.suite.afterAll c := by
    rw [hsame.machine, hsame.suite]
    exact hf _ c (.teardown hopening hooked)
  rw [← hsame.environment] at he
  rcases runPhase_faultless he he.afterAll hlist hafter with
    ⟨c, rs, c', x, i, hooked, ran, hfirst, hskip, rfl⟩ | ⟨hstatus, hraises⟩
  · rw [hsame.machine, hsame.suite] at ran
    rw [phaseError_same hsame]
    exact .phase (.teardown hopening hooked ran) hfirst hskip
  · exact .unrecorded hstatus (hsame.environment ▸ hraises)

end Reported

/-- **Verdicts on runs without failures.** Where hooks do not fail, and no step that is run comes to
a result that tells of a failure, the cases of a run pass or are skipped, and so is nothing reported
that tells of a failure but for a phase whose steps end with a skip: that one is always reported as
an error. What else can tell of a failure is what executors raise that cannot be recorded, and what
hooks collect. -/
theorem runSuite_faultless (s : Session) (he : s.environment.Unfailing)
    (hf : ∀ steps c, s.Executes steps c → s.machine.Faultless steps c) (rs : List TestResult)
    (s' : Session) (h : runSuite s = (.done rs, s')) :
    (∀ r ∈ rs, s.Reported r) ∧
    ∀ name steps x, s.PhaseRan name steps → x ∈ steps → x.isSkipped = true →
      ∃ i, s.phaseError name steps i ∈ rs := by
  obtain ⟨rs₁, s₂, teardown, hopening, hafter, rfl⟩ := runSuite_done h
  have hopened := Action.attempt_ok hopening
  have hsame : s.Same s₂ := opening_same hopened
  obtain ⟨setup, cases, s₁, rfl, -, hsetup, hcases, -⟩ := shape_of_done hopened hafter
  constructor
  · intro r hr
    simp only [List.mem_append, Option.mem_toList] at hr
    rcases hr with (rfl | hr) | rfl
    · exact setup_reported he hf hsetup
    · obtain ⟨k, position, s₃, s₄, hturn, hran⟩ := runCases_mem hcases hr
      exact case_reported he hf hsetup hturn hran
    · exact teardown_reported he hf hopening hsame hafter
  · intro name steps x hran hx hskip
    cases hran with
    | setup hooked ran =>
      obtain ⟨s₀, hphase, -⟩ := beforeAll_cases hsetup
      obtain ⟨i, rfl⟩ := runPhase_skips hphase hooked ran hx hskip
      exact ⟨i, by simp⟩
    | @teardown before s₃ c c' _ opened hooked ran =>
      cases hopening.symm.trans opened
      rw [← hsame.machine, ← hsame.suite] at ran
      obtain ⟨i, rfl⟩ := runPhase_skips hafter hooked ran hx hskip
      exact ⟨i, by simp [phaseError_same hsame]⟩

/-! ### An example -/

/-- A case without steps. -/
def baking : Case := { (default : Case) with name := "baking" }

/-- The step that closes the bakery. -/
def lockingUp : Step := ⟨"close", "close", [], []⟩

/-- A session of a bakery that bakes something and then closes. -/
def bakery : Session :=
  let s := ofExecutors [("close", Action.fail (.skip (.text "sold out")))] [] Machine.silent
  { s with suite := { s.suite with
      name := "Bakery"
      cases := [baking]
      afterAll := [lockingUp] } }

lemma bakery_unfailing : bakery.environment.Unfailing where
  beforeAll h hh := by cases hh
  afterAll h hh := by cases hh
  beforeTest h hh := by cases hh
  beforeStep h hh := by cases hh
  afterStep h hh := by cases hh

lemma bakery_collectsNothing : bakery.environment.CollectsNothing where
  beforeTest h hh := by cases hh
  beforeStep h hh := by cases hh
  afterStep h hh := by cases hh

lemma bakery_raisesTexts : bakery.environment.RaisesTexts := by
  intro type block h params c
  obtain ⟨e, he, hx⟩ := Machine.ofExecutors_lookup h
  rw [List.mem_singleton.mp he] at hx
  rw [hx]
  exact ⟨trivial, _, rfl⟩

/-- The bakery when it comes to its closing. -/
def bakeryAtNight : Session := (Action.attempt opening bakery).2

lemma lockingUp_flat : bakery.machine.Flat lockingUp where
  inputs name x h := by cases h
  answers block h params c s c' ran := by
    obtain ⟨e, he, hx⟩ := Machine.ofExecutors_lookup h
    rw [List.mem_singleton.mp he] at hx
    rw [hx] at ran
    cases ran

/-- The closing of the bakery skips. -/
lemma lockingUp_faultless : bakery.machine.Faultless [lockingUp] bakeryAtNight.context := by
  refine .singleton lockingUp_flat fun r c h => ?_
  have hskips : (bakery.machine.conclude (bakery.machine.runWith 9999) false lockingUp
      bakeryAtNight.context).1.ended.toOption.map (·.status) = some .skipped := by
    decide +kernel
  have hran : bakery.machine.conclude (bakery.machine.runWith 9999) false lockingUp
      bakeryAtNight.context = (.done r, c) := h
  rw [hran] at hskips
  have hstatus : r.status = .skipped := Option.some.inj hskips
  simp [hstatus]

/-- The closing is the only step that is run in the bakery. -/
lemma bakery_faultless {steps : List Step} {c : Context} (h : bakery.Executes steps c) :
    bakery.machine.Faultless steps c := by
  cases h with
  | setup => exact Machine.Faultless.nil _ _
  | @case setup s₁ s₂ k position _ _ opened turn runs =>
    have hsame := (beforeAll_same opened).trans (same_sharing turn.shares)
    obtain ⟨-, -, -, comes⟩ := runs
    have hempty : steps = [] := by
      have hmem := comes.mem
      have hk : k ∈ bakery.suite.cases := (Suite.mem_runs turn.mem).1
      have hlists : Trial.body bakery.suite baking ++ [baking.afterEach, bakery.suite.afterEach] =
          [[], [], [], [], []] := rfl
      rw [hsame.suite, List.mem_singleton.mp hk, hlists] at hmem
      simpa using hmem
    rw [hempty]
    exact Machine.Faultless.nil _ _
  | @teardown before s₂ _ opened hooked =>
    have hdone : s₂ = bakeryAtNight := by rw [bakeryAtNight, opened]
    have hhooks : bakeryAtNight.environment.hooks = [] := rfl
    rw [hdone, opens, hhooks] at hooked
    cases hooked
    exact lockingUp_faultless

theorem runSuite_faultless_bakery : ∃ rs t, runSuite bakery = (.done rs, t) ∧
    bakery.environment.Unfailing ∧
    (∀ steps c, bakery.Executes steps c → bakery.machine.Faultless steps c) ∧
    ∀ r ∈ rs, bakery.Reported r := by
  obtain ⟨rs, t, h⟩ := Action.exists_done (x := runSuite) (s := bakery) (by decide +kernel)
  exact ⟨rs, t, h, bakery_unfailing, fun _ _ => bakery_faultless,
    (runSuite_faultless bakery bakery_unfailing (fun _ _ => bakery_faultless) rs t h).1⟩

/-- No step of the bakery fails, hooks collect nothing, and what is raised are texts. Yet its
closing is reported as an error. -/
theorem bakery_closes_with_error : bakery.environment.Unfailing ∧
    bakery.environment.CollectsNothing ∧ bakery.environment.RaisesTexts ∧
    (∀ steps c, bakery.Executes steps c → bakery.machine.Faultless steps c) ∧
    ∃ rs t, runSuite bakery = (.done rs, t) ∧
      rs.map (fun r => (r.testId, r.status)) = [("baking", .passed), ("after_all", .error)] :=
  ⟨bakery_unfailing, bakery_collectsNothing, bakery_raisesTexts, fun _ _ => bakery_faultless,
    Action.exists_done_eq (by decide +kernel)⟩

end Session

end BlockSuite
