import BlockSuite.Session
import BlockSuite.Proofs.Machine.Departure
import BlockSuite.Proofs.Machine.Logged

/-!
The lists of steps of a case and what a run of them comes to. The steps around a case that precede
it, and its own, are run up to the first result that fails or skips; those that follow it are run in
any case. The verdict is that of the first result that fails or skips among all of them, and only
where there is none of the failures that were collected.
-/

namespace BlockSuite

/-- The machine that runs the steps of a suite. -/
abbrev Session.machine (s : Session) : Machine := s.environment.machine

namespace Trial

open BlockSuite.Action (Keeps)
open BlockSuite.Context (SameDepth)
open BlockSuite.Machine (Chain Calm Loses)

variable {m : Machine} {steps : List Step} {lists : List (List Step)} {suite : Suite} {k : Case}
  {c c' : Context} {t t' : Trial} {rs : List StepResult} {r : StepResult} {f : Failure}

/-! ### The first failure -/

lemma firstFailure_none : firstFailure rs = none ↔ ∀ r ∈ rs, r.breaks = false := by
  rw [firstFailure, List.find?_eq_none]
  simp only [StepResult.breaks, Bool.not_eq_true]

lemma firstFailure_some (h : firstFailure rs = some r) : r ∈ rs ∧ r.breaks = true :=
  ⟨List.mem_of_find?_eq_some h, List.find?_some h⟩

lemma firstFailure_append (rs rs' : List StepResult) :
    firstFailure (rs ++ rs') = (firstFailure rs <|> firstFailure rs') := by
  rw [firstFailure, List.find?_append]
  change (firstFailure rs).or (firstFailure rs') = _
  cases firstFailure rs <;> rfl

/-- The first result that fails or skips splits the results. -/
lemma firstFailure_split (h : firstFailure rs = some r) :
    ∃ pre rest, rs = pre ++ r :: rest ∧ ∀ x ∈ pre, x.breaks = false := by
  obtain ⟨-, pre, rest, rfl, hpre⟩ := List.find?_eq_some_iff_append.mp h
  exact ⟨pre, rest, rfl, fun x hx => by simpa [StepResult.breaks] using hpre x hx⟩

lemma firstFailure_eq_some {pre rest : List StepResult} (hpre : ∀ x ∈ pre, x.breaks = false)
    (hr : r.breaks = true) : firstFailure (pre ++ r :: rest) = some r := by
  have hbr : (r.isFatal || r.isSkipped) = true := hr
  have hcons : firstFailure (r :: rest) = some r := List.find?_cons_of_pos hbr
  rw [firstFailure_append, firstFailure_none.mpr hpre, hcons]
  rfl

/-- Where only the last result may fail or skip, the one that does is the first. -/
lemma firstFailure_last (hrs : ∀ x ∈ rs.dropLast, x.breaks = false) (hmem : r ∈ rs)
    (hr : r.breaks = true) : firstFailure rs = some r := by
  rcases List.eq_nil_or_concat rs with rfl | ⟨pre, x, rfl⟩
  · cases hmem
  · rw [List.concat_eq_append, List.dropLast_concat] at hrs
    rw [List.concat_eq_append] at hmem ⊢
    rcases List.mem_append.mp hmem with hmem | hmem
    · rw [hrs r hmem] at hr
      cases hr
    · rw [List.mem_singleton.mp hmem] at hr ⊢
      exact firstFailure_eq_some hrs hr

/-! ### Lists one after the other -/

/-- The results of lists of steps that are run up to the first result that fails or skips. -/
inductive Until (m : Machine) : List (List Step) → Context → List StepResult → Context → Prop
  | nil (c : Context) : Until m [] c [] c
  | stop {steps : List Step} {rs : List StepResult} {c c' : Context}
    (ran : m.runSteps steps c = (.done rs, c')) (breaks : ∃ r ∈ rs, r.breaks = true)
    (rest : List (List Step)) : Until m (steps :: rest) c rs c'
  | next {steps : List Step} {rest : List (List Step)} {rs rs' : List StepResult}
    {c c' c'' : Context} (ran : m.runSteps steps c = (.done rs, c'))
    (calm : ∀ r ∈ rs, r.breaks = false) (tail : Until m rest c' rs' c'') :
    Until m (steps :: rest) c (rs ++ rs') c''

/-- Lists of steps of which one loses the result of a step before any other result fails or skips,
with the results of those before it. -/
inductive UntilLost (m : Machine) : List (List Step) → Context → List StepResult → Failure → Prop
  | here {steps : List Step} {c c' : Context} {f : Failure}
    (lost : m.runSteps steps c = (.failed f, c')) (rest : List (List Step)) :
    UntilLost m (steps :: rest) c [] f
  | next {steps : List Step} {rest : List (List Step)} {rs rs' : List StepResult} {c c' : Context}
    {f : Failure} (ran : m.runSteps steps c = (.done rs, c'))
    (calm : ∀ r ∈ rs, r.breaks = false) (tail : UntilLost m rest c' rs' f) :
    UntilLost m (steps :: rest) c (rs ++ rs') f

lemma inContext_run {α : Type} {x : Run α} {o : Outcome α} (h : x t.context = (o, c)) :
    inContext x t = (o, { t with context := c }) := by
  simp only [inContext, Action.zoom, h]

lemma inContext_eq {α : Type} {x : Run α} {o : Outcome α} (h : inContext x t = (o, t')) :
    x t.context = (o, t'.context) ∧ t'.result = t.result := by
  rcases hx : x t.context with ⟨o', c⟩
  rw [inContext_run hx] at h
  cases h
  exact ⟨rfl, rfl⟩

/-- A trial whose record has more results. -/
def adding (t : Trial) (rs : List StepResult) (c : Context) : Trial :=
  ⟨c, { t.result with steps := t.result.steps ++ rs }⟩

lemma adding_nil : t.adding [] t.context = t := by
  rw [adding, List.append_nil]

lemma adding_adding (rs rs' : List StepResult) (c c' : Context) :
    (t.adding rs c).adding rs' c' = t.adding (rs ++ rs') c' := by
  simp only [adding, List.append_assoc]

lemma runPart_done (h : m.runSteps steps t.context = (.done rs, c)) :
    runPart m steps t = (.done (firstFailure rs), t.adding rs c) := by
  rw [runPart, Action.bind_of_done (inContext_run h)]
  rfl

variable {α : Type} {next : Option StepResult → Act α} {o : Outcome α}

/-- A list of a case comes to its results and the run goes on, or the run ends there. -/
lemma runPart_bind (h : (runPart m steps >>= next) t = (o, t')) :
    (∃ rs c, m.runSteps steps t.context = (.done rs, c) ∧
      next (firstFailure rs) (t.adding rs c) = (o, t')) ∨
    (∃ f c, m.runSteps steps t.context = (.failed f, c) ∧ o = .failed f ∧
      t' = t.adding [] c) ∨ o = .exhausted := by
  rcases hran : m.runSteps steps t.context with ⟨rs | f | _, c⟩
  · rw [Action.bind_of_done (runPart_done hran)] at h
    exact .inl ⟨rs, c, rfl, h⟩
  · rw [runPart, bind_assoc, Action.bind_of_failed (inContext_run hran)] at h
    cases h
    exact .inr (.inl ⟨f, c, rfl, rfl, by rw [adding, List.append_nil]⟩)
  · rw [runPart, bind_assoc, Action.bind_of_exhausted (inContext_run hran)] at h
    cases h
    exact .inr (.inr rfl)

lemma runUntilFailure_cons (steps : List Step) (rest : List (List Step)) :
    runUntilFailure m (steps :: rest) =
      (do
        match ← runPart m steps with
        | some r => return some r
        | none => runUntilFailure m rest) := rfl

/-- Lists that are run up to the first failure come to their results and the run goes on, or the
run ends there. -/
lemma runUntilFailure_bind (h : (runUntilFailure m lists >>= next) t = (o, t')) :
    (∃ rs c, Until m lists t.context rs c ∧
      next (firstFailure rs) (t.adding rs c) = (o, t')) ∨
    (∃ f rs c, UntilLost m lists t.context rs f ∧ o = .failed f ∧ t' = t.adding rs c) ∨
    o = .exhausted := by
  induction lists generalizing t with
  | nil => exact .inl ⟨[], t.context, .nil _, by rw [adding_nil]; exact h⟩
  | cons steps rest ih =>
    rw [runUntilFailure_cons, bind_assoc] at h
    rcases runPart_bind h with ⟨rs, c, ran, h⟩ | ⟨f, c, lost, ho, ht⟩ | ho
    · cases hfirst : firstFailure rs with
      | some r =>
        rw [hfirst] at h
        exact .inl ⟨rs, c, .stop ran ⟨r, firstFailure_some hfirst⟩ rest, by rw [hfirst]; exact h⟩
      | none =>
        rw [hfirst] at h
        have hcalm := firstFailure_none.mp hfirst
        rcases ih h with ⟨rs', c', htail, h⟩ | ⟨f, rs', c', htail, ho, ht⟩ | ho
        · rw [adding_adding] at h
          refine .inl ⟨rs ++ rs', c', .next ran hcalm htail, ?_⟩
          rw [firstFailure_append, hfirst]
          exact h
        · rw [adding_adding] at ht
          exact .inr (.inl ⟨f, rs ++ rs', c', .next ran hcalm htail, ho, ht⟩)
        · exact .inr (.inr ho)
    · exact .inr (.inl ⟨f, [], c, .here lost rest, ho, ht⟩)
    · exact .inr (.inr ho)

/-! ### The course of a case -/

/-- The lists of steps of a case that are run up to the first result that fails or skips. -/
def body (suite : Suite) (k : Case) : List (List Step) := [suite.beforeEach, k.beforeEach, k.steps]

/-- A run of a case in which every list that is run comes to its results. -/
structure Course (m : Machine) (suite : Suite) (k : Case) (c : Context) where
  main : List StepResult
  caseEnd : List StepResult
  suiteEnd : List StepResult
  behindMain : Context
  behindCase : Context
  final : Context
  mainRan : Until m (body suite k) c main behindMain
  caseEndRan : m.runSteps k.afterEach behindMain = (.done caseEnd, behindCase)
  suiteEndRan : m.runSteps suite.afterEach behindCase = (.done suiteEnd, final)

/-- All results of a run of a case, in order. -/
def Course.results (course : Course m suite k c) : List StepResult :=
  course.main ++ course.caseEnd ++ course.suiteEnd

lemma Until.forall {P : StepResult → Prop}
    (hP : ∀ steps c rs c', m.runSteps steps c = (.done rs, c') → ∀ r ∈ rs, P r)
    (h : Until m lists c rs c') : ∀ r ∈ rs, P r := by
  induction h with
  | nil c => simp
  | stop ran breaks rest => exact hP _ _ _ _ ran
  | next ran calm tail ih =>
    intro r hr
    rcases List.mem_append.mp hr with hr | hr
    · exact hP _ _ _ _ ran r hr
    · exact ih r hr

lemma Course.accounts (course : Course m suite k c) : ∀ x ∈ course.results, x.Accounts := by
  have hrun (steps c rs c') (h : m.runSteps steps c = (.done rs, c')) : ∀ r ∈ rs, r.Accounts :=
    Machine.forall_runList (m.runWith_accounts _) h
  intro x hx
  rcases List.mem_append.mp hx with hx | hx
  · rcases List.mem_append.mp hx with hx | hx
    · exact course.mainRan.forall hrun x hx
    · exact hrun _ _ _ _ course.caseEndRan x hx
  · exact hrun _ _ _ _ course.suiteEndRan x hx

/-- A run of a case that breaks off where a list loses the result of a step, with the results of the
lists before. -/
inductive BreaksOff (m : Machine) (suite : Suite) (k : Case) (c : Context) (f : Failure) :
    List StepResult → Prop
  | main {rs : List StepResult} (lost : UntilLost m (body suite k) c rs f) :
    BreaksOff m suite k c f rs
  | caseEnd {rs : List StepResult} {c₁ c₂ : Context} (main : Until m (body suite k) c rs c₁)
    (lost : m.runSteps k.afterEach c₁ = (.failed f, c₂)) : BreaksOff m suite k c f rs
  | suiteEnd {rs rs' : List StepResult} {c₁ c₂ c₃ : Context}
    (main : Until m (body suite k) c rs c₁)
    (caseEnd : m.runSteps k.afterEach c₁ = (.done rs', c₂))
    (lost : m.runSteps suite.afterEach c₂ = (.failed f, c₃)) : BreaksOff m suite k c f (rs ++ rs')

/-- The lists of a case come to their results and the run goes on, or the run ends there. -/
lemma runLists_bind
    (h : (do
      let failure ← runUntilFailure m (body suite k)
      let failure ← runAll m failure [k.afterEach, suite.afterEach]
      next failure : Act α) t = (o, t')) :
    (∃ course : Course m suite k t.context,
      next (firstFailure course.results) (t.adding course.results course.final) = (o, t')) ∨
    (∃ f rs c, BreaksOff m suite k t.context f rs ∧ o = .failed f ∧ t' = t.adding rs c) ∨
    o = .exhausted := by
  rcases runUntilFailure_bind h with ⟨rs₁, c₁, hmain, h⟩ | ⟨f, rs, c, hlost, ho, ht⟩ | ho
  rotate_left
  · exact .inr (.inl ⟨f, rs, c, .main hlost, ho, ht⟩)
  · exact .inr (.inr ho)
  simp only [runAll, bind_assoc, pure_bind] at h
  rcases runPart_bind h with ⟨rs₂, c₂, hcase, h⟩ | ⟨f, c, hlost, ho, ht⟩ | ho
  rotate_left
  · rw [adding_adding, List.append_nil] at ht
    exact .inr (.inl ⟨f, rs₁, c, .caseEnd hmain hlost, ho, ht⟩)
  · exact .inr (.inr ho)
  rcases runPart_bind h with ⟨rs₃, c₃, hsuite, h⟩ | ⟨f, c, hlost, ho, ht⟩ | ho
  rotate_left
  · rw [adding_adding, adding_adding, List.append_nil] at ht
    exact .inr (.inl ⟨f, rs₁ ++ rs₂, c, .suiteEnd hmain hcase hlost, ho, ht⟩)
  · exact .inr (.inr ho)
  refine .inl ⟨⟨rs₁, rs₂, rs₃, c₁, c₂, c₃, hmain, hcase, hsuite⟩, ?_⟩
  rw [adding_adding, adding_adding, ← List.append_assoc, ← firstFailure_append,
    ← firstFailure_append] at h
  exact h

/-! ### What the lists have in common -/

/-- Only the last result of a list fails or skips. -/
lemma runSteps_dropLast (h : m.runSteps steps c = (.done rs, c')) :
    ∀ r ∈ rs.dropLast, r.breaks = false := by
  obtain ⟨ran, rest, -, -, hcalm, -⟩ := Machine.runList_done h
  exact hcalm.breaks

/-- Only the last one of the results up to the first that fails or skips does so. -/
lemma Until.dropLast (h : Until m lists c rs c') : ∀ r ∈ rs.dropLast, r.breaks = false := by
  induction h with
  | nil c => simp
  | stop ran breaks rest => exact runSteps_dropLast ran
  | @next steps rest rs rs' c c' c'' ran calm tail ih =>
    intro r hr
    cases rs' with
    | nil =>
      rw [List.append_nil] at hr
      exact calm r (List.dropLast_subset _ hr)
    | cons x rest' =>
      rw [List.dropLast_append_of_ne_nil (by simp)] at hr
      rcases List.mem_append.mp hr with hr | hr
      · exact calm r hr
      · exact ih r hr

/-- The results of a list are those of its first steps, up to the first one that fails or skips. -/
def UpToFirst (m : Machine) (steps : List Step) (c : Context) (rs : List StepResult)
    (c' : Context) : Prop :=
  ∃ ran rest, steps = ran ++ rest ∧ Chain m.runStep c ran rs c' ∧
    (∀ r ∈ rs.dropLast, r.breaks = false) ∧
    (rest ≠ [] → ∃ r, rs.getLast? = some r ∧ r.breaks = true)

/-- Where no frame is open, nothing but a failure or a skip ends a list. -/
lemma runSteps_upToFirst (hm : m.Respects SameDepth) (hc : c.callDepth = 0)
    (h : m.runSteps steps c = (.done rs, c')) : UpToFirst m steps c rs c' := by
  obtain ⟨ran, rest, hsteps, hch, hcalm, hlast⟩ := Machine.runList_done h
  refine ⟨ran, rest, hsteps, hch, hcalm.breaks, fun hrest => ?_⟩
  obtain ⟨r, hr, hs⟩ := hlast hrest
  have hrun := Machine.runWith_keeps Machine.sameDepth_harmless hm Machine.maxDepth false
  obtain ⟨step, c₁, c₂, hstep, hd⟩ := hch.forall_depth hrun r (List.mem_of_getLast? hr)
  obtain ⟨a, -, -, -, rfl, rfl⟩ := Machine.Activation.of_run hstep
  have hret := Machine.Activation.not_returned hm (hd.trans hc)
  rw [StepResult.stops_eq, hret, Bool.or_false] at hs
  exact ⟨_, hr, hs⟩

section Keeps

variable {R : Context → Context → Prop} (hR : Machine.Harmless (.keeping R)) (hm : m.Respects R)
include hR hm

lemma Until.keeps (h : Until m lists c rs c') : R c c' := by
  induction h with
  | nil c => exact hR.refl c
  | stop ran breaks rest => exact Machine.runSteps_keeps hR hm _ _ _ _ ran (by simp)
  | next ran calm tail ih =>
    exact hR.trans _ _ _ (Machine.runSteps_keeps hR hm _ _ _ _ ran (by simp)) ih

lemma Course.keeps (course : Course m suite k c) : R c course.final := by
  have hcase := Machine.runSteps_keeps hR hm _ _ _ _ course.caseEndRan (by simp)
  have hsuite := Machine.runSteps_keeps hR hm _ _ _ _ course.suiteEndRan (by simp)
  exact hR.trans _ _ _ (course.mainRan.keeps hR hm) (hR.trans _ _ _ hcase hsuite)

lemma UntilLost.exists_failed (h : UntilLost m lists c rs f) :
    ∃ steps c₁ c₂, R c c₁ ∧ m.runSteps steps c₁ = (.failed f, c₂) := by
  induction h with
  | here lost rest => exact ⟨_, _, _, hR.refl _, lost⟩
  | next ran calm tail ih =>
    obtain ⟨steps, c₁, c₂, hk, hlost⟩ := ih
    have hran := Machine.runSteps_keeps hR hm _ _ _ _ ran (by simp)
    exact ⟨steps, c₁, c₂, hR.trans _ _ _ hran hk, hlost⟩

lemma BreaksOff.exists_failed (h : BreaksOff m suite k c f rs) :
    ∃ steps c₁ c₂, R c c₁ ∧ m.runSteps steps c₁ = (.failed f, c₂) := by
  cases h with
  | main lost => exact lost.exists_failed hR hm
  | caseEnd main lost => exact ⟨_, _, _, main.keeps hR hm, lost⟩
  | suiteEnd main caseEnd lost =>
    have hcase := Machine.runSteps_keeps hR hm _ _ _ _ caseEnd (by simp)
    exact ⟨_, _, _, hR.trans _ _ _ (main.keeps hR hm) hcase, lost⟩

end Keeps

/-- Where the records of the run can be written, no run of a case breaks off. -/
lemma BreaksOff.not_loggable (ht : m.Tells) (hm : m.Respects Context.SameMarks)
    (h : BreaksOff m suite k c f rs) : ¬c.Loggable := by
  intro hc
  obtain ⟨steps, c₁, c₂, hmarks, hlost⟩ := h.exists_failed Machine.sameMarks_harmless hm
  have hloses : m.Loses steps c₁ := (Machine.runSteps_failed_iff ht).mp ⟨f, c₂, hlost⟩
  exact hloses.not_loggable hm (hc.congr hmarks)

/-! ### The verdict -/

/-- What a run of a case comes to, given its first result that fails or skips and the failures that
were collected: a status and an error. -/
inductive Verdict : Option StepResult → List SoftError → Status → Option ErrorInfo → Prop
  | passed : Verdict none [] .passed none
  | collected {errors : List SoftError} {i : ErrorInfo} (some : errors ≠ [])
    (told : (Failure.raised (.ofSoft errors)).info = .ok i) :
    Verdict none errors .failed (.some i)
  | skipped {x : StepResult} (errors : List SoftError) (skips : x.isSkipped = true) :
    Verdict (some x) errors .skipped x.error
  | failed {x : StepResult} (errors : List SoftError) (fails : x.isFatal = true) :
    Verdict (some x) errors .failed x.error

namespace Verdict

variable {first : Option StepResult} {errors : List SoftError} {status : Status}
  {error : Option ErrorInfo}

lemma passed_iff (h : Verdict first errors status error) :
    status = .passed ↔ first = none ∧ errors = [] := by
  cases h with
  | passed => simp
  | collected some told => simp [some]
  | skipped errors skips => simp
  | failed errors fails => simp

lemma skipped_iff (h : Verdict first errors status error) :
    status = .skipped ↔ ∃ x, first = some x ∧ x.isSkipped = true := by
  cases h with
  | passed => simp
  | collected some told => simp
  | skipped errors skips => simpa using skips
  | failed errors fails => simpa using Machine.isSkipped_of_isFatal fails

lemma of_fatal (h : Verdict first errors status error) {x : StepResult} (hx : first = some x)
    (hf : x.isFatal = true) : status = .failed ∧ error = x.error := by
  cases h with
  | passed => cases hx
  | collected some told => cases hx
  | skipped errors skips =>
    cases hx
    rw [Machine.isSkipped_of_isFatal hf] at skips
    cases skips
  | failed errors fails =>
    cases hx
    exact ⟨rfl, rfl⟩

lemma ne_error (h : Verdict first errors status error) : status ≠ .error := by
  cases h <;> simp

end Verdict

/-- A trial whose record is closed with a status and an error. -/
def closed (t : Trial) (status : Status) (error : Option ErrorInfo) : Trial :=
  { t with result := { t.result with status, error, finished := true } }

/-- A trial whose record has the failures that were collected. -/
def told (t : Trial) : Trial :=
  ⟨{ t.context with softErrors := [] }, { t.result with softErrors := t.context.softErrors }⟩

lemma close_none (status : Status) (t : Trial) :
    close status none t = (.done (), t.closed status t.result.error) := rfl

lemma close_some {i : ErrorInfo} (h : f.info = .ok i) (status : Status) (t : Trial) :
    close status (some f) t = (.done (), t.closed status (some i)) := by
  rw [close, Action.bind_of_done (Action.get_run t), TestResult.finish, h]
  rfl

lemma close_failed {e : Failure} (h : f.info = .error e) (status : Status) (t : Trial) :
    close status (some f) t = (.failed e, t) := by
  rw [close, Action.bind_of_done (Action.get_run t), TestResult.finish, h]
  rfl

/-- The failures that were collected go into the record, which had none. -/
lemma settle_told (first : Option StepResult) (h : t.result.softErrors = []) :
    settle first t =
      (match first with
      | none =>
        if t.context.softErrors.isEmpty then close .passed none
        else close .failed (some (.raised (.ofSoft t.context.softErrors)))
      | some x =>
        if x.isSkipped then do
          close .skipped none
          note fun r => { r with error := x.error }
        else do
          close .failed x.failure
          note fun r => { r with error := r.error <|> x.error } : Act Unit) t.told := by
  rw [settle, Action.bind_of_done (inContext_run (Context.takeSoftErrors_run t.context))]
  cases he : t.context.softErrors with
  | nil =>
    have htold : t.told = { t with context := { t.context with softErrors := [] } } := by
      rw [told, he, ← h]
    rw [htold]
    cases first <;> rfl
  | cons e rest =>
    have htold : t.told = ⟨{ t.context with softErrors := [] },
        { t.result with softErrors := e :: rest }⟩ := by
      rw [told, he]
    rw [htold]
    cases first <;> rfl

lemma settle_verdict {first : Option StepResult}
    (hx : ∀ x, first = some x → x.Accounts ∧ x.breaks = true) (he : t.result.error = none)
    (hs : t.result.softErrors = []) :
    ∃ status error, Verdict first t.context.softErrors status error ∧
      settle first t = (.done (), t.told.closed status error) := by
  rw [settle_told first hs]
  cases first with
  | none =>
    cases hcollected : t.context.softErrors with
    | nil =>
      refine ⟨_, _, .passed, ?_⟩
      rw [← he]
      rfl
    | cons e rest =>
      have hrec : (Failure.raised (.ofSoft (e :: rest))).Recordable :=
        Failure.recordable_text rfl _
      obtain ⟨i, hi⟩ := (Failure.info_ok rfl).mpr hrec
      exact ⟨_, _, .collected (by simp) hi, close_some hi _ _⟩
  | some x =>
    obtain ⟨hacc, hb⟩ := hx x rfl
    rcases hskip : x.isSkipped with _ | _
    · have hfatal : x.isFatal = true := by simpa [StepResult.breaks, hskip] using hb
      obtain ⟨e, i, hf, -, hi, herror⟩ := hacc.fatal hfatal
      refine ⟨_, _, .failed _ hfatal, ?_⟩
      simp only [hskip, Bool.false_eq_true, if_false, hf]
      rw [Action.bind_of_done (close_some hi _ _), herror]
      rfl
    · refine ⟨_, _, .skipped _ hskip, ?_⟩
      simp only [hskip, if_true]
      rw [Action.bind_of_done (close_none _ _)]
      rfl

/-- **What a run of a case comes to**: its lists come to their results, and the verdict is that of
the first one that fails or skips; or it breaks off where a result is lost. -/
theorem run_cases {o : Outcome Unit} (he : t.result.error = none) (hs : t.result.softErrors = [])
    (h : run m suite k t = (o, t')) :
    (∃ (course : Course m suite k t.context) (status : Status) (error : Option ErrorInfo),
      Verdict (firstFailure course.results) course.final.softErrors status error ∧
      o = .done () ∧ t' = ((t.adding course.results course.final).told.closed status error)) ∨
    (∃ f rs c, BreaksOff m suite k t.context f rs ∧ o = .failed f ∧ t' = t.adding rs c) ∨
    o = .exhausted := by
  rcases runLists_bind h with ⟨course, h⟩ | hlost | ho
  · have hx (x : StepResult) (hx : firstFailure course.results = some x) :
        x.Accounts ∧ x.breaks = true := by
      obtain ⟨hmem, hb⟩ := firstFailure_some hx
      exact ⟨course.accounts x hmem, hb⟩
    obtain ⟨status, error, hverdict, hsettle⟩ :=
      settle_verdict (t := t.adding course.results course.final) hx he hs
    rw [hsettle] at h
    cases h
    exact .inl ⟨course, status, error, hverdict, rfl, rfl⟩
  · exact .inr (.inl hlost)
  · exact .inr (.inr ho)

end Trial

end BlockSuite
