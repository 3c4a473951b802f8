import BlockSuite.Proofs.Session.Steady
import BlockSuite.Proofs.Session.Teardown
import Mathlib.Data.Nat.Digits.Defs

/-!
The shape of a run. Where hooks leave alone what records are marked with, and fail with what a
result can tell of, a run that ends gives at most one result of the phase before all cases, one for
each run of a case, and at most one of the phase after them. It fails only where the records of the
session cannot be written behind their heads.
-/

namespace BlockSuite

open BlockSuite.Action (Keeps KeepsAt Meets Contract)
open BlockSuite.Context (SameMarks Lenient)

/-! ### Rows -/

/-- A number of a row can be shown. -/
lemma intText_ok {i : Nat} (h : i < Number.wordBound) : ∃ text, intText i = .ok text := by
  have hlength : (toString (i : Int)).length ≤ 19 :=
    Nat.repr_length i 19 (by omega) (Nat.lt_trans h (by decide))
  have hdigits : ¬Number.maxDigits < (toString (i : Int)).length := by
    change ¬4300 < _
    omega
  refine ⟨toString (i : Int), ?_⟩
  rw [intText]
  simp only [Int.not_ofNat_neg, if_false, if_neg hdigits]

/-- A row that a case is run for can be shown in records. -/
lemma Case.rowText_ok {k : Case} {position : Option Position} (h : position ∈ k.runs)
    (hrows : k.data.length < Number.wordBound) :
    ∃ text, ((position.map Position.toValue).getD .null).plainText = .ok text := by
  unfold Case.runs at h
  split at h
  · rw [List.mem_singleton.mp h]
    exact ⟨_, rfl⟩
  · obtain ⟨i, hi, rfl⟩ := List.mem_map.mp h
    have hlt : i < k.data.length := List.mem_range.mp hi
    exact intText_ok (Nat.lt_trans hlt hrows)

namespace Session

open BlockSuite.Trial (Within)
open BlockSuite.Machine (JournalFree)

variable {s s' s₁ s₂ : Session} {k : Case} {position : Option Position} {c c' c₀ : Context}
  {name : String} {steps : List Step} {event : Hooks → Option (Suite → Run Unit)}
  {runs : List (Case × Option Position)} {rs : List TestResult} {r : TestResult} {f : Failure}

/-! ### Hooks that can be told of -/

/-- The contract of hooks that leave alone what records are marked with, and fail with what a result
can tell of. -/
def spoken : Contract Context := ⟨SameMarks, fun f => ∃ i, f.info = .ok i⟩

lemma spoken_journalFree : JournalFree spoken where
  refl _ := ⟨rfl, rfl⟩
  trans _ _ _ h h' := ⟨h'.test.trans h.test, h'.row.trans h.row⟩
  records _ _ := ⟨rfl, rfl⟩
  fault f := (Failure.Internal.fault f).info

lemma sameMarks_lenient : Lenient SameMarks where
  refl := spoken_journalFree.refl
  trans := spoken_journalFree.trans
  records c _ := spoken_journalFree.records c _
  bindings _ _ := ⟨rfl, rfl⟩
  currentStep _ _ := ⟨rfl, rfl⟩
  frame _ _ h := ⟨h.test, h.row⟩

/-- What is attached to a session leaves alone what records are marked with, and its hooks around
phases and before cases fail with what a result can tell of. -/
structure Articulate (s : Session) : Prop extends s.Spares where
  beforeAll : ∀ h ∈ s.environment.hooks, ∀ f, h.beforeAll = some f → ∀ suite, Meets spoken (f suite)
  afterAll : ∀ h ∈ s.environment.hooks, ∀ f, h.afterAll = some f → ∀ suite, Meets spoken (f suite)
  beforeTest : ∀ h ∈ s.environment.hooks, ∀ f, h.beforeTest = some f → ∀ k, Meets spoken (f k)

lemma opens_spoken
    (h : ∀ k ∈ s.environment.hooks, ∀ f, event k = some f → ∀ suite, Meets spoken (f suite)) :
    Meets spoken (s.opens event) :=
  spoken_journalFree.runAll fun k hk f hf => h k hk f hf s.suite

lemma Articulate.opensCase (hs : s.Articulate) (k : Case) : Meets spoken (s.opensCase k) :=
  spoken_journalFree.runAll fun h hh f hf => hs.beforeTest h hh f hf k

/-! ### Phases -/

/-- A phase keeps a relation of contexts if its hooks and its steps do. -/
lemma runPhase_keeps {R : Context → Context → Prop} (hR : Lenient R)
    (hopen : Keeps R (s.opens event)) (hlist : Keeps R (s.machine.runSteps steps))
    {o : Outcome (Option TestResult)} (h : runPhase name steps event s = (o, s'))
    (ho : o ≠ .exhausted) : R s.context s'.context := by
  have helementary {α : Type} {x : Run α} (hx : Elementary x) (c : Context) :
      KeepsAt R x c := hx.keepsAt hR c
  have hconclude (outcome : Except Failure (List StepResult)) (c : Context) :
      KeepsAt R (s.concludePhase name outcome) c := by
    cases outcome with
    | error f =>
      exact helementary ((Elementary.log _ _ _ _).bind fun _ => (Elementary.lift _).bind fun _ =>
        .pure _) c
    | ok rs =>
      simp only [concludePhase]
      split
      · exact helementary (.pure _) c
      · exact helementary ((Elementary.log _ _ _ _).bind fun _ => (Elementary.lift _).bind fun _ =>
          .pure _) c
  have hphase : KeepsAt R (do
      let outcome ← Action.attempt do
        s.opens event
        s.machine.runSteps steps
      s.concludePhase name outcome) s.context :=
    .bind hR.trans (.attempt (.bind hR.trans (hopen _) fun _ c _ => hlist c)) fun outcome c _ =>
      hconclude outcome c
  rw [runPhase_eq] at h
  rcases hrun : (do
      let outcome ← Action.attempt do
        s.opens event
        s.machine.runSteps steps
      s.concludePhase name outcome : Run (Option TestResult)) s.context with ⟨o₁, c⟩
  rw [inContext_run hrun] at h
  cases h
  exact hphase _ _ hrun ho

/-- Where the records of the session can be written, a phase does not fail. -/
lemma runPhase_not_failed (hm : s.machine.Respects SameMarks)
    (hopen : Meets spoken (s.opens event)) (hc : s.context.Loggable) :
    runPhase name steps event s ≠ (.failed f, s') := by
  intro h
  rcases (runPhase_cases h).2 with ⟨c₀, hooked, hend⟩ | ⟨e, c₁, hooked, hconclude, -⟩ | ho
  · exact hend.not_failed hm (hc.congr (hopen.done hooked).1)
  · obtain ⟨hmarks, i, hi⟩ := hopen.failed hooked
    rcases (concludePhase_unhooked hconclude).2 with ⟨i', -, ho⟩ | ⟨e', -, hmute | hmute⟩
    · cases ho
    · exact hmute (hc.congr hmarks)
    · rw [hi] at hmute
      cases hmute
  · cases ho

/-! ### Cases -/

/-- A row is shown where the records are marked with it. -/
lemma rowText_congr {text : String} (h : c.rowValue.plainText = .ok text) (hc : SameMarks c c') :
    c'.rowValue.plainText = .ok text := by
  rw [Context.rowValue, hc.row]
  exact h

variable {t t' : Trial} {text : String}

/-- What the hooks that are shown a record fail with is logged. -/
lemma showing_not_failed (hs : s.Spares) (hrow : t.context.rowValue.plainText = .ok text) :
    s.showing k t ≠ (.failed f, t') := by
  intro h
  rw [showing, Action.bind_of_done (Action.get_run t)] at h
  rcases hshow : s.shows k t.result t.context with ⟨_ | e | _, c⟩
  · rw [Action.bind_of_done (Action.attempt_of_done (Trial.inContext_run hshow))] at h
    cases h
  · rw [Action.bind_of_done (Action.attempt_of_failed (Trial.inContext_run hshow))] at h
    have hmarks : SameMarks t.context c := hs.shows k t.result _ _ _ hshow (by simp)
    have htext := rowText_congr hrow hmarks
    obtain ⟨c', hlog⟩ := Context.log_done htext .error "Hook after_test failed"
    cases (Trial.inContext_run (t := { t with context := c }) hlog).symm.trans h
  · rw [Action.bind_of_exhausted (Action.attempt_of_exhausted (Trial.inContext_run hshow))] at h
    cases h

/-- The record of a case is closed with a failure that can be told of. -/
lemma closing_told {e : Failure} {i : ErrorInfo} (hi : e.info = .ok i)
    (hrow : t.context.rowValue.plainText = .ok text) :
    ∃ t', closing (.error e) t = (.done (.ok ()), t') ∧ SameMarks t.context t'.context := by
  obtain ⟨c, hlog⟩ := Context.log_done hrow .error "Test case raised an unexpected error"
  obtain ⟨records, rfl⟩ := Context.log_leaves hlog
  let t₁ : Trial := ⟨t.context.withRecords records, { t.result with status := .error }⟩
  refine ⟨t₁.closed .error (some i), ?_, ⟨rfl, rfl⟩⟩
  rw [closing, Action.bind_of_done (Trial.inContext_run hlog)]
  exact Action.attempt_of_done (Trial.close_some hi .error t₁)

/-- A case whose row can be shown does not fail. -/
lemma runTrial_articulate (hs : s.Articulate) {r₀ : TestResult} (he : r₀.error = none)
    (hsoft : r₀.softErrors = []) (hrow : c.rowValue.plainText = .ok text) :
    runTrial s k ⟨c, r₀⟩ ≠ (.failed f, t') := by
  intro h
  let x : Trial.Act Unit := do
    Trial.inContext (s.opensCase k)
    Trial.run s.machine s.suite k
  have hkeeps : KeepsAt (Within SameMarks) x ⟨c, r₀⟩ := by
    refine .bind (Trial.within_trans sameMarks_lenient) (Trial.inContext_keepsAt fun o c' =>
      (hs.opensCase k).keeps c o c') fun _ t _ => ?_
    exact Trial.run_keepsAt sameMarks_lenient (fun _ => ⟨rfl, rfl⟩) fun steps c _ o c' =>
      Machine.runSteps_keeps Machine.sameMarks_harmless hs.machine steps c o c'
  have htold {e : Failure} {t : Trial} (hx : x ⟨c, r₀⟩ = (.failed e, t)) :
      ∃ i, e.info = .ok i := by
    rcases Action.bind_cases hx with ⟨_, t₁, hhook, hrun⟩ | ⟨o, hhook, hb⟩
    · obtain ⟨-, hr⟩ := Trial.inContext_eq hhook
      rcases Trial.run_cases (by rw [hr, he]) (by rw [hr, hsoft]) hrun with
        ⟨_, _, _, -, ho, -⟩ | ⟨_, rs, c', hlost, ho, -⟩ | ho
      · cases ho
      · cases ho
        obtain ⟨steps, c₁, c₂, -, hfailed⟩ :=
          hlost.exists_failed Machine.sameMarks_harmless hs.machine
        exact (Machine.runSteps_failed hfailed).info
      · cases ho
    · obtain rfl := hb.of_failed
      exact ((hs.opensCase k).failed (Trial.inContext_eq hhook).1).2
  have hend {t₁ : Trial} (hmarks : SameMarks c t₁.context) :
      (do s.showing k; Action.lift (.ok ()) : Trial.Act Unit) t₁ ≠ (.failed f, t') := by
    intro h
    rcases Action.bind_cases h with ⟨_, t₂, -, h⟩ | ⟨o, hshowing, hb⟩
    · cases h
    · obtain rfl := hb.of_failed
      exact showing_not_failed hs.toSpares (rowText_congr hrow hmarks) hshowing
  rw [runTrial_eq] at h
  rcases hx : x ⟨c, r₀⟩ with ⟨⟨⟩ | e | _, t₁⟩
  · rw [Action.bind_of_done (Action.attempt_of_done hx)] at h
    exact hend (hkeeps _ _ hx (by simp)) h
  · have hmarks : SameMarks c t₁.context := hkeeps _ _ hx (by simp)
    obtain ⟨i, hi⟩ := htold hx
    obtain ⟨t₂, hclosing, hmarks'⟩ := closing_told hi (rowText_congr hrow hmarks)
    rw [Action.bind_of_done (Action.attempt_of_failed hx), Action.bind_of_done hclosing] at h
    exact hend (sameMarks_lenient.trans _ _ _ hmarks hmarks') h
  · rw [Action.bind_of_exhausted (Action.attempt_of_exhausted hx)] at h
    cases h

/-- A run of a case does not fail. -/
lemma runCase_not_failed (hs : s.Articulate) (hk : position ∈ k.runs)
    (hrows : k.data.length < Number.wordBound) : runCase k position s ≠ (.failed f, s') := by
  intro h
  obtain ⟨row, hp⟩ := Case.pick_runs hk
  by_cases hready : s.setupError.isSome = true
  · rw [runCase_notRun hready hp] at h
    cases h
  have hready : s.setupError = none := Option.not_isSome_iff_eq_none.mp hready
  obtain ⟨text, htext⟩ := Case.rowText_ok hk hrows
  rw [runCase_run hready hp] at h
  rcases hrun : runTrial s k ⟨s.forked k position row, blank k position⟩ with ⟨o, t⟩
  rw [hrun] at h
  cases o with
  | done u => cases h
  | failed e =>
    have hforked : (s.forked k position row).rowValue.plainText = .ok text := htext
    exact runTrial_articulate hs rfl rfl hforked hrun
  | exhausted => cases h

/-- The result of a case is marked with the case and the row. -/
structure TestResult.IsFor (r : TestResult) (k : Case) (position : Option Position) : Prop where
  case : r.testId = k.key
  name : r.testName = k.runName position
  row : r.row = position.map Position.index
  lifecycle : r.lifecycle = none

lemma runCase_isFor (h : runCase k position s = (.done r, s')) :
    TestResult.IsFor r k position := by
  rcases runCase_done h with ⟨-, rfl⟩ | ⟨-, row, -, hrecord⟩
  · exact ⟨rfl, rfl, rfl, rfl⟩
  · cases hrecord <;> exact ⟨rfl, rfl, rfl, rfl⟩

/-! ### Cases that are not run -/

/-- The result of a case that is not run since the phase before all cases has failed. -/
def leftOut (run : Case × Option Position) : TestResult := notRun (blank run.1 run.2)

/-- A session behind the records of how some cases have ended. -/
def tellingAll (s : Session) (rs : List TestResult) : Session := rs.foldl telling s

lemma telling_setupError (s : Session) (r : TestResult) :
    (s.telling r).setupError = s.setupError := by
  obtain ⟨records, htold⟩ := (tell_run r s).2
  rw [htold]
  rfl

/-- Where the phase before all cases has failed, no case is run: it is left out, which is logged. -/
lemma runCases_leftOut (hready : s.setupError.isSome = true)
    (hruns : ∀ run ∈ runs, run.2 ∈ run.1.runs) :
    runCases runs s = (.done (runs.map leftOut), s.tellingAll (runs.map leftOut)) := by
  induction runs generalizing s with
  | nil => rfl
  | cons run rest ih =>
    obtain ⟨k, position⟩ := run
    obtain ⟨row, hp⟩ := Case.pick_runs (hruns _ List.mem_cons_self)
    have hready' : (s.telling (notRun (blank k position))).setupError.isSome = true := by
      rw [telling_setupError, hready]
    have hrest := ih hready' fun run h => hruns run (List.mem_cons_of_mem _ h)
    rw [runCases_cons, Action.bind_of_done (runCase_notRun hready hp),
      Action.bind_of_done (tell_run _ s).1, Action.bind_of_done hrest]
    rfl

/-! ### The opening of a run -/

/-- The same suite is run in the same environment. -/
structure Same (s s' : Session) : Prop where
  suite : s'.suite = s.suite
  environment : s'.environment = s.environment

lemma Same.symm (h : s.Same s') : s'.Same s := ⟨h.suite.symm, h.environment.symm⟩

lemma Same.trans {s₁ s₂ : Session} (h : s.Same s₁) (h' : s₁.Same s₂) : s.Same s₂ :=
  ⟨h'.suite.trans h.suite, h'.environment.trans h.environment⟩

lemma Continues.same (h : s.Continues s') : s.Same s' := by
  rw [h]
  exact ⟨rfl, rfl⟩

lemma same_sharing {shared : Shared} (h : s' = s.sharing shared) : s.Same s' := by
  rw [h]
  exact ⟨rfl, rfl⟩

lemma beforeAll_same {o : Outcome (Option TestResult)} (h : beforeAll s = (o, s')) : s.Same s' := by
  obtain ⟨s₁, hphase, hleft⟩ := beforeAll_cases h
  have hsame := (runPhase_cases hphase).1.same
  rcases hleft with ⟨r, -, rfl⟩ | ⟨-, rfl⟩
  · exact ⟨hsame.suite, hsame.environment⟩
  · exact hsame

/-- The opening of a run comes to the results of its two parts, or ends where one of them does. -/
lemma opening_cases {o : Outcome (List TestResult)} (h : opening s = (o, s')) :
    (∃ setup s₁ cases, beforeAll s = (.done setup, s₁) ∧
      runCases s.suite.runs s₁ = (.done cases, s') ∧ o = .done (setup.toList ++ cases)) ∨
    (∃ setup s₁ o', beforeAll s = (.done setup, s₁) ∧ runCases s.suite.runs s₁ = (o', s') ∧
      Action.Broken o' o) ∨
    ∃ o', beforeAll s = (o', s') ∧ Action.Broken o' o := by
  rcases Action.bind_cases h with ⟨setup, s₁, hsetup, h⟩ | ⟨o', hsetup, hb⟩
  · rw [Action.bind_of_done (Action.get_run s₁), (beforeAll_same hsetup).suite] at h
    rcases Action.bind_cases h with ⟨cases, s₂, hcases, h⟩ | ⟨o', hcases, hb⟩
    · cases h
      exact .inl ⟨setup, s₁, cases, hsetup, hcases, rfl⟩
    · exact .inr (.inl ⟨setup, s₁, o', hsetup, hcases, hb⟩)
  · exact .inr (.inr ⟨o', hsetup, hb⟩)

/-- The opening of a run keeps a relation that is kept by the phase before all cases, and by all
that contexts share. -/
lemma opening_keeps {R : Context → Context → Prop} (hR : Lenient R)
    (hshared : ∀ c shared, R c { c with shared }) (hopen : Keeps R (s.opens Hooks.beforeAll))
    (hlist : Keeps R (s.machine.runSteps s.suite.beforeAll)) {o : Outcome (List TestResult)}
    (h : opening s = (o, s')) (ho : o ≠ .exhausted) : R s.context s'.context := by
  have hsetup {o : Outcome (Option TestResult)} {s₁ : Session} (h : beforeAll s = (o, s₁))
      (ho : o ≠ .exhausted) : R s.context s₁.context := by
    obtain ⟨s₀, hphase, hleft⟩ := beforeAll_cases h
    have hkept := runPhase_keeps hR hopen hlist hphase ho
    rcases hleft with ⟨r, -, rfl⟩ | ⟨-, rfl⟩
    · exact hkept
    · exact hkept
  have hcases {setup : Option TestResult} {s₁ : Session} (h : beforeAll s = (.done setup, s₁))
      {o : Outcome (List TestResult)} (hcases : runCases s.suite.runs s₁ = (o, s')) :
      R s.context s'.context := by
    rw [runCases_continues hcases]
    exact hR.trans _ _ _ (hsetup h (by simp)) (hshared _ _)
  rcases opening_cases h with ⟨_, s₁, _, hbefore, hruns, -⟩ | ⟨_, s₁, _, hbefore, hruns, -⟩ |
    ⟨_, hbefore, hb⟩
  · exact hcases hbefore hruns
  · exact hcases hbefore hruns
  · exact hsetup hbefore (hb.ne_exhausted ho)

lemma opening_same {o : Outcome (List TestResult)} (h : opening s = (o, s')) : s.Same s' := by
  rcases opening_cases h with ⟨_, s₁, _, hsetup, hcases, -⟩ | ⟨_, s₁, _, hsetup, hcases, -⟩ |
    ⟨_, hsetup, -⟩
  · exact (beforeAll_same hsetup).trans (same_sharing (runCases_continues hcases))
  · exact (beforeAll_same hsetup).trans (same_sharing (runCases_continues hcases))
  · exact beforeAll_same hsetup

lemma Articulate.congr (hs : s.Articulate) (h : s.Same s') : s'.Articulate where
  machine := by
    rw [machine, h.environment]
    exact hs.machine
  afterTest := by
    rw [h.environment]
    exact hs.afterTest
  beforeAll := by
    rw [h.environment]
    exact hs.beforeAll
  afterAll := by
    rw [h.environment]
    exact hs.afterAll
  beforeTest := by
    rw [h.environment]
    exact hs.beforeTest

/-! ### The whole run -/

section Articulate

variable (hs : s.Articulate)
include hs

lemma runCases_not_failed
    (hruns : ∀ run ∈ runs, run.2 ∈ run.1.runs ∧ run.1.data.length < Number.wordBound) :
    runCases runs s ≠ (.failed f, s') := by
  intro h
  obtain ⟨k, position, s₁, hturn, hran⟩ := runCases_failed h
  obtain ⟨hposition, hrows⟩ := hruns _ hturn.mem
  exact runCase_not_failed (hs.congr (same_sharing hturn.shares)) hposition hrows hran

lemma beforeAll_not_failed (hc : s.context.Loggable) : beforeAll s ≠ (.failed f, s') := by
  intro h
  obtain ⟨s₁, hphase, -⟩ := beforeAll_cases h
  exact runPhase_not_failed hs.machine (opens_spoken hs.beforeAll) hc hphase

/-- The opening of a run leaves alone what the records of the session are marked with. -/
lemma opening_marks {o : Outcome (List TestResult)} (h : opening s = (o, s'))
    (ho : o ≠ .exhausted) : SameMarks s.context s'.context :=
  opening_keeps sameMarks_lenient (fun _ _ => ⟨rfl, rfl⟩) (opens_spoken hs.beforeAll).keeps
    (Machine.runSteps_keeps Machine.sameMarks_harmless hs.machine _) h ho

/-- Where the records of the session can be written, the opening of a run does not fail. -/
lemma opening_not_failed (hrows : ∀ k ∈ s.suite.cases, k.data.length < Number.wordBound)
    (hc : s.context.Loggable) : opening s ≠ (.failed f, s') := by
  intro h
  have hruns (run : Case × Option Position) (hrun : run ∈ s.suite.runs) :
      run.2 ∈ run.1.runs ∧ run.1.data.length < Number.wordBound :=
    ⟨(Suite.mem_runs hrun).2, hrows _ (Suite.mem_runs hrun).1⟩
  rcases opening_cases h with ⟨_, s₁, _, _, _, ho⟩ | ⟨_, s₁, o', hsetup, hcases, hb⟩ |
    ⟨o', hsetup, hb⟩
  · cases ho
  · obtain rfl := hb.of_failed
    exact runCases_not_failed (hs.congr (beforeAll_same hsetup)) hruns hcases
  · obtain rfl := hb.of_failed
    exact beforeAll_not_failed hs hc hsetup

end Articulate

/-- The shape of what a run gives: at most one result of the phase before all cases, one for each
run of a case, in their order, and at most one of the phase after them. Phases only have results
that are errors. -/
structure Shape (s : Session) (setup : Option TestResult) (cases : List TestResult)
    (teardown : Option TestResult) : Prop where
  setup : ∀ r ∈ setup, ∃ steps i, r = s.phaseError "before_all" steps i
  cases : List.Forall₂ (fun run r => TestResult.IsFor r run.1 run.2) s.suite.runs cases
  teardown : ∀ r ∈ teardown, ∃ steps i, r = s.phaseError "after_all" steps i

lemma phaseError_same (h : s.Same s') (name : String) (rs : List StepResult) (i : ErrorInfo) :
    s'.phaseError name rs i = s.phaseError name rs i := by
  rw [phaseError, phaseError, phaseBlank, phaseBlank, h.suite]

/-- The opening of a run and the phase after all cases give results in their shape. -/
lemma shape_of_done {teardown : Option TestResult} (hopening : opening s = (.done rs, s₂))
    (hafter : afterAll s₂ = (.done teardown, s')) :
    ∃ setup cases s₁, rs = setup.toList ++ cases ∧ s.Shape setup cases teardown ∧
      beforeAll s = (.done setup, s₁) ∧ runCases s.suite.runs s₁ = (.done cases, s₂) ∧
      (setup.isSome = true → cases = s.suite.runs.map leftOut ∧ s₂ = s₁.tellingAll cases) := by
  rcases opening_cases hopening with ⟨setup, s₁, cases, hsetup, hcases, ho⟩ | ⟨_, _, o', -, -, hb⟩ |
    ⟨o', -, hb⟩
  rotate_left
  · cases hb
  · cases hb
  cases ho
  have hsame : s.Same s₂ := (beforeAll_same hsetup).trans (same_sharing (runCases_continues hcases))
  obtain ⟨s₀, hphase, hleft⟩ := beforeAll_cases hsetup
  refine ⟨setup, cases, s₁, rfl, ⟨?_, ?_, ?_⟩, hsetup, hcases, fun hsome => ?_⟩
  · rintro r rfl
    exact runPhase_some hphase
  · exact (runCases_done hcases).imp fun run r ⟨_, _, _, hran⟩ => runCase_isFor hran
  · rintro r rfl
    obtain ⟨steps, i, hr⟩ := runPhase_some hafter
    exact ⟨steps, i, hr.trans (phaseError_same hsame _ _ _)⟩
  · rcases hleft with ⟨r, ho, rfl⟩ | ⟨ho, -⟩
    · cases ho
      have hfailed : ({ s₀ with setupError := setup } : Session).setupError.isSome = true := hsome
      have hleftOut := runCases_leftOut hfailed fun run (hrun : run ∈ s.suite.runs) =>
        (Suite.mem_runs hrun).2
      cases hcases.symm.trans hleftOut
      exact ⟨rfl, rfl⟩
    · exact absurd rfl (ho setup)

/-- **The shape of a run.** A run that ends comes at last to the phase after all cases, once. Either
it gives results in their shape; where the phase before all cases has one, all cases are left out,
and nothing but that is logged becomes of the session. Or it fails, but only where the records of
the session cannot be written behind their heads. -/
theorem runSuite_shape (s : Session) (hs : s.Articulate)
    (hrows : ∀ k ∈ s.suite.cases, k.data.length < Number.wordBound) (o : Outcome (List TestResult))
    (s' : Session) (h : runSuite s = (o, s')) (ho : o ≠ .exhausted) :
    ∃ before s₂ o₂, Action.attempt opening s = (.done before, s₂) ∧ afterAll s₂ = (o₂, s') ∧
      o = closed before o₂ ∧
      ((∃ setup cases teardown s₁, o = .done (setup.toList ++ cases ++ teardown.toList) ∧
          s.Shape setup cases teardown ∧ beforeAll s = (.done setup, s₁) ∧
          runCases s.suite.runs s₁ = (.done cases, s₂) ∧ o₂ = .done teardown ∧
          (setup.isSome = true → cases = s.suite.runs.map leftOut ∧ s₂ = s₁.tellingAll cases)) ∨
        (∃ f, o = .failed f) ∧ ¬s.context.Loggable) := by
  rcases runSuite_cases h with ⟨before, s₂, o₂, hopening, hafter, rfl⟩ | ⟨-, rfl⟩
  swap
  · exact absurd rfl ho
  refine ⟨before, s₂, o₂, hopening, hafter, rfl, ?_⟩
  have hsame : s.Same s₂ := by
    cases before with
    | ok rs => exact opening_same (Action.attempt_ok hopening)
    | error f => exact opening_same (Action.attempt_error hopening)
  have hmarks : SameMarks s.context s₂.context := by
    cases before with
    | ok rs => exact opening_marks hs (Action.attempt_ok hopening) (by simp)
    | error f => exact opening_marks hs (Action.attempt_error hopening) (by simp)
  cases o₂ with
  | exhausted => exact absurd rfl ho
  | failed f =>
    have hs₂ := hs.congr hsame
    refine .inr ⟨⟨f, rfl⟩, fun hc => ?_⟩
    exact runPhase_not_failed hs₂.machine (opens_spoken hs₂.afterAll) (hc.congr hmarks) hafter
  | done teardown =>
    cases before with
    | ok rs =>
      obtain ⟨setup, cases, s₁, rfl, hshape, hsetup, hcases, hskips⟩ :=
        shape_of_done (Action.attempt_ok hopening) hafter
      exact .inl ⟨setup, cases, teardown, s₁, rfl, hshape, hsetup, hcases, rfl, hskips⟩
    | error f =>
      refine .inr ⟨⟨f, rfl⟩, fun hc => ?_⟩
      exact opening_not_failed hs hrows hc (Action.attempt_error hopening)

/-- A case that weighs what is on its rows. -/
def weighing : Case :=
  { (default : Case) with
    name := "weighing"
    data := [⟨some "apples", []⟩, ⟨none, []⟩]
    steps := [⟨"weigh", "note", [], []⟩] }

/-- A session of a market that does not open. -/
def market (name : String) : Session :=
  { ofExecutors tillExecutors [] { testName := some name } with
    suite := { (default : Suite) with
      name
      beforeAll := [⟨"open", "fail", [], []⟩]
      cases := [failing, weighing] } }

lemma market_articulate (name : String) : (market name).Articulate where
  machine := by
    refine Machine.ofExecutors_respects fun e he c o c' h _ => ?_
    rcases List.mem_cons.mp he with rfl | he
    · cases h
      exact ⟨rfl, rfl⟩
    · rw [List.mem_singleton.mp he] at h
      cases h
      exact ⟨rfl, rfl⟩
  afterTest h hh := by cases hh
  beforeAll h hh := by cases hh
  afterAll h hh := by cases hh
  beforeTest h hh := by cases hh

lemma market_rows (name : String) :
    ∀ k ∈ (market name).suite.cases, k.data.length < Number.wordBound := by
  intro k hk
  rcases List.mem_cons.mp hk with rfl | hk
  · decide
  · rw [List.mem_singleton.mp hk]
    decide

/-- Where the market does not open, the sale and both rows of the weighing are left out. -/
theorem runSuite_shape_market : ∃ rs t setup cases teardown,
    runSuite (market "Market") = (.done rs, t) ∧
    rs = setup.toList ++ cases ++ teardown.toList ∧ (market "Market").Shape setup cases teardown ∧
    rs.map (fun r => (r.testName, r.status)) =
      [("Market before_all", .error), ("sale", .skipped), ("weighing[apples]", .skipped),
        ("weighing[1]", .skipped)] := by
  obtain ⟨rs, t, h, hrs⟩ := Action.exists_done_eq (x := runSuite) (s := market "Market")
    (g := fun rs => rs.map fun r => (r.testName, r.status))
    (b := [("Market before_all", .error), ("sale", .skipped), ("weighing[apples]", .skipped),
      ("weighing[1]", .skipped)]) (by decide +kernel)
  obtain ⟨before, s₂, o₂, -, -, -, hshape | ⟨⟨f, hf⟩, -⟩⟩ := runSuite_shape (market "Market")
    (market_articulate _) (market_rows _) _ t h (by simp)
  · obtain ⟨setup, cases, teardown, s₁, ho, hshape, -⟩ := hshape
    cases ho
    exact ⟨_, t, setup, cases, teardown, h, rfl, hshape, hrs⟩
  · cases hf

/-- A market whose name has a percent sign gives no results at all. -/
theorem half_market_fails : (market "50% done").Articulate ∧
    (∀ k ∈ (market "50% done").suite.cases, k.data.length < Number.wordBound) ∧
    ∃ f t, runSuite (market "50% done") = (.failed f, t) :=
  ⟨market_articulate _, market_rows _, Action.exists_failed (by decide +kernel)⟩

end Session

end BlockSuite
