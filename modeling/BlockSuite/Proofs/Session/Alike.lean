import BlockSuite.Proofs.Machine.Alike
import BlockSuite.Proofs.Session.Whole

/-!
Cases and phases in related contexts. Where a machine and what is attached to a session make no
difference between related contexts, a case comes to the same result in them, and so does a phase.
This goes for contexts that differ in what is written into the journal.
-/

namespace BlockSuite

open BlockSuite.Action (Agree Congruent)
open BlockSuite.Context (Likeness)

/-- A likeness that outlives what is done to contexts around a case: related contexts stay related
when their collected failures are taken, when a case is set apart, and when what contexts share is
taken over from related ones. -/
structure Context.Likeness.Shared (S : Context → Context → Prop) : Prop extends Likeness S where
  settled : ∀ c d, S c d → S { c with softErrors := [] } { d with softErrors := [] }
  forked : ∀ c d, S c d → ∀ bindings row position soft testName,
    S (c.fork bindings row position soft testName) (d.fork bindings row position soft testName)
  shared : ∀ b e c d, S b e → S c d → S { b with shared := c.shared } { e with shared := d.shared }

lemma Context.Alike.likeness_shared : Likeness.Shared Context.Alike where
  toLikeness := Context.Alike.likeness
  settled _ _ h := { h with softErrors := rfl }
  forked c d h bindings row position soft testName := by
    have hname : (c.fork bindings row position soft testName).testName =
        (d.fork bindings row position soft testName).testName := by
      rw [Context.fork, Context.fork, h.testName]
    have hsoft : (c.fork bindings row position soft testName).soft =
        (d.fork bindings row position soft testName).soft := by
      rw [Context.fork, Context.fork, h.soft]
    refine { h with row := rfl, position := rfl, testName := hname, soft := hsoft,
                    softErrors := rfl, callDepth := rfl, bindings := fun name => ?_ }
    change (c.bindings.update bindings).get? name = (d.bindings.update bindings).get? name
    rw [Dict.get?_update_ofPairs, Dict.get?_update_ofPairs, h.bindings]
  shared _ _ _ _ h h' :=
    { h with procedures := h'.procedures, cancelled := h'.cancelled, level := h'.level }

namespace Trial

/-- Two trials in related contexts, with the same record. -/
structure Beside (S : Context → Context → Prop) (t u : Trial) : Prop where
  context : S t.context u.context
  result : t.result = u.result

variable {S : Context → Context → Prop} {m : Machine} {t u : Trial}

lemma inContext_agrees {α : Type} {x : Run α} (hx : Congruent S x) (h : t.Beside S u) :
    Agree (Beside S) Eq (inContext x) t (inContext x) u := by
  rcases ht : x t.context with ⟨o, c⟩
  rcases hu : x u.context with ⟨o', d⟩
  obtain ⟨ho, hs⟩ := hx _ _ h.context
  rw [ht, hu] at ho hs
  exact .of_run (inContext_run ht) (inContext_run hu) ho ⟨hs, h.result⟩

lemma note_agrees (change : TestResult → TestResult) (h : t.Beside S u) :
    Agree (Beside S) Eq (note change) t (note change) u :=
  .modify ⟨h.context, congrArg change h.result⟩

lemma close_agrees (status : Status) (f : Option Failure) (h : t.Beside S u) :
    Agree (Beside S) Eq (close status f) t (close status f) u := by
  refine .get ?_
  rw [h.result]
  refine (Agree.lift _ h).bind ?_
  rintro r t₁ _ u₁ - - rfl h₁
  exact note_agrees _ h₁

/-- The verdict on a run, given its first failure and the collected ones. -/
def judge (failure : Option StepResult) (errors : List SoftError) : Act Unit :=
  match failure with
  | none =>
    if errors.isEmpty then close .passed none
    else close .failed (some (.raised (.ofSoft errors)))
  | some step =>
    if step.isSkipped then do
      close .skipped none
      note fun r => { r with error := step.error }
    else do
      close .failed step.failure
      note fun r => { r with error := r.error <|> step.error }

lemma settle_eq (failure : Option StepResult) : settle failure =
    (do
      let errors ← inContext Context.takeSoftErrors
      if !errors.isEmpty then do
        note fun r => { r with softErrors := errors }
        judge failure errors
      else judge failure errors) := rfl

lemma judge_agrees (failure : Option StepResult) (errors : List SoftError) (h : t.Beside S u) :
    Agree (Beside S) Eq (judge failure errors) t (judge failure errors) u := by
  unfold judge
  cases failure with
  | none =>
    dsimp only
    split
    · exact close_agrees _ _ h
    · exact close_agrees _ _ h
  | some step =>
    dsimp only
    split
    · exact (close_agrees _ _ h).bind fun _ _ _ _ _ _ _ h => note_agrees _ h
    · exact (close_agrees _ _ h).bind fun _ _ _ _ _ _ _ h => note_agrees _ h

variable (hS : Likeness.Shared S)
include hS

lemma takeSoftErrors_congruent : Congruent S Context.takeSoftErrors := fun c d h => by
  refine .of_run (Context.takeSoftErrors_run c) (Context.takeSoftErrors_run d) ?_
    (hS.settled c d h)
  rw [hS.collected c d h]
  exact .done rfl

lemma settle_agrees (failure : Option StepResult) (h : t.Beside S u) :
    Agree (Beside S) Eq (settle failure) t (settle failure) u := by
  rw [settle_eq]
  refine (inContext_agrees (takeSoftErrors_congruent hS) h).bind ?_
  rintro errors t₁ _ u₁ - - rfl h₁
  split
  · exact (note_agrees _ h₁).bind fun _ _ _ _ _ _ _ h₂ => judge_agrees failure errors h₂
  · exact judge_agrees failure errors h₁

section Lists

variable (hm : m.Even S)
include hm

lemma runPart_agrees (steps : List Step) (h : t.Beside S u) :
    Agree (Beside S) Eq (runPart m steps) t (runPart m steps) u := by
  have hlist : Congruent S (m.runSteps steps) := hm.runList hS.toLikeness _ steps
  refine (inContext_agrees hlist h).bind ?_
  rintro rs t₁ _ u₁ - - rfl h₁
  exact (note_agrees _ h₁).bind fun _ _ _ _ _ _ _ h₂ => .pure rfl h₂

lemma runUntilFailure_agrees (lists : List (List Step)) (h : t.Beside S u) :
    Agree (Beside S) Eq (runUntilFailure m lists) t (runUntilFailure m lists) u := by
  induction lists generalizing t u with
  | nil => exact .pure rfl h
  | cons steps rest ih =>
    refine (runPart_agrees hS hm steps h).bind ?_
    rintro first t₁ _ u₁ - - rfl h₁
    cases first with
    | none => exact ih h₁
    | some r => exact .pure rfl h₁

lemma runAll_agrees (known : Option StepResult) (lists : List (List Step)) (h : t.Beside S u) :
    Agree (Beside S) Eq (runAll m known lists) t (runAll m known lists) u := by
  induction lists generalizing known t u with
  | nil => exact .pure rfl h
  | cons steps rest ih =>
    refine (runPart_agrees hS hm steps h).bind ?_
    rintro first t₁ _ u₁ - - rfl h₁
    exact ih _ h₁

lemma run_agrees (suite : Suite) (k : Case) (h : t.Beside S u) :
    Agree (Beside S) Eq (run m suite k) t (run m suite k) u := by
  refine (runUntilFailure_agrees hS hm _ h).bind ?_
  rintro first t₁ _ u₁ - - rfl h₁
  refine (runAll_agrees hS hm first _ h₁).bind ?_
  rintro failure t₂ _ u₂ - - rfl h₂
  exact settle_agrees hS failure h₂

end Lists

end Trial

namespace Session

/-- Two sessions that differ in nothing but their contexts, which are related. -/
structure Beside (S : Context → Context → Prop) (s t : Session) : Prop where
  context : S s.context t.context
  rest : t = { s with context := t.context }

/-- The machine of a session and its hooks around cases make no difference between related
contexts. -/
structure Even (s : Session) (S : Context → Context → Prop) : Prop where
  machine : s.machine.Even S
  beforeTest : ∀ h ∈ s.environment.hooks, ∀ f, h.beforeTest = some f → ∀ k, Congruent S (f k)
  afterTest : ∀ h ∈ s.environment.hooks, ∀ f, h.afterTest = some f → ∀ k r, Congruent S (f k r)

/-- The machine of a session and its hooks around cases are impartial. -/
structure Impartial (s : Session) : Prop where
  machine : s.machine.Impartial
  beforeTest : ∀ h ∈ s.environment.hooks, ∀ f, h.beforeTest = some f →
    ∀ k, BlockSuite.Impartial (f k)
  afterTest : ∀ h ∈ s.environment.hooks, ∀ f, h.afterTest = some f →
    ∀ k r, BlockSuite.Impartial (f k r)

variable {S : Context → Context → Prop} {s t : Session} {k : Case} {position : Option Position}
  {name : String} {steps : List Step} {event : Hooks → Option (Suite → Run Unit)}

lemma Impartial.even (h : s.Impartial) : s.Even Context.Alike where
  machine := h.machine.even
  beforeTest := h.beforeTest
  afterTest := h.afterTest

lemma inContext_agrees {α : Type} {x : Run α} (hx : Congruent S x) (h : s.Beside S t) :
    Agree (Beside S) Eq (inContext x) s (inContext x) t := by
  obtain ⟨hcontext, hrest⟩ := h
  rw [hrest]
  rcases hs : x s.context with ⟨o, c⟩
  rcases ht : x t.context with ⟨o', d⟩
  obtain ⟨ho, hS⟩ := hx _ _ hcontext
  rw [hs, ht] at ho hS
  exact .of_run (inContext_run hs) (inContext_run (s := { s with context := t.context }) ht) ho
    ⟨hS, rfl⟩

variable (hS : Likeness.Shared S)
include hS

lemma closing_agrees (outcome : Except Failure Unit) {t u : Trial} (h : t.Beside S u) :
    Agree (Trial.Beside S) Eq (closing outcome) t (closing outcome) u := by
  cases outcome with
  | ok => exact .pure rfl h
  | error f =>
    refine (Trial.inContext_agrees (hS.log _ _ _ _) h).bind fun _ _ _ _ _ _ _ h₁ => ?_
    refine (Trial.note_agrees _ h₁).bind fun _ _ _ _ _ _ _ h₂ => ?_
    exact (Trial.close_agrees _ _ h₂).attempt

section Even

variable (hs : s.Even S)
include hs

omit hS in
lemma opensCase_congruent (k : Case) : Congruent S (s.opensCase k) :=
  Congruent.runAll fun h hh f hf => hs.beforeTest h hh f hf k

omit hS in
lemma shows_congruent (k : Case) (r : TestResult) : Congruent S (s.shows k r) :=
  Congruent.runAll fun h hh f hf => hs.afterTest h hh f hf k r

lemma showing_agrees (k : Case) {t u : Trial} (h : t.Beside S u) :
    Agree (Trial.Beside S) Eq (s.showing k) t (s.showing k) u := by
  refine .get ?_
  rw [h.result]
  refine (Agree.attempt (Trial.inContext_agrees (shows_congruent hs k _) h)).bind ?_
  rintro outcome t₁ _ u₁ - - rfl h₁
  cases outcome with
  | ok => exact .pure rfl h₁
  | error => exact Trial.inContext_agrees (hS.log _ _ _ _) h₁

lemma runTrial_agrees (k : Case) {t u : Trial} (h : t.Beside S u) :
    Agree (Trial.Beside S) Eq (s.runTrial k) t (s.runTrial k) u := by
  rw [runTrial_eq]
  have hrun : Agree (Trial.Beside S) Eq (do
      Trial.inContext (s.opensCase k)
      Trial.run s.machine s.suite k) t _ u :=
    (Trial.inContext_agrees (opensCase_congruent hs k) h).bind fun _ _ _ _ _ _ _ h₁ =>
      Trial.run_agrees hS hs.machine s.suite k h₁
  refine hrun.attempt.bind ?_
  rintro outcome t₁ _ u₁ - - rfl h₁
  refine (closing_agrees hS outcome h₁).bind ?_
  rintro closed t₂ _ u₂ - - rfl h₂
  exact (showing_agrees hS hs k h₂).bind fun _ _ _ _ _ _ _ h₃ => .lift closed h₃

/-- **A case is run alike in related contexts**, and leaves sessions in related contexts. -/
theorem runCase_beside (h : s.Beside S t) :
    Agree (Beside S) Eq (runCase k position) s (runCase k position) t := by
  obtain ⟨hcontext, hrest⟩ := h
  have hbeside : s.Beside S t := ⟨hcontext, hrest⟩
  generalize hd : t.context = d at hcontext hrest
  subst hrest
  cases hp : position.mapM (fun p => p.pick k.data) with
  | error e =>
    have hstuck (s : Session) : runCase k position s = (.failed (.ofFault e), s) := by
      rw [runCase, Action.bind_of_done (Action.get_run _), hp]
      rfl
    exact .of_run (hstuck _) (hstuck _) (.failed _) hbeside
  | ok row =>
    by_cases he : s.setupError.isSome = true
    · exact .of_run (runCase_notRun he hp) (runCase_notRun (s := { s with context := d }) he hp)
        (.done rfl) hbeside
    have he : s.setupError = none := Option.not_isSome_iff_eq_none.mp he
    have hforked : S (s.forked k position row)
        (Session.forked { s with context := d } k position row) :=
      hS.forked _ _ hcontext _ _ _ _ _
    have htrial : Agree (Trial.Beside S) Eq (s.runTrial k)
        ⟨s.forked k position row, blank k position⟩
        (s.runTrial k) ⟨Session.forked { s with context := d } k position row, blank k position⟩ :=
      runTrial_agrees hS hs k ⟨hforked, rfl⟩
    have hleft {t u : Trial} (h : t.Beside S u) :
        Beside S (s.sharing t.context.shared)
          (Session.sharing { s with context := d } u.context.shared) :=
      ⟨hS.shared _ _ _ _ hcontext h.context, rfl⟩
    have hrun : runCase k position { s with context := d } = takeOver
        (s.runTrial k ⟨Session.forked { s with context := d } k position row, blank k position⟩)
        { s with context := d } := runCase_run (s := { s with context := d }) he hp
    refine .congr (runCase_run he hp) hrun ?_
    rcases htrial.cases with ⟨_, t, _, u, ht, hu, rfl, h⟩ | ⟨e, t, u, ht, hu, h⟩ |
      ⟨t, u, ht, hu, h⟩
    · rw [ht, hu]
      exact .of_run rfl rfl (.done h.result) (hleft h)
    · rw [ht, hu]
      exact .of_run rfl rfl (.failed e) (hleft h)
    · rw [ht, hu]
      exact .of_run rfl rfl .exhausted (hleft h)

/-- A phase is run alike in related contexts, if its hooks make no difference between them. -/
lemma runPhase_beside
    (hopen : ∀ h ∈ s.environment.hooks, ∀ f, event h = some f → ∀ suite, Congruent S (f suite))
    (h : s.Beside S t) :
    Agree (Beside S) Eq (runPhase name steps event) s (runPhase name steps event) t := by
  obtain ⟨hcontext, hrest⟩ := h
  have hbeside : s.Beside S t := ⟨hcontext, hrest⟩
  have hopens : Congruent S (s.opens event) :=
    Congruent.runAll fun h hh f hf => hopen h hh f hf s.suite
  have hsteps : Congruent S (s.machine.runSteps steps) := hs.machine.runList hS.toLikeness _ steps
  have htells (r : Except Failure TestResult) : Congruent S (Action.lift r : Run TestResult) :=
    fun _ _ h => .lift r h
  have hconclude (outcome : Except Failure (List StepResult)) :
      Congruent S (s.concludePhase name outcome) := by
    cases outcome with
    | error f => exact (hS.log _ _ _ _).bind fun _ => (htells _).bind fun _ => .pure _
    | ok rs =>
      simp only [concludePhase]
      split
      · exact .pure _
      · exact (hS.log _ _ _ _).bind fun _ => (htells _).bind fun _ => .pure _
  have hphase : Congruent S (do
      let outcome ← Action.attempt do
        s.opens event
        s.machine.runSteps steps
      s.concludePhase name outcome) :=
    (hopens.bind fun _ => hsteps).attempt.bind hconclude
  have hsame : runPhase name steps event t = inContext (do
      let outcome ← Action.attempt do
        s.opens event
        s.machine.runSteps steps
      s.concludePhase name outcome) t := by
    rw [runPhase_eq, hrest]
    rfl
  exact .congr (runPhase_eq s) hsame (inContext_agrees hphase hbeside)

end Even

omit hS in
/-- **What stands in the journal makes no difference to a case.** -/
theorem runCase_agrees (hs : s.Impartial) (records : List (Level × String)) :
    (runCase k position { s with context := s.context.withRecords records }).1 =
      (runCase k position s).1 := by
  have hbeside : Beside Context.Alike s { s with context := s.context.withRecords records } :=
    ⟨(Context.Alike.refl s.context).withRecords s.context.shared.journal.records records, rfl⟩
  have hagree : Agree (Beside Context.Alike) Eq (runCase k position) s (runCase k position) _ :=
    runCase_beside Context.Alike.likeness_shared hs.even hbeside
  exact hagree.outcome.eq.symm

end Session

end BlockSuite
