import BlockSuite.Proofs.Machine.Assertion
import BlockSuite.Proofs.Machine.Carried
import BlockSuite.Proofs.Machine.Logged
import BlockSuite.Proofs.Machine.Own

/-!
Where an error is placed. The step that an error ends first gives it its place, unless it has come
with one, and the steps around it only add what is not known yet. So the error names the innermost
step wherever it is met on its way, and the test that was run.
-/

namespace BlockSuite

/-- Nothing is known of the step and the test of a place. -/
structure Place.Unnamed (p : Place) : Prop where
  stepId : p.stepId = none
  stepType : p.stepType = none
  testName : p.testName = none
  row : p.row = none

/-- A failure that comes without the name of a step or a test. -/
def Failure.Unplaced (e : Failure) : Prop := ∀ err, e = .raised err → err.place.Unnamed

/-- A place names a step, and a test only as some contexts do. -/
structure Place.Names (p : Place) (step : Step) (contexts : Context → Prop) : Prop where
  stepId : p.stepId = some (.text step.id)
  stepType : p.stepType = some (.text step.type)
  testName : ∀ v, p.testName = some v → ∃ c, contexts c ∧ v = .ofText? c.testName
  row : ∀ v, p.row = some v → ∃ c, contexts c ∧ v = c.rowValue

namespace Place

variable {p : Place} {step step' : Step} {contexts contexts' : Context → Prop} {c : Context}

/-- What is known of the outer place counts where nothing is known of the inner one. -/
lemma orPresent_eq_some {inner around : Option Value} {v : Value}
    (h : orPresent inner around = some v) : inner = some v ∨ around = some v := by
  cases inner with
  | some w => exact .inl h
  | none => exact .inr (Option.filter_eq_some_iff.mp h).1

lemma Names.mono (h : p.Names step contexts) (hc : ∀ c, contexts c → contexts' c) :
    p.Names step contexts' where
  stepId := h.stepId
  stepType := h.stepType
  testName v hv := (h.testName v hv).imp fun _ ⟨hin, heq⟩ => ⟨hc _ hin, heq⟩
  row v hv := (h.row v hv).imp fun _ ⟨hin, heq⟩ => ⟨hc _ hin, heq⟩

/-- A step names itself where nothing is known of the place. -/
lemma Unnamed.names (h : p.Unnamed) (c : Context) (step : Step) :
    (p.within (Machine.placeOf c step)).Names step (· = c) where
  stepId := by
    show orPresent p.stepId _ = _
    rw [h.stepId]
    rfl
  stepType := by
    show orPresent p.stepType _ = _
    rw [h.stepType]
    rfl
  testName v hv := by
    rcases orPresent_eq_some hv with hv | hv
    · rw [h.testName] at hv
      cases hv
    · exact ⟨c, rfl, (Option.some.inj hv).symm⟩
  row v hv := by
    rcases orPresent_eq_some hv with hv | hv
    · rw [h.row] at hv
      cases hv
    · exact ⟨c, rfl, (Option.some.inj hv).symm⟩

/-- What is named is kept. -/
lemma Names.within (h : p.Names step contexts) (c : Context) (step' : Step) :
    (p.within (Machine.placeOf c step')).Names step fun c' => contexts c' ∨ c' = c where
  stepId := by
    show orPresent p.stepId _ = _
    rw [h.stepId]
    rfl
  stepType := by
    show orPresent p.stepType _ = _
    rw [h.stepType]
    rfl
  testName v hv := by
    rcases orPresent_eq_some hv with hv | hv
    · obtain ⟨c', hin, heq⟩ := h.testName v hv
      exact ⟨c', .inl hin, heq⟩
    · exact ⟨c, .inr rfl, (Option.some.inj hv).symm⟩
  row v hv := by
    rcases orPresent_eq_some hv with hv | hv
    · obtain ⟨c', hin, heq⟩ := h.row v hv
      exact ⟨c', .inl hin, heq⟩
    · exact ⟨c, .inr rfl, (Option.some.inj hv).symm⟩

end Place

namespace Assertion

variable {x : Assertion} {c c' : Context} {e : Failure} {step : Step}

/-- An assertion that is taken for the current step fails with its error, or with a failure of the
engine itself. -/
lemma handle_failed (h : x.handle none none c = (.failed e, c')) :
    e.Internal ∨ c' = c ∧ e = .raised (x.currentError c) := by
  cases handle_cases h with
  | raised fails hard => exact .inr ⟨rfl, rfl⟩
  | unfit fails soft record =>
    obtain ⟨i, rfl⟩ := currentRecord_error record
    exact .inl (.invalid i)
  | collected fails soft record logged =>
    exact .inl ((Machine.internal_journalFree.log _ _ _ _).failed logged).2

/-- The error of an assertion names the step that is current. -/
lemma currentError_names (h : c.currentStep = some step) :
    (x.currentError c).place.Names step (· = c) where
  stepId := by simp [currentError, hardError, source, orCurrent, h, Value.ofText?]
  stepType := by simp [currentError, hardError, source, orCurrent, h, Value.ofText?]
  testName _ hv := ⟨c, rfl, (Option.some.inj hv).symm⟩
  row _ hv := ⟨c, rfl, (Option.some.inj hv).symm⟩

end Assertion

namespace Machine

open BlockSuite.Action (Meets Contract)
open BlockSuite.Context (SameMarks)

variable {m : Machine} {run : Runner} {step : Step} {f f' : Frame} {e : Failure} {c : Context}

/-! ### What is raised -/

/-- What executors and the hooks before steps raise comes without a place, but for assertions that
an executor takes for the current step. -/
structure RaisesFresh (m : Machine) : Prop where
  executor : ∀ type block, m.blocks.lookup type = some block →
    ∀ params c e c', block.executor params c = (.failed e, c') → e.Unplaced ∨
      ∃ (x : Assertion) (c₁ : Context), c₁.currentStep = c.currentStep ∧
        x.handle none none c₁ = (.failed e, c')
  beforeStep : ∀ h ∈ m.hooks, ∀ f, h.beforeStep = some f →
    ∀ step c e c', f step c = (.failed e, c') → e.Unplaced

lemma unplaced_internal (h : e.Internal) : e.Unplaced := by
  rintro err rfl
  cases h

lemma unplaced_own (h : e.Own) : e.Unplaced := by
  cases h with
  | error reason message =>
    rintro err ⟨⟩
    exact ⟨rfl, rfl, rfl, rfl⟩
  | internal h => exact unplaced_internal h

/-- The contract that allows all states, and failures without a place. -/
def placeless : Contract Context := ⟨fun _ _ => True, Failure.Unplaced⟩

lemma placeless_journalFree : JournalFree placeless where
  refl _ := trivial
  trans _ _ _ _ _ := trivial
  records _ _ := trivial
  fault f := unplaced_internal (.fault f)

namespace Activation

variable {a b z : m.Activation}

/-- What a hook or an executor raises comes without a place, or names the step. -/
lemma Failed.places (hm : m.RaisesFresh) (h : a.Failed e f)
    (hraises : m.Raises a.inner a.nested a.step a.before e) :
    e.Unplaced ∨ ∃ err, e = .raised err ∧ err.place.Names a.step (· = f.context) := by
  cases hraises with
  | @hook c' listed running raised =>
    have hall : Meets placeless
        (Hooks.runAll m.hooks fun h => h.beforeStep.map fun x => x a.step) := by
      refine placeless_journalFree.runAll fun k hk g hg c => ?_
      rcases hgc : g a.step c with ⟨u | e | _, c'⟩
      · exact ⟨trivial, trivial⟩
      · exact ⟨trivial, hm.beforeStep k hk g hg a.step c e c' hgc⟩
      · trivial
    exact .inl (hall.failed raised).2
  | @executor f₁ f₂ block params c' announced prepared raised =>
    rcases hm.executor _ _ (prepare_lookup prepared) _ _ _ _ raised with hplain | ⟨x, c₁, hc₁, hx⟩
    · exact .inl hplain
    rcases Assertion.handle_failed hx with hinternal | ⟨rfl, rfl⟩
    · exact .inl (unplaced_internal hinternal)
    have hconsult : m.consult a.inner a.nested a.step a.fresh =
        (.failed (.raised (x.currentError c')), { f₂ with context := c' }) := by
      have hannounced : m.announce a.nested a.step a.fresh = (.done (), f₁) := announced
      rw [consult, Action.bind_of_done hannounced, Action.bind_of_done prepared]
      exact Action.bind_of_failed (Frame.inContext_run raised) _
    have hrun := h.ran
    rw [evaluate, Action.bind_of_failed hconsult] at hrun
    cases hrun
    exact .inr ⟨_, rfl, Assertion.currentError_names (hc₁.trans (prepare_currentStep prepared))⟩

/-- A step that fails by itself is named by its error. -/
lemma FailsItself.names (hm : m.RaisesFresh) (hitself : a.FailsItself) (h : a.Failed e f) :
    ∃ err, a.result.failure = some (.raised err) ∧ err.place.Names a.step (· = f.context) := by
  obtain ⟨err, hsettles, hfailure⟩ := h.error
  refine ⟨_, hfailure, ?_⟩
  have hraised : e.Unplaced ∨
      ∃ err, e = .raised err ∧ err.place.Names a.step (· = f.context) := by
    rcases hitself.raises h with hown | hraises
    · exact .inl (unplaced_own hown)
    · exact h.places hm hraises
  cases hsettles with
  | raised runtime =>
    rcases hraised with hplain | ⟨_, heq, hnames⟩
    · exact (hplain err rfl).names f.context a.step
    · cases heq
      exact (hnames.within f.context a.step).mono fun _ h => h.elim id id
  | wrapped own place =>
    have hunnamed : err.place.Unnamed := by
      rw [place]
      exact ⟨rfl, rfl, rfl, rfl⟩
    exact hunnamed.names f.context a.step

/-- A step that passes on an error leaves what the error says, and the step it names. -/
lemma PassesOn.names (h : a.PassesOn b) {eb : BlockError} {contexts : Context → Prop}
    (hb : b.result.failure = some (.raised eb)) (hnames : eb.place.Names step contexts) :
    ∃ e f ea, a.Failed e f ∧ a.result.failure = some (.raised ea) ∧ ea.reason = eb.reason ∧
      ea.message = eb.message ∧ ea.place.Names step fun c => contexts c ∨ c = f.context := by
  obtain ⟨e, f, hfailed, hhands⟩ := h
  have he : e = .raised eb := by
    rw [hhands.failure] at hb
    exact Option.some.inj hb
  subst he
  have hruntime : eb.reason.isRuntime = true := by
    obtain ⟨e, info, he, hruntime, -⟩ := b.accounts.fatal hhands.failsWith.fatal
    rw [hb] at he
    cases he
    exact hruntime
  obtain ⟨err, hsettles, hfailure⟩ := hfailed.error
  cases hsettles with
  | raised => exact ⟨_, f, _, hfailed, hfailure, rfl, rfl, hnames.within f.context a.step⟩
  | wrapped own place =>
    rw [Failure.ownStepId, if_pos hruntime, hnames.stepId] at own
    cases own

/-- A context in which one of the steps that carry a failure has failed. -/
def FailsIn (a z : m.Activation) (c : Context) : Prop :=
  ∃ y e f, a.Carries y ∧ y.Carries z ∧ y.Failed e f ∧ f.context = c

/-- The result of a step has the error of another one, which names that one. -/
structure HasError (a z : m.Activation) (e : BlockError) : Prop where
  failure : a.result.failure = some (.raised e)
  same : ∃ ez, z.result.failure = some (.raised ez) ∧ e.reason = ez.reason ∧
    e.message = ez.message
  names : e.place.Names z.step (a.FailsIn z)

/-- **An error that is carried names the step that has failed by itself.** -/
lemma Carries.hasError (hm : m.RaisesFresh) (h : a.Carries z) (hitself : z.FailsItself) :
    ∃ e, a.HasError z e := by
  induction h using Relation.ReflTransGen.head_induction_on with
  | refl =>
    obtain ⟨e, f, hfailed⟩ := failed_of_fatal hitself.fatal
    obtain ⟨err, hfailure, hnames⟩ := hitself.names hm hfailed
    refine ⟨err, hfailure, ⟨err, hfailure, rfl, rfl⟩, hnames.mono ?_⟩
    rintro c rfl
    exact ⟨z, e, f, .refl, .refl, hfailed, rfl⟩
  | @head a b hab hbz ih =>
    obtain ⟨eb, hfailure, ⟨ez, hz, hreason, hmessage⟩, hnames⟩ := ih
    obtain ⟨e, f, ea, hfailed, ha, hreason', hmessage', hnames'⟩ := hab.names hfailure hnames
    refine ⟨ea, ha, ⟨ez, hz, hreason'.trans hreason, hmessage'.trans hmessage⟩, hnames'.mono ?_⟩
    rintro c (⟨y, e', f', hby, hyz, hy, rfl⟩ | rfl)
    · exact ⟨y, e', f', .head hab hby, hyz, hy, rfl⟩
    · exact ⟨a, e, f, .refl, .head hab hbz, hfailed, rfl⟩

/-- How the failure of a step is carried from another one, which has failed by itself: on one way,
from the inputs or children of each step to the step itself, and together with whatever else has
failed inside but for try slots. Every result on the way has the same error, which names the step at
its end. -/
structure CarriedFrom (a z : m.Activation) : Prop where
  carries : a.Carries z
  itself : z.FailsItself
  ends : ∀ b, ¬z.PassesOn b
  chain : ∀ y y', a.Carries y → a.Carries y' → y.Carries y' ∨ y'.Carries y
  next : ∀ y b, a.Carries y → y.PassesOn b →
    b.result ∈ y.result.given ∨ b.result ∈ y.result.children
  only : ∀ y r, a.Carries y → r.isFatal = true →
    (r ∈ y.result.given ∨ ∃ rest, y.result.children = y.tried ++ rest ∧ r ∈ rest) →
    ∃ b, y.PassesOn b ∧ b.result = r
  fatal : ∀ y, a.Carries y → y.result.isFatal = true
  error : ∀ y, a.Carries y → y.result.error = z.result.error
  located : ∀ y, a.Carries y → ∃ e, y.HasError z e ∧
    e.place.stepId = some (.text z.result.stepId) ∧
    e.place.stepType = some (.text z.result.stepType)

/-- Every failure is carried from a step that has failed by itself. -/
lemma carriedFrom (hm : m.RaisesFresh) (ha : a.result.isFatal = true) : ∃ z, a.CarriedFrom z := by
  obtain ⟨z, haz, hitself, hends⟩ := exists_carries ha
  have hto (y : m.Activation) (hay : a.Carries y) : y.Carries z := haz.to_end hends hay
  have hfatal (y : m.Activation) (hay : a.Carries y) : y.result.isFatal = true :=
    (hto y hay).fatal hitself.fatal
  refine ⟨z, ?_⟩
  exact {
    carries := haz
    itself := hitself
    ends := hends
    chain := fun _ _ => Carries.total
    next := fun y b _ ⟨_, _, _, hands⟩ => hands.mem
    only := fun y r hay hr hmem => passesOn_of_mem (hfatal y hay) hmem hr
    fatal := hfatal
    error := fun y hay => (hto y hay).leadsTo.error
    located := fun y hay => by
      obtain ⟨e, he⟩ := (hto y hay).hasError hm hitself
      refine ⟨e, he, ?_, ?_⟩
      · rw [he.names.stepId, z.stepId_eq]
      · rw [he.names.stepType, z.stepType_eq] }

/-- What a machine and all that is attached to it keep, is kept from the start of a list to the
failures that are carried by the steps run for it. -/
lemma FailsIn.keeps {R : Context → Context → Prop} (hR : Harmless (.keeping R))
    (hm : m.Respects R) (hopen : ∀ c, R c (openFrame c)) {layers : Nat} {steps : List Step}
    {c c₁ : Context} (h : a.FailsIn z c₁) (hruns : m.RunsFor layers steps c a.start) :
    R c c₁ := by
  obtain ⟨y, e, f, hay, -, hfailed, rfl⟩ := h
  have hbefore : R c y.before := (hruns.contains hay.contains).keeps hR hm hopen
  have hrun (nested : Bool) (s : Step) : Action.Keeps R (y.inner nested s) :=
    runWith_keeps hR hm y.layers nested s
  exact hR.trans _ _ _ hbefore ((evaluate_keeps hR hm hrun y.nested y.step).failed hfailed.ran).1

end Activation

/-- **Errors are located at the innermost failing step.** Every result in the trees of a list is
that of a step that is run for it, and where such a step fails its failure is carried from one that
has failed by itself. The contexts in which the steps on the way have failed are marked as the one
of the list is, if nothing that is attached to the machine changes the marks. -/
theorem failures_are_located (m : Machine) (hm : m.RaisesFresh) (layers : Nat) (steps : List Step)
    (c c' : Context) (rs : List StepResult)
    (h : runList (m.runWith layers false) steps c = (.done rs, c')) :
    (∀ r ∈ StepResult.walkAll rs,
      ∃ a : m.Activation, m.RunsFor layers steps c a.start ∧ a.result = r) ∧
    ∀ a : m.Activation, m.RunsFor layers steps c a.start → a.result.isFatal = true →
      ∃ z, a.CarriedFrom z ∧ (m.Respects SameMarks → ∀ c₁, a.FailsIn z c₁ → SameMarks c c₁) := by
  refine ⟨fun r hr => exists_runsFor h hr, fun a hruns hfatal => ?_⟩
  obtain ⟨z, hz⟩ := a.carriedFrom hm hfatal
  refine ⟨z, hz, fun hmarks c₁ hc₁ => ?_⟩
  exact hc₁.keeps sameMarks_harmless hmarks (fun _ => ⟨rfl, rfl⟩) hruns

/-- A machine with a block that runs steps and one that checks something that does not hold. -/
def checking : Machine :=
  ofExecutors
    [("group", return .signal (.branch "DO")),
      ("check", do
        Assertion.handle { holds := false, message := .text "wrong total" }
        return .value .null)]

/-- A check inside two groups. -/
def grouped : Step :=
  ⟨"outer", "group", [], [("DO", [⟨"inner", "group", [], [("DO", [⟨"leaf", "check", [], []⟩])]⟩])]⟩

/-- A run of a test. -/
def sale : Context := { silent with testName := some "sale" }

theorem failures_are_located_grouped : ∃ rs c',
    runList (checking.runWith 3 false) [grouped] sale = (.done rs, c') ∧
    (∀ r ∈ StepResult.walkAll rs,
      ∃ a : checking.Activation, checking.RunsFor 3 [grouped] sale a.start ∧ a.result = r) ∧
    ∀ a : checking.Activation, checking.RunsFor 3 [grouped] sale a.start →
      a.result.isFatal = true →
      ∃ z, a.CarriedFrom z ∧
        (checking.Respects SameMarks → ∀ c₁, a.FailsIn z c₁ → SameMarks sale c₁) := by
  have hfresh : checking.RaisesFresh := by
    refine ⟨fun type block hb params c e c' h => ?_, fun k hk => ?_⟩
    · obtain ⟨x, hx, hexec⟩ := ofExecutors_lookup hb
      rw [hexec] at h
      obtain rfl | rfl : x = _ ∨ x = _ := by simpa [checking] using hx
      · cases h
      · rcases Action.bind_cases h with ⟨u, c₁, -, h⟩ | ⟨o, h, hbroken⟩
        · cases h
        · obtain rfl := hbroken.of_failed
          exact .inr ⟨_, c, rfl, h⟩
    · cases hk
  obtain ⟨rs, c', h⟩ := Action.exists_done (x := runList (checking.runWith 3 false) [grouped])
    (s := sale) (by decide +kernel)
  exact ⟨rs, c', h, failures_are_located checking hfresh 3 [grouped] sale c' rs h⟩

end Machine

end BlockSuite
