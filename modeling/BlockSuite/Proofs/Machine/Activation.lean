import BlockSuite.Proofs.Machine.Layer

/-!
Activations: steps that a machine has run to their results, wherever in a run that happens. What is
shown of every activation holds of every step that is run, in a list, for a value, in a loop or in a
call, however deep.
-/

namespace BlockSuite

namespace Machine

/-- A step that a machine has run to its result. The steps inside it are run by the layers below. -/
structure Activation (m : Machine) where
  layers : Nat
  nested : Bool
  step : Step
  before : Context
  result : StepResult
  after : Context
  ran : m.runWith (layers + 1) nested step before = (.done result, after)

/-- The results of the try slot with which a step begins that asks for one. -/
def trials (m : Machine) (run : Runner) (nested : Bool) (step : Step) (c : Context) :
    List StepResult :=
  match m.consult run nested step ⟨c, .blank step⟩ with
  | (.done (.signal (.tryCatch trySlot _ _)), f) => triedBy run (step.slot trySlot) f.context
  | _ => []

variable {m : Machine} {run : Runner} {P : StepResult → Prop} {step : Step} {nested : Bool}
  {c c' : Context} {r : StepResult}

lemma tried_work (s : Signal) :
    tried run c (s.work step) =
      match s with
      | .tryCatch trySlot _ _ => triedBy run (step.slot trySlot) c
      | _ => [] := by
  cases s with
  | expand steps name frame bindings => cases frame <;> rfl
  | _ => rfl

lemma trials_of_signal {s : Signal} {f : Frame}
    (h : m.consult run nested step ⟨c, .blank step⟩ = (.done (.signal s), f)) :
    m.trials run nested step c = tried run f.context (s.work step) := by
  rw [tried_work]
  cases s <;> simp only [trials, h]

lemma trials_of_broken {o : Outcome Answer} {o' : Outcome Value} {f : Frame}
    (h : m.consult run nested step ⟨c, .blank step⟩ = (o, f)) (hb : Action.Broken o o') :
    m.trials run nested step c = [] := by
  cases hb <;> simp only [trials, h]

/-- The record of a step with the outcome of the step: it neither fails nor skips by itself, and a
result in it that does ends the step, but for failures in a try slot. -/
structure Recorded (P : StepResult → Prop) (tried : List StepResult) (o : Outcome Value)
    (r : StepResult) : Prop where
  breaks : r.breaks = false
  returned : r.returned = true → ∃ v, o = .done v
  given : ∀ x ∈ r.given, P x ∧ Told o [x]
  children : ∃ more, r.children = tried ++ more ∧ ∀ x ∈ more, P x ∧ Told o [x]
  tried : ∀ x ∈ tried, P x ∧ (x.isSkipped = true → Told o [x])

lemma Consulted.recorded {o : Outcome Value} (h : Consulted P o r) : Recorded P [] o r where
  breaks := h.breaks
  returned := fun hr => by
    rw [h.returned] at hr
    cases hr
  given := h.given
  children := ⟨[], by rw [h.children, List.append_nil], by simp⟩
  tried := by simp

lemma Consulted.continues {a : Answer} {rs : List StepResult} {r' : StepResult} {o : Outcome Value}
    (h : Consulted P (.done a) r) (h' : Continues P rs r o r') : Recorded P rs o r' where
  breaks := by rw [StepResult.breaks_congr h'.status h'.soft, h.breaks]
  returned := fun hr => by
    rcases h'.returned hr with hr | hv
    · rw [h.returned] at hr
      cases hr
    · exact hv
  given := by
    have hg : r'.given = r.given := by rw [StepResult.given, h'.inputs, StepResult.given]
    rw [hg]
    exact (h.of_done o).given
  children := by
    obtain ⟨more, hm, ht, hP⟩ := h'.children
    rw [h.children, List.nil_append] at hm
    exact ⟨more, hm, fun x hx => ⟨hP x hx, ht.of_mem hx⟩⟩
  tried := fun x hx =>
    ⟨h'.given x hx, fun hs => h'.skips.of_mem (List.mem_filter.mpr ⟨hx, hs⟩)⟩

/-- **The record of a step and its outcome agree**, for any runner of inner steps whose results
account for themselves. -/
theorem evaluate_recorded (ha : run.Yields StepResult.Accounts) (hP : run.Yields P) {f : Frame}
    {o : Outcome Value} (h : m.evaluate run nested step ⟨c, .blank step⟩ = (o, f)) :
    Recorded P (m.trials run nested step c) o f.result := by
  rcases Action.bind_cases h with ⟨a, f₁, h₁, h⟩ | ⟨o', h₁, hb⟩
  · have hc := consult_consulted ha hP h₁
    cases a with
    | value v =>
      have ht : m.trials run nested step c = [] := by simp only [trials, h₁]
      obtain ⟨rfl, rfl⟩ := Prod.mk.inj h
      rw [ht]
      exact (hc.of_done _).recorded
    | signal s =>
      rw [respond, perform_eq] at h
      rw [trials_of_signal h₁]
      exact hc.continues (carryOut_continues ha hP hc.returned h)
  · rw [trials_of_broken h₁ hb]
    exact ((consult_consulted ha hP h₁).of_broken hb).recorded

lemma evaluate_sameStep (ha : run.Yields StepResult.Accounts) {f : Frame} {o : Outcome Value}
    (h : m.evaluate run nested step ⟨c, .blank step⟩ = (o, f)) :
    SameStep (.blank step) f.result := by
  have hconsult {o : Outcome Answer} {f : Frame}
      (h : m.consult run nested step ⟨c, .blank step⟩ = (o, f)) :
      SameStep (.blank step) f.result := by
    rcases Action.bind_cases h with ⟨_, f₁, h₁, h⟩ | ⟨o', h₁, -⟩
    · have hblank : f₁.result = .blank step := announce_result h₁
      rw [← hblank]
      rcases Action.bind_cases h with ⟨p, f₂, h₂, h⟩ | ⟨o', h₂, -⟩
      · exact (prepare_sameStep ha h₂).trans (invoke_sameStep h)
      · exact prepare_sameStep ha h₂
    · rw [announce_result h₁]
      exact .refl _
  rcases Action.bind_cases h with ⟨answer, f₁, h₁, h⟩ | ⟨o', h₁, -⟩
  · cases answer with
    | value v =>
      cases h
      exact hconsult h₁
    | signal s =>
      rw [respond, perform_eq] at h
      have hrecord := consult_consulted ha ha h₁
      exact (hconsult h₁).trans (carryOut_continues ha ha hrecord.returned h).sameStep
  · exact hconsult h₁

/-! ### Results account for themselves -/

lemma Settled.accounts {f : Failure} {r' : StepResult} (hr : r.returned = false)
    (h : Settled r f r') : r'.Accounts := by
  cases h with
  | skipped hm =>
    refine ⟨fun hf => ?_, fun _ => ⟨_, _, rfl, hm, rfl⟩, fun h => ?_⟩
    · simp [StepResult.isFatal, skippedRecord] at hf
    · change r.returned = true at h
      rw [hr] at h
      cases h
  | raised he hi =>
    refine ⟨fun _ => ⟨_, _, rfl, he, hi, rfl⟩, fun hs => ?_, fun h => ?_⟩
    · simp [StepResult.isSkipped, failedRecord] at hs
    · change r.returned = true at h
      rw [hr] at h
      cases h
  | wrapped hf he hi =>
    have hw := wrapped_reason he
    refine ⟨fun _ => ⟨_, _, rfl, hw, hi, rfl⟩, fun hs => ?_, fun h => ?_⟩
    · simp [StepResult.isSkipped, failedRecord] at hs
    · change r.returned = true at h
      rw [hr] at h
      cases h

lemma Recorded.accounts {rs : List StepResult} {o : Outcome Value} {r' : StepResult}
    (h : Recorded P rs o r) (h' : Concluded r o r') : r'.Accounts := by
  cases h' with
  | value v => exact .of_calm h.breaks
  | failure hs =>
    refine hs.accounts ?_
    by_contra hr
    obtain ⟨v, hv⟩ := h.returned (by simpa using hr)
    cases hv

lemma Concluded.given {o : Outcome Value} {r' : StepResult} (h : Concluded r o r') :
    r'.given = r.given := by
  cases h with
  | value v => rfl
  | failure hs => cases hs <;> rfl

lemma Concluded.children {o : Outcome Value} {r' : StepResult} (h : Concluded r o r') :
    r'.children = r.children := by
  cases h with
  | value v => rfl
  | failure hs => cases hs <;> rfl

/-- **Every result accounts for how its step has ended.** -/
theorem runWith_accounts (m : Machine) (n : Nat) : (m.runWith n).Yields StepResult.Accounts := by
  induction n with
  | zero =>
    intro nested step c r c' h
    cases (Prod.mk.inj h).1
  | succ n ih =>
    intro nested step c r c' h
    obtain ⟨r₀, c₁, h₁, h₂⟩ := Action.bind_done h
    obtain ⟨o, f, he, hc, -⟩ := conclude_done h₁
    obtain ⟨v, rfl⟩ := report_done h₂
    have hr := (evaluate_recorded ih ih he).accounts hc
    exact ⟨hr.fatal, hr.skipped, hr.returned⟩

namespace Activation

variable (a : m.Activation)

/-- What runs the steps inside a step. -/
def inner : Runner := m.runWith a.layers

/-- The frame in which a step starts. -/
def fresh : Frame := ⟨a.before, .blank a.step⟩

/-- What the block of a step has answered, and the frame at that point. -/
def Answers (answer : Answer) (f : Frame) : Prop :=
  m.consult a.inner a.nested a.step a.fresh = (.done answer, f)

/-- The results of the try slot of a step whose block has asked for one. -/
def tried : List StepResult := m.trials a.inner a.nested a.step a.before

lemma inner_accounts : a.inner.Yields StepResult.Accounts := m.runWith_accounts a.layers

/-- The result of a step is what its record has become with the outcome of the step. -/
lemma concluded : ∃ o f r v, m.evaluate a.inner a.nested a.step a.fresh = (o, f) ∧
    Concluded f.result o r ∧ a.result = { r with artifact := v } := by
  obtain ⟨r₀, c₁, h₁, h₂⟩ := Action.bind_done a.ran
  obtain ⟨o, f, he, hc, -⟩ := conclude_done h₁
  obtain ⟨v, hv⟩ := report_done h₂
  exact ⟨o, f, r₀, v, he, hc, hv⟩

/-- What holds of all results of inner steps holds of the inputs and the children of a result. -/
lemma recorded (hP : a.inner.Yields P) : ∃ o r r' v, Recorded P a.tried o r ∧ Concluded r o r' ∧
    a.result = { r' with artifact := v } := by
  obtain ⟨o, f, r, v, he, hc, hr⟩ := a.concluded
  exact ⟨o, f.result, r, v, evaluate_recorded a.inner_accounts hP he, hc, hr⟩

lemma accounts : a.result.Accounts := m.runWith_accounts _ _ _ _ _ _ a.ran

/-- A result is that of the step that was run. -/
lemma sameStep (a : m.Activation) : SameStep (.blank a.step) a.result := by
  obtain ⟨o, f, r, v, heval, hc, hr⟩ := a.concluded
  have hrecord : SameStep f.result r := by
    cases hc with
    | value v => exact ⟨rfl, rfl⟩
    | failure hs => cases hs <;> exact ⟨rfl, rfl⟩
  rw [hr]
  obtain ⟨hid, htype⟩ := (evaluate_sameStep a.inner_accounts heval).trans hrecord
  exact ⟨hid, htype⟩

lemma stepId_eq (a : m.Activation) : a.result.stepId = a.step.id := a.sameStep.id

lemma stepType_eq (a : m.Activation) : a.result.stepType = a.step.type := a.sameStep.type

/-- Every step that is run to a result is an activation. -/
lemma of_run {n : Nat} (h : m.runWith n nested step c = (.done r, c')) :
    ∃ a : m.Activation, n = a.layers + 1 ∧ a.nested = nested ∧ a.step = step ∧ a.before = c ∧
      a.result = r := by
  cases n with
  | zero => cases (Prod.mk.inj h).1
  | succ n => exact ⟨⟨n, nested, step, c, r, c', h⟩, rfl, rfl, rfl, rfl, rfl⟩

end Activation

end Machine

end BlockSuite
