import BlockSuite.Proofs.Machine.Activation
import BlockSuite.Proofs.Machine.Keeps

/-!
Which failures become results. A step catches whatever ends it and records it, but the record takes
a text for its message: what an executor or a hook raises with a message that is no text goes past
the step. The step around it, if there is one, catches that as a fault like any other, so nothing
goes past two steps. The other way out is behind the result, where the failure of a hook that sees
the result cannot be written into the journal.
-/

namespace BlockSuite

namespace Failure

/-- Failures that a result can tell of: a skip whose reason is a text, a runtime error whose message
is a text or nothing at all, and any other failure that can be shown as a text. -/
def Recordable : Failure → Prop
  | .skip reason => ∃ s, Check.text reason = .ok s
  | .raised e =>
    if e.reason.isRuntime then e.message.isTruthy = true → ∃ s, Check.text e.message = .ok s
    else ∃ s, e.text = .ok s
  | f => ∃ s, f.text = .ok s

lemma recordText_ok {model : String} {v : Value} {s : String} :
    recordText model v = .ok s ↔ Check.text v = .ok s := by
  unfold recordText
  cases Check.text v with
  | ok t => simp
  | error issues => simp

lemma recordText_error {model : String} {v : Value} {f : Failure}
    (h : recordText model v = .error f) : ∃ e, f = .invalid e := by
  unfold recordText at h
  split at h
  · cases h
  · cases h
    exact ⟨_, rfl⟩

/-- A result can tell of what is no error of a block if that can be shown as a text. -/
lemma info_of_text {f : Failure} {s : String} (hf : ∀ e, f ≠ .raised e) (hs : f.text = .ok s) :
    ∃ i, f.info = .ok i := by
  have hrecord : ∃ t, recordText "ErrorInfo"
      (if (Value.text s).isTruthy then .text s else .text f.label) = .ok t := by
    split <;> exact ⟨_, rfl⟩
  obtain ⟨t, ht⟩ := hrecord
  have hinfo : f.info = (do
      let message ← recordText "ErrorInfo"
        (if (Value.text s).isTruthy then .text s else .text f.label)
      return ⟨message, f.trace, some f.code⟩) := by
    cases f with
    | raised e => exact absurd rfl (hf e)
    | _ =>
      simp only [info, hs]
      rfl
  rw [hinfo, ht]
  exact ⟨_, rfl⟩

/-- Failures with which the engine itself ends what it cannot go on with: a record that cannot be
made, and a fault of a computation. -/
inductive Internal : Failure → Prop
  | invalid (e : Invalid) : Internal (.invalid e)
  | fault (f : Fault) : Internal (.ofFault f)

namespace Internal

variable {f : Failure}

lemma text (h : f.Internal) : ∃ s, f.text = .ok s := by
  cases h with
  | invalid e => exact ⟨e.text, rfl⟩
  | fault f =>
    obtain ⟨kind, message⟩ := f
    cases kind with
    | key => exact ⟨Quoted.ofText message, by simp only [ofFault, Failure.text, Value.quoted]⟩
    | _ => exact ⟨message, rfl⟩

lemma recordable (h : f.Internal) : f.Recordable := by
  cases h with
  | invalid e => exact (Internal.invalid e).text
  | fault f => exact (Internal.fault f).text

/-- A result can tell of every failure of the engine. -/
lemma info (h : f.Internal) : ∃ i, f.info = .ok i := by
  obtain ⟨s, hs⟩ := h.text
  refine info_of_text (fun e he => ?_) hs
  subst he
  cases h

end Internal

lemma recordable_text {reason : Reason} (h : reason.isRuntime = true) (message : String) :
    (Failure.raised (.of reason message)).Recordable := by
  have hr : (BlockError.of reason message).reason.isRuntime = true := h
  rw [Recordable, if_pos hr]
  exact fun _ => ⟨message, rfl⟩

lemma info_raised (e : BlockError) :
    (Failure.raised e).info =
      (do
        let message ← recordText "ErrorInfo"
          (if e.message.isTruthy then e.message else .text e.reason.label)
        return ⟨message, (Failure.raised e).trace, some e.reason.code⟩) := rfl

/-- A result can tell of a runtime error unless it says something that is no text. -/
lemma info_ok {e : BlockError} (h : e.reason.isRuntime = true) :
    (∃ info, (Failure.raised e).info = .ok info) ↔ (Failure.raised e).Recordable := by
  have hinfo : (∃ info, (Failure.raised e).info = .ok info) ↔
      ∃ s, Check.text (if e.message.isTruthy then e.message else .text e.reason.label) = .ok s := by
    rw [info_raised]
    constructor
    · rintro ⟨info, hi⟩
      obtain ⟨s, hs, -⟩ := except_bind_ok hi
      exact ⟨s, recordText_ok.mp hs⟩
    · rintro ⟨s, hs⟩
      rw [recordText_ok.mpr hs]
      exact ⟨_, rfl⟩
  rw [hinfo, Recordable, if_pos h]
  cases e.message.isTruthy with
  | false => exact ⟨fun _ => nofun, fun _ => ⟨_, rfl⟩⟩
  | true => exact ⟨fun h _ => h, fun h => h rfl⟩

lemma info_error {e : BlockError} {f : Failure} (h : (Failure.raised e).info = .error f) :
    ∃ i, f = .invalid i := by
  rw [info_raised] at h
  rcases except_bind_error h with h | ⟨s, -, h⟩
  · exact recordText_error h
  · cases h

lemma wrapped_ok {f : Failure} : (∃ e, f.wrapped = .ok e) ↔ ∃ s, f.text = .ok s := by
  unfold wrapped
  cases f.text with
  | ok s => exact ⟨fun _ => ⟨s, rfl⟩, fun _ => ⟨_, rfl⟩⟩
  | error fault =>
    constructor
    · rintro ⟨e, he⟩
      obtain ⟨s, hs, -⟩ := except_bind_ok he
      cases hs
    · rintro ⟨s, hs⟩
      cases hs

/-- The error that a failure is wrapped in says what can be recorded. -/
lemma wrapped_recordable {f : Failure} {e : BlockError} (h : f.wrapped = .ok e) :
    (Failure.raised e).Recordable := by
  obtain ⟨s, -, h⟩ := except_bind_ok h
  cases h
  exact recordable_text rfl _

lemma wrapped_error {f f' : Failure} (h : f.wrapped = .error f') : f'.Internal := by
  rcases except_bind_error h with h | ⟨s, -, h⟩
  · cases ht : f.text with
    | ok s =>
      rw [ht] at h
      cases h
    | error fault =>
      rw [ht] at h
      cases h
      exact .fault fault
  · cases h

/-- A failure that is wrapped can be recorded if it can be shown as a text. -/
lemma recordable_iff_text {f : Failure} (h : f.passes = false) :
    f.Recordable ↔ ∃ s, f.text = .ok s := by
  cases f with
  | skip reason => cases h
  | raised e =>
    have he : ¬e.reason.isRuntime = true := by
      change e.reason.isRuntime = false at h
      simp [h]
    rw [Recordable, if_neg he]
    rfl
  | fault kind argument => rfl
  | invalid e => rfl

end Failure

namespace Machine

open BlockSuite.Action (Meets Contract)

variable {m : Machine} {run : Runner} {nested : Bool} {step : Step} {c c' : Context}
  {r : StepResult} {f : Failure}

/-! ### Settling -/

lemma failedWith_isOk {e : BlockError} (h : e.reason.isRuntime = true) :
    (∃ r', failedWith c step e r = .ok r') ↔ (Failure.raised e).Recordable := by
  rw [← Failure.info_ok h]
  constructor
  · rintro ⟨r', h'⟩
    obtain ⟨info, hi, -⟩ := except_bind_ok h'
    exact ⟨info, by rwa [info_at] at hi⟩
  · rintro ⟨info, hi⟩
    unfold failedWith
    simp only [info_at, hi]
    exact ⟨_, rfl⟩

lemma failedWith_error {e : BlockError} (h : failedWith c step e r = .error f) :
    ∃ i, f = .invalid i := by
  rcases except_bind_error h with h | ⟨info, -, h⟩
  · exact Failure.info_error h
  · cases h

/-- **A failure settles the record of its step exactly if it can be recorded.** -/
theorem settled_isOk : (∃ r', settled c step r f = .ok r') ↔ f.Recordable := by
  rcases hf : f.passes with _ | _
  · rw [settled_wrapped hf, Failure.recordable_iff_text hf, ← Failure.wrapped_ok]
    constructor
    · rintro ⟨r', h⟩
      obtain ⟨e, he, -⟩ := except_bind_ok h
      exact ⟨e, he⟩
    · rintro ⟨e, he⟩
      rw [he]
      exact (failedWith_isOk (wrapped_reason he)).mpr (Failure.wrapped_recordable he)
  cases f with
  | skip reason =>
    rw [settled_skip]
    constructor
    · rintro ⟨r', h⟩
      obtain ⟨s, hs, -⟩ := except_bind_ok h
      exact ⟨s, Failure.recordText_ok.mp hs⟩
    · rintro ⟨s, hs⟩
      rw [Failure.recordText_ok.mpr hs]
      exact ⟨_, rfl⟩
  | raised e =>
    rw [settled_runtime hf]
    exact failedWith_isOk hf
  | fault kind argument => cases hf
  | invalid e => cases hf

/-- What goes wrong with a record is a failure of the engine itself. -/
lemma settled_error {f' : Failure} (h : settled c step r f = .error f') : f'.Internal := by
  rcases hf : f.passes with _ | _
  · rw [settled_wrapped hf] at h
    rcases except_bind_error h with h | ⟨e, -, h⟩
    · exact Failure.wrapped_error h
    · obtain ⟨i, rfl⟩ := failedWith_error h
      exact .invalid i
  cases f with
  | skip reason =>
    rw [settled_skip] at h
    rcases except_bind_error h with h | ⟨s, -, h⟩
    · obtain ⟨i, rfl⟩ := Failure.recordText_error h
      exact .invalid i
    · cases h
  | raised e =>
    rw [settled_runtime hf] at h
    obtain ⟨i, rfl⟩ := failedWith_error h
    exact .invalid i
  | fault kind argument => cases hf
  | invalid e => cases hf

/-! ### What the machine raises itself -/

/-- The contract that allows all states, and the failures that can be recorded. -/
def recording : Contract Context := ⟨fun _ _ => True, Failure.Recordable⟩

lemma recording_harmless : Harmless recording where
  refl _ := trivial
  trans _ _ _ _ _ := trivial
  records _ _ := trivial
  fault f := (Failure.Internal.fault f).recordable
  bindings _ _ := trivial
  currentStep _ _ := trivial
  procedures _ _ := trivial
  frame _ _ _ := trivial
  error _ message h := Failure.recordable_text h message

lemma respects_recording (m : Machine) : m.Respects recording.keeps where
  executor _ _ _ _ _ _ _ _ _ := trivial
  beforeStep _ _ _ _ _ _ _ _ _ _ := trivial
  afterStep _ _ _ _ _ _ _ _ _ _ _ := trivial
  artifact _ _ _ _ _ _ _ _ _ := trivial

/-- The failure on record in a result could be recorded. -/
lemma bears_recording (h : r.Accounts) : Bears recording r := by
  intro hb f hf
  rcases StepResult.breaks_iff.mp hb with hfatal | hskip
  · obtain ⟨e, info, he, hr, hi, -⟩ := h.fatal hfatal
    rw [he] at hf
    cases hf
    exact (Failure.info_ok hr).mp ⟨info, hi⟩
  · obtain ⟨reason, message, he, hm, -⟩ := h.skipped hskip
    rw [he] at hf
    cases hf
    exact ⟨message, Failure.recordText_ok.mp hm⟩

/-- The contract that allows all states, and the failures of the engine itself. -/
def internal : Contract Context := ⟨fun _ _ => True, Failure.Internal⟩

lemma internal_journalFree : JournalFree internal where
  refl _ := trivial
  trans _ _ _ _ _ := trivial
  records _ _ := trivial
  fault := .fault

/-- What a step escapes with is a failure of the engine itself. -/
lemma runWith_failed {n : Nat} (h : m.runWith n nested step c = (.failed f, c')) : f.Internal := by
  cases n with
  | zero => cases h
  | succ n =>
    rcases Action.bind_cases h with ⟨r, c₁, h₁, h₂⟩ | ⟨o, h₁, hb⟩
    · have hm : m.Respects internal.keeps := respects_recording m
      exact ((internal_journalFree.report hm.watched.shown nested step r).failed h₂).2
    · obtain rfl := hb.of_failed
      cases conclude_cases h₁ with
      | unsettled ran record => exact settled_error record

/-- **Nothing goes past two steps**: the failure that a step escapes with can be recorded. -/
theorem runWith_recordable (m : Machine) (n : Nat) (nested : Bool) (step : Step) :
    Meets recording (m.runWith n nested step) (Bears recording) := by
  intro c
  rcases h : m.runWith n nested step c with ⟨r | e | _, c'⟩
  · exact ⟨trivial, bears_recording (m.runWith_accounts n _ _ _ _ _ h)⟩
  · exact ⟨trivial, (runWith_failed h).recordable⟩
  · trivial

/-- Where the failure of a step comes from if the machine has not raised it itself: from a hook that
sees the start of a step of a list, or from the executor of its block. -/
inductive Raises (m : Machine) (run : Runner) (nested : Bool) (step : Step) (c : Context) :
    Failure → Prop
  | hook {f : Failure} {c' : Context} (listed : nested = false)
    (running : c.shared.cancelled = false)
    (raised : Hooks.runAll m.hooks (fun h => h.beforeStep.map fun x => x step) c =
      (.failed f, c')) : Raises m run nested step c f
  | executor {f : Failure} {f₁ f₂ : Frame} {block : Block} {params : Dict Value} {c' : Context}
    (announced : m.announce nested step ⟨c, .blank step⟩ = (.done (), f₁))
    (prepared : m.prepare run step f₁ = (.done (block, params), f₂))
    (raised : block.executor params f₂.context = (.failed f, c')) : Raises m run nested step c f

/-- A step that is not announced fails as the machine itself does, or as a hook. -/
lemma announce_failed {K : Contract Context} (hK : Harmless K) {f' : Frame}
    (h : m.announce nested step ⟨c, .blank step⟩ = (.failed f, f')) :
    K.fails f ∨ m.Raises run nested step c f := by
  rcases Action.bind_cases h with ⟨_, f₁, h₁, h₂⟩ | ⟨o, h₁, hb⟩
  · obtain ⟨hrun, -⟩ := Frame.inContext_eq h₁
    have hc : c.shared.cancelled = false ∧ f₁.context = c := by
      cases hc : c.shared.cancelled with
      | true =>
        rw [ensureRunning_of_cancelled hc] at hrun
        cases hrun
      | false =>
        rw [ensureRunning_of_running hc] at hrun
        exact ⟨rfl, (Prod.mk.inj hrun).2.symm⟩
    cases nested with
    | true => cases h₂
    | false =>
      obtain ⟨hhook, -⟩ := Frame.inContext_eq h₂
      rw [hc.2] at hhook
      exact .inr (.hook rfl hc.1 hhook)
  · obtain rfl := hb.of_failed
    exact .inl ((inContext_meets hK.ensureRunning).failed h₁).2

/-- A step fails as a contract allows that the machine itself meets, unless a hook or an executor
has raised its failure. -/
lemma Harmless.evaluate_failed {K : Contract Context} (hK : Harmless K)
    (hrun : ∀ nested s, Meets K (run nested s) (Bears K)) {f' : Frame}
    (h : m.evaluate run nested step ⟨c, .blank step⟩ = (.failed f, f')) :
    K.fails f ∨ m.Raises run nested step c f := by
  have hrespond (answer : Answer) : Meets (inFrame K) (respond run step answer) := by
    cases answer with
    | value v => exact hK.inFrame_pure v
    | signal s => exact hK.perform hrun step s
  rcases Action.bind_cases h with ⟨answer, f₁, -, h⟩ | ⟨o, h, hb⟩
  · exact .inl ((hrespond answer).failed h).2
  obtain rfl := hb.of_failed
  rcases Action.bind_cases h with ⟨_, f₁, hannounce, h⟩ | ⟨o, h, hb⟩
  swap
  · obtain rfl := hb.of_failed
    exact announce_failed hK h
  rcases Action.bind_cases h with ⟨⟨block, params⟩, f₂, hprepare, h⟩ | ⟨o, h, hb⟩
  swap
  · obtain rfl := hb.of_failed
    exact .inl ((hK.prepare (m := m) hrun step).failed h).2
  exact .inr (.executor hannounce hprepare (invoke_failed h).1)

/-- **A step fails with what can be recorded, unless a hook or an executor has raised it.** -/
theorem evaluate_failed (hrun : ∀ nested s, Meets recording (run nested s) (Bears recording))
    {f' : Frame} (h : m.evaluate run nested step ⟨c, .blank step⟩ = (.failed f, f')) :
    f.Recordable ∨ m.Raises run nested step c f :=
  recording_harmless.evaluate_failed hrun h

/-- What a hook or an executor raises is as their contract allows. -/
lemma Raises.fails {K : Contract Context} (hK : JournalFree K)
    (hexecutor : ∀ type block, m.blocks.lookup type = some block →
      ∀ params, Meets K (block.executor params))
    (hbefore : ∀ h ∈ m.hooks, ∀ f, h.beforeStep = some f → ∀ step, Meets K (f step))
    (h : m.Raises run nested step c f) : K.fails f := by
  cases h with
  | @hook c' listed running raised =>
    have hall : Meets K (Hooks.runAll m.hooks fun h => h.beforeStep.map fun x => x step) :=
      hK.runAll fun k hk g hg => hbefore k hk g hg step
    exact (hall.failed raised).2
  | executor announced prepared raised =>
    exact ((hexecutor _ _ (prepare_lookup prepared) _).failed raised).2

/-- What a hook or an executor raises ends the step. -/
lemma Raises.ends (h : m.Raises run nested step c f) :
    ∃ f', m.evaluate run nested step ⟨c, .blank step⟩ = (.failed f, f') := by
  suffices hc : ∃ f', m.consult run nested step ⟨c, .blank step⟩ = (.failed f, f') by
    obtain ⟨f', hc⟩ := hc
    exact ⟨f', Action.bind_of_failed hc _⟩
  cases h with
  | @hook c' listed running raised =>
    subst listed
    have hrun := ensureRunning_of_running running
    refine ⟨⟨c', .blank step⟩, Action.bind_of_failed ?_ _⟩
    rw [announce, Action.bind_of_done (Frame.inContext_run (f := ⟨c, .blank step⟩) hrun)]
    exact Frame.inContext_run (f := ⟨c, .blank step⟩) raised
  | @executor f₁ f₂ block params c' announced prepared raised =>
    refine ⟨{ f₂ with context := c' }, ?_⟩
    rw [consult, Action.bind_of_done announced, Action.bind_of_done prepared]
    exact Action.bind_of_failed (Frame.inContext_run raised) _

/-! ### What is lost behind the result -/

/-- How a result gets lost behind its step: the failure of a hook that was shown the result cannot
be written into the journal. -/
inductive Unlogged (m : Machine) (nested : Bool) (step : Step) (r : StepResult) (c : Context) : Prop
  | artifact {hook : ArtifactHook} {e e' : Failure} {c₁ c₂ : Context}
    (asked : m.artifactHookFor step r = some hook)
    (raised : hook step r.failure c = (.failed e, c₁))
    (unwritten : Context.log .error "Failed to capture artifact for step %s" [.text step.id] .null
      c₁ = (.failed e', c₂)) : Unlogged m nested step r c
  | observe {r' : StepResult} {e e' : Failure} {c₁ c₂ c₃ : Context} (listed : nested = false)
    (shown : m.attachArtifact step r c = (.done r', c₁))
    (raised : Hooks.runAll m.hooks (fun h => h.afterStep.map fun x => x step r') c₁ =
      (.failed e, c₂))
    (unwritten : Context.log .error "Hook after_step failed for step %s" [.text step.id] .null c₂ =
      (.failed e', c₃)) : Unlogged m nested step r c

lemma attachArtifact_failed (h : m.attachArtifact step r c = (.failed f, c')) :
    m.Unlogged nested step r c := by
  rcases hk : m.artifactHookFor step r with _ | hook
  · simp only [attachArtifact, hk] at h
    cases h
  · simp only [attachArtifact, hk] at h
    rcases hx : hook step r.failure c with ⟨v | e | _, c₁⟩
    · rw [Action.bind_of_done (Action.attempt_of_done hx)] at h
      cases h
    · rw [Action.bind_of_done (Action.attempt_of_failed hx)] at h
      rcases Action.bind_cases h with ⟨_, c₂, -, h⟩ | ⟨o, h, hb⟩
      · cases h
      · obtain rfl := hb.of_failed
        exact .artifact hk hx h
    · rw [Action.bind_of_exhausted (Action.attempt_of_exhausted hx)] at h
      cases h

lemma observe_failed {r' : StepResult} {c₁ : Context}
    (hr : m.attachArtifact step r c = (.done r', c₁))
    (h : m.observe nested step r' c₁ = (.failed f, c')) : m.Unlogged nested step r c := by
  cases nested with
  | true => cases h
  | false =>
    rw [observe, if_neg (by simp)] at h
    rcases hx : Hooks.runAll m.hooks (fun h => h.afterStep.map fun x => x step r') c₁ with
      ⟨v | e | _, c₂⟩
    · rw [Action.bind_of_done (Action.attempt_of_done hx)] at h
      cases h
    · rw [Action.bind_of_done (Action.attempt_of_failed hx)] at h
      exact .observe rfl hr hx h
    · rw [Action.bind_of_exhausted (Action.attempt_of_exhausted hx)] at h
      cases h

/-- **A result is lost exactly if what a hook makes of it cannot be logged.** -/
theorem report_failed_iff :
    (∃ f c', m.report nested step r c = (.failed f, c')) ↔ m.Unlogged nested step r c := by
  constructor
  · rintro ⟨f, c', h⟩
    rcases Action.bind_cases h with ⟨r', c₁, hr, h⟩ | ⟨o, h, hb⟩
    · rcases Action.bind_cases h with ⟨_, c₂, -, h⟩ | ⟨o, h, hb⟩
      · cases h
      · obtain rfl := hb.of_failed
        exact observe_failed hr h
    · obtain rfl := hb.of_failed
      exact attachArtifact_failed h
  · intro h
    cases h with
    | @artifact hook e e' c₁ c₂ asked raised unwritten =>
      have hr : m.attachArtifact step r c = (.failed e', c₂) := by
        simp only [attachArtifact, asked]
        rw [Action.bind_of_done (Action.attempt_of_failed raised)]
        exact Action.bind_of_failed unwritten _
      exact ⟨e', c₂, Action.bind_of_failed hr _⟩
    | @observe r' e e' c₁ c₂ c₃ listed shown raised unwritten =>
      subst listed
      have ho : m.observe false step r' c₁ = (.failed e', c₃) := by
        rw [observe, if_neg (by simp), Action.bind_of_done (Action.attempt_of_failed raised)]
        exact unwritten
      refine ⟨e', c₃, ?_⟩
      rw [report, Action.bind_of_done shown]
      exact Action.bind_of_failed ho _

/-! ### Runs that escape -/

/-- How a step escapes: with a failure of a hook or an executor that cannot be recorded, or behind
its result. -/
inductive Escapes (m : Machine) (run : Runner) (nested : Bool) (step : Step) (c : Context) : Prop
  | unrecorded {f : Failure} (raised : m.Raises run nested step c f) (unfit : ¬f.Recordable) :
    Escapes m run nested step c
  | unlogged {r : StepResult} {c' : Context}
    (concluded : m.conclude run nested step c = (.done r, c'))
    (lost : m.Unlogged nested step r c') : Escapes m run nested step c

/-- What ends a step settles its record if it can be recorded. -/
lemma conclude_recordable {f' : Frame}
    (h : m.evaluate run nested step ⟨c, .blank step⟩ = (.failed f, f')) (hf : f.Recordable) :
    ∃ r, m.conclude run nested step c =
        (.done r, { f'.context with currentStep := c.currentStep }) ∧ Settled f'.result f r := by
  have hs : ∃ r, settled f'.context step f'.result f = .ok r := settled_isOk.mpr hf
  obtain ⟨r, hr⟩ := hs
  refine ⟨r, ?_, settled_ok hr⟩
  rw [conclude_of_failed h, hr]
  rfl

lemma runLayer_failed_iff (hrun : ∀ nested s, Meets recording (run nested s) (Bears recording)) :
    (∃ f c', m.runLayer run nested step c = (.failed f, c')) ↔ m.Escapes run nested step c := by
  constructor
  · rintro ⟨f, c', h⟩
    rcases Action.bind_cases h with ⟨r, c₁, h₁, h₂⟩ | ⟨o, h₁, hb⟩
    · exact .unlogged h₁ (report_failed_iff.mp ⟨f, c', h₂⟩)
    obtain rfl := hb.of_failed
    cases conclude_cases h₁ with
    | @unsettled e _ f' ran record =>
      have hunfit : ¬e.Recordable := by
        intro hf
        obtain ⟨r, hr⟩ := settled_isOk.mpr hf
        rw [hr] at record
        cases record
      exact .unrecorded ((evaluate_failed hrun ran).resolve_left hunfit) hunfit
  · intro h
    cases h with
    | @unrecorded f raised unfit =>
      obtain ⟨f', ran⟩ := raised.ends
      cases hs : settled f'.context step f'.result f with
      | ok r => exact absurd (settled_isOk.mp ⟨r, hs⟩) unfit
      | error e =>
        have hc : m.conclude run nested step c =
            (.failed e, { f'.context with currentStep := c.currentStep }) := by
          rw [conclude_of_failed ran, hs]
          rfl
        exact ⟨e, _, Action.bind_of_failed hc _⟩
    | unlogged concluded lost =>
      obtain ⟨e, c', hr⟩ := report_failed_iff.mpr lost
      exact ⟨e, c', (Action.bind_of_done concluded _).trans hr⟩

/-- A list fails exactly where the first step fails that has no result. -/
lemma runList_failed_iff {run : Step → Run StepResult} {steps : List Step} :
    (∃ f c', runList run steps c = (.failed f, c')) ↔
      ∃ ran step rest rs c₁, steps = ran ++ step :: rest ∧ Chain run c ran rs c₁ ∧ Calm rs ∧
        ∃ f c', run step c₁ = (.failed f, c') := by
  constructor
  · rintro ⟨f, c', h⟩
    rcases runList_cases h with ⟨rs, -, -, hd⟩ | ⟨ran, x, rest, rs, c₁, rfl, hch, hc, hx⟩
    · cases hd
    · rcases hx with ⟨r, -, -, hd⟩ | ⟨o, hx, hb⟩
      · cases hd
      · obtain rfl := hb.of_failed
        exact ⟨ran, x, rest, rs, c₁, rfl, hch, hc, f, c', hx⟩
  · rintro ⟨ran, x, rest, rs, c₁, rfl, hch, hc, f, c', hx⟩
    refine ⟨f, c', runList_append hch hc (o := .failed f) ?_⟩
    rw [runList_cons]
    exact Action.bind_of_failed hx _

/-- **Failures are captured in results, but for what cannot be recorded or logged.** A step fails
exactly where a hook or an executor raises what cannot be recorded, or where the failure of a hook
that is shown the result cannot be logged; a list fails exactly where the first step that has no
result does. Every other failure, of the step or of the steps inside it, settles the record of the
step, and so does what an inner step has failed with. -/
theorem failures_escape_iff (m : Machine) (layers : Nat) :
    (∀ nested step c,
      ((∃ f c', m.runWith (layers + 1) nested step c = (.failed f, c')) ↔
        m.Escapes (m.runWith layers) nested step c) ∧
      (∀ f c', m.runWith (layers + 1) nested step c = (.failed f, c') → f.Recordable) ∧
      ∀ f f', m.evaluate (m.runWith layers) nested step ⟨c, .blank step⟩ = (.failed f, f') →
        (f.Recordable ∨ m.Raises (m.runWith layers) nested step c f) ∧
        (f.Recordable → ∃ r, m.conclude (m.runWith layers) nested step c =
          (.done r, { f'.context with currentStep := c.currentStep }) ∧
          Settled f'.result f r)) ∧
    ∀ steps c,
      (∃ f c', runList (m.runWith (layers + 1) false) steps c = (.failed f, c')) ↔
        ∃ ran step rest rs c₁, steps = ran ++ step :: rest ∧
          Chain (m.runWith (layers + 1) false) c ran rs c₁ ∧ Calm rs ∧
          m.Escapes (m.runWith layers) false step c₁ := by
  have hstep (nested step c) : (∃ f c', m.runWith (layers + 1) nested step c = (.failed f, c')) ↔
      m.Escapes (m.runWith layers) nested step c :=
    runLayer_failed_iff (m.runWith_recordable layers)
  refine ⟨fun nested step c => ⟨hstep nested step c, fun f c' h => ?_, fun f f' h => ⟨?_, ?_⟩⟩,
    fun steps c => ?_⟩
  · exact ((m.runWith_recordable (layers + 1) nested step).failed h).2
  · exact evaluate_failed (m.runWith_recordable layers) h
  · exact conclude_recordable h
  · rw [runList_failed_iff]
    simp only [hstep]

/-- A machine with a block that skips for a reason that is no text. -/
def skipping : Machine := ofExecutors [("skip", Action.fail (.skip (.int 5)))]

lemma skip_unfit : ¬(Failure.skip (.int 5)).Recordable := by
  rintro ⟨s, hs⟩
  cases hs

/-- The skip escapes from its step, and from the list of steps it is run in. -/
theorem failures_escape_iff_skipping :
    ∃ f c, skipping.runSteps [⟨"s", "skip", [], []⟩] silent = (.failed f, c) := by
  have hlist := (failures_escape_iff skipping 9999).2 [⟨"s", "skip", [], []⟩] silent
  refine hlist.mpr ⟨[], _, [], [], silent, rfl, .nil _, .nil, ?_⟩
  exact .unrecorded (.executor rfl rfl rfl) skip_unfit

end Machine

end BlockSuite
