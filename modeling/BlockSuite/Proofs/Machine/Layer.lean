import BlockSuite.Proofs.Dict
import BlockSuite.Proofs.Machine.Record

/-!
How one layer brings a step to its result. Resolving inputs and asking the block leave a record that
neither fails nor skips; the signal adds to it; a failure that is left settles the record, as a
skip or with a runtime error. By induction on the layers every result accounts for how its step
has ended.
-/

namespace BlockSuite

/-- The results of the nested steps that gave a step its inputs. -/
def StepResult.given (r : StepResult) : List StepResult := r.inputs.map (·.2)

/-- Failures that pass through the steps around them as they are. All others are wrapped. -/
def Failure.passes : Failure → Bool
  | .skip _ => true
  | .raised e => e.reason.isRuntime
  | _ => false

namespace Machine

open BlockSuite.Frame (inContext note)

variable {m : Machine} {run : Runner} {P : StepResult → Prop} {step : Step}

/-! ### Inputs -/

/-- How resolving inputs changes the record of a step: results are added to its inputs, of which
one that fails or skips ends the step. -/
structure Resolves {α : Type} (P : StepResult → Prop) (r : StepResult) (o : Outcome α)
    (r' : StepResult) : Prop where
  record : ∃ inputs, r' = { r with inputs := inputs }
  given : ∀ x ∈ r'.given, x ∈ r.given ∨ P x ∧ Told o [x]

namespace Resolves

variable {α β : Type} {r r' r'' : StepResult}

lemma of_eq (h : r' = r) (o : Outcome α) : Resolves P r o r' := by
  subst h
  exact ⟨⟨r'.inputs, by cases r'; rfl⟩, fun x hx => .inl hx⟩

lemma trans {a : α} {o : Outcome β} (h : Resolves P r (.done a) r') (h' : Resolves P r' o r'') :
    Resolves P r o r'' := by
  obtain ⟨inputs, rfl⟩ := h.record
  obtain ⟨inputs', rfl⟩ := h'.record
  refine ⟨⟨inputs', rfl⟩, fun x hx => ?_⟩
  rcases h'.given x hx with hx | hx
  · rcases h.given x hx with hx | ⟨hP, ht⟩
    · exact .inl hx
    · exact .inr ⟨hP, ht.of_done o⟩
  · exact .inr hx

lemma of_broken {o : Outcome α} {o' : Outcome β} (h : Resolves P r o r')
    (hb : Action.Broken o o') : Resolves P r o' r' :=
  ⟨h.record, fun x hx => (h.given x hx).imp id fun h => ⟨h.1, h.2.of_broken hb⟩⟩

end Resolves

/-- The record of a step with the result of a nested step for one of its inputs. -/
def withInput (r : StepResult) (name : String) (x : StepResult) : StepResult :=
  { r with inputs := Dict.set r.inputs name x }

/-- How an input is resolved: without a result, or with that of a nested step, which gives the value
or ends the step. -/
inductive InputRun (run : Runner) (step : Step) (name : String) (f : Frame) :
    Outcome Value → Frame → Prop
  | direct (o : Outcome Value) (c : Context) : InputRun run step name f o { f with context := c }
  | given {x : Step} {r : StepResult} {c : Context}
    (bound : Dict.get? step.params name = some (.nested x))
    (ran : run true x f.context = (.done r, c)) (calm : r.breaks = false) :
    InputRun run step name f (.done r.output) ⟨c, withInput f.result name r⟩
  | broken {x : Step} {r : StepResult} {c : Context} {e : Failure}
    (bound : Dict.get? step.params name = some (.nested x))
    (ran : run true x f.context = (.done r, c)) (breaks : r.breaks = true)
    (failure : r.failure = some e) :
    InputRun run step name f (.failed e) ⟨c, withInput f.result name r⟩

lemma resolveInput_cases (ha : run.Yields StepResult.Accounts) {b : Block} {name : String}
    {f f' : Frame} {o : Outcome Value} (h : resolveInput run b step name f = (o, f')) :
    InputRun run step name f o f' := by
  have hdirect (hr : f'.result = f.result) : InputRun run step name f o f' := by
    have hf : f' = { f with context := f'.context } := by rw [← hr]
    rw [hf]
    exact .direct o _
  rcases hget : Dict.get? step.params name with _ | v
  · rcases hdec : (declared b).get? name with _ | i
    · simp only [resolveInput, hget, hdec] at h
      cases h
      exact hdirect rfl
    · simp only [resolveInput, hget, hdec] at h
      split at h
      · cases h
        exact hdirect rfl
      · exact hdirect (Frame.inContext_eq h).2
  cases v with
  | literal v =>
    simp only [resolveInput, hget] at h
    exact hdirect (Frame.inContext_eq h).2
  | nested inner =>
    simp only [resolveInput, hget] at h
    rcases Action.bind_cases h with ⟨r, f₁, h₁, h⟩ | ⟨o', h₁, -⟩
    swap
    · exact hdirect (Frame.inContext_eq h₁).2
    obtain ⟨hrun, hr₁⟩ := Frame.inContext_eq h₁
    rw [Action.bind_of_done (Frame.note_run _ f₁), hr₁] at h
    rcases hbr : r.breaks with _ | _
    · have hbr' : ¬(r.isFatal || r.isSkipped) = true := by
        change r.breaks ≠ true
        simp [hbr]
      rw [if_neg hbr'] at h
      cases h
      exact .given hget hrun hbr
    · have hbr' : (r.isFatal || r.isSkipped) = true := hbr
      obtain ⟨e, he⟩ := (ha _ _ _ _ _ hrun).failure hbr
      rw [if_pos hbr', he] at h
      cases h
      exact .broken hget hrun hbr he

lemma mem_given_withInput {r x y : StepResult} {name : String}
    (h : y ∈ (withInput r name x).given) : y = x ∨ y ∈ r.given := by
  obtain ⟨e, he, rfl⟩ := List.mem_map.mp h
  rcases Dict.mem_set he with rfl | he
  · exact .inl rfl
  · exact .inr (List.mem_map.mpr ⟨e, he, rfl⟩)

lemma mem_withInput (r : StepResult) (name : String) (x : StepResult) :
    x ∈ (withInput r name x).given :=
  List.mem_map.mpr ⟨(name, x), Dict.mem_set_self _ _ _, rfl⟩

/-- The result of a nested step is the only one that is new. -/
lemma Resolves.of_input {α : Type} {r x : StepResult} {o : Outcome α} (name : String) (hx : P x)
    (ht : Told o [x]) : Resolves P r o (withInput r name x) := by
  refine ⟨⟨_, rfl⟩, fun y hy => ?_⟩
  rcases mem_given_withInput hy with rfl | hy
  · exact .inr ⟨hx, ht⟩
  · exact .inl hy

lemma InputRun.resolves (hP : run.Yields P) {name : String} {f f' : Frame} {o : Outcome Value}
    (h : InputRun run step name f o f') : Resolves P f.result o f'.result := by
  cases h with
  | direct o c => exact .of_eq rfl o
  | given bound ran calm => exact .of_input name (hP _ _ _ _ _ ran) (.of_calm _ (by simp [calm]))
  | broken bound ran breaks failure =>
    exact .of_input name (hP _ _ _ _ _ ran) (.of_failure failure)

lemma resolveInput_resolves (ha : run.Yields StepResult.Accounts) (hP : run.Yields P) {b : Block}
    {name : String} {f f' : Frame} {o : Outcome Value}
    (h : resolveInput run b step name f = (o, f')) : Resolves P f.result o f'.result :=
  (resolveInput_cases ha h).resolves hP

lemma resolveAll_resolves (ha : run.Yields StepResult.Accounts) (hP : run.Yields P) {b : Block}
    {names : List String} {f f' : Frame} {o : Outcome (Dict Value)}
    (h : resolveAll run b step names f = (o, f')) : Resolves P f.result o f'.result := by
  induction names generalizing f o with
  | nil =>
    obtain ⟨rfl, rfl⟩ := Prod.mk.inj h
    exact .of_eq rfl _
  | cons name rest ih =>
    rcases Action.bind_cases h with ⟨v, f₁, h₁, h⟩ | ⟨o', h₁, hb⟩
    · refine (resolveInput_resolves ha hP h₁).trans ?_
      rcases Action.bind_cases h with ⟨vs, f₂, h₂, h⟩ | ⟨o', h₂, hb⟩
      · obtain ⟨rfl, rfl⟩ := Prod.mk.inj h
        exact (ih h₂).trans (.of_eq rfl _)
      · exact (ih h₂).of_broken hb
    · exact (resolveInput_resolves ha hP h₁).of_broken hb

/-- An input that no nested step gives is only looked up. -/
lemma resolveInput_same {b : Block} {name : String}
    (h : ∀ x, Dict.get? step.params name ≠ some (.nested x)) (f : Frame) :
    (resolveInput run b step name f).2 = f := by
  have hcompute {α : Type} (e : Except Fault α) (c : Context) :
      ((Action.compute e : Run α) c).2 = c := by
    cases e <;> rfl
  have hfill (v : Value) : (Frame.inContext (Context.fill v) f).2 = f := by
    rw [(Frame.inContext_run rfl : Frame.inContext (Context.fill v) f = _)]
    show { f with context := (Context.fill v f.context).2 } = f
    rw [show (Context.fill v f.context).2 = f.context from hcompute _ _]
  cases hget : Dict.get? step.params name with
  | none =>
    cases hdeclared : (declared b).get? name with
    | none =>
      simp only [resolveInput, hget, hdeclared]
      rfl
    | some i =>
      simp only [resolveInput, hget, hdeclared]
      split
      · rfl
      · exact hfill _
  | some v =>
    cases v with
    | literal v =>
      simp only [resolveInput, hget]
      exact hfill v
    | nested x => exact absurd hget (h x)

/-! ### The answer of a block -/

/-- The record of a step up to the answer of its block. It has no children yet and tells of
nothing but assertions that were collected, and among its inputs no failure or skip stands that
does not end the step. -/
structure Consulted {α : Type} (P : StepResult → Prop) (o : Outcome α) (r : StepResult) : Prop where
  children : r.children = []
  returned : r.returned = false
  breaks : r.breaks = false
  given : ∀ x ∈ r.given, P x ∧ Told o [x]

namespace Consulted

variable {α β : Type} {r r' : StepResult}

lemma blank (o : Outcome α) (step : Step) : Consulted P o (.blank step) :=
  ⟨rfl, rfl, rfl, by simp [StepResult.given, StepResult.blank]⟩

lemma of_done {a : α} (h : Consulted P (.done a) r) (o : Outcome β) : Consulted P o r :=
  ⟨h.children, h.returned, h.breaks, fun x hx => ⟨(h.given x hx).1, (h.given x hx).2.of_done o⟩⟩

lemma of_broken {o : Outcome α} {o' : Outcome β} (h : Consulted P o r)
    (hb : Action.Broken o o') : Consulted P o' r :=
  ⟨h.children, h.returned, h.breaks,
    fun x hx => ⟨(h.given x hx).1, (h.given x hx).2.of_broken hb⟩⟩

lemma resolves {a : α} {o : Outcome β} (h : Consulted P (.done a) r) (h' : Resolves P r o r') :
    Consulted P o r' := by
  obtain ⟨inputs, rfl⟩ := h'.record
  refine ⟨h.children, h.returned, h.breaks, fun x hx => ?_⟩
  rcases h'.given x hx with hx | hx
  · exact ⟨(h.given x hx).1, (h.given x hx).2.of_done o⟩
  · exact hx

end Consulted

lemma ensureRunning_of_running {c : Context} (h : c.shared.cancelled = false) :
    Context.ensureRunning c = (.done (), c) := by
  rw [Context.ensureRunning, Action.bind_of_done (Action.get_run c), h]
  rfl

lemma ensureRunning_of_cancelled {c : Context} (h : c.shared.cancelled = true) :
    Context.ensureRunning c = (.failed (.raised .cancelled), c) := by
  rw [Context.ensureRunning, Action.bind_of_done (Action.get_run c), h]
  rfl

lemma announce_cancelled {f : Frame} (h : f.context.shared.cancelled = true) (nested : Bool) :
    m.announce nested step f = (.failed (.raised .cancelled), f) :=
  Action.bind_of_failed (Frame.inContext_run (ensureRunning_of_cancelled h)) _

/-- Only while the run is not asked to stop is a step announced. -/
lemma running_of_announce {nested : Bool} {f f' : Frame}
    (h : m.announce nested step f = (.done (), f')) : f.context.shared.cancelled = false := by
  cases hc : f.context.shared.cancelled with
  | false => rfl
  | true =>
    rw [announce_cancelled hc] at h
    cases h

lemma announce_result {nested : Bool} {f f' : Frame} {o : Outcome Unit}
    (h : m.announce nested step f = (o, f')) : f'.result = f.result := by
  rcases Action.bind_cases h with ⟨_, f₁, h₁, h⟩ | ⟨o', h₁, -⟩
  · rw [← (Frame.inContext_eq h₁).2]
    split at h
    · exact (Frame.inContext_eq h).2
    · obtain ⟨rfl, rfl⟩ := Prod.mk.inj h
      rfl
  · exact (Frame.inContext_eq h₁).2

lemma prepare_consulted (ha : run.Yields StepResult.Accounts) (hP : run.Yields P)
    {f f' : Frame} {o : Outcome (Block × Dict Value)}
    (hf : Consulted P (.done ()) f.result) (h : m.prepare run step f = (o, f')) :
    Consulted P o f'.result := by
  rcases hb : m.blocks.lookup step.type with _ | block
  · simp only [prepare, hb] at h
    obtain ⟨rfl, rfl⟩ := Prod.mk.inj h
    exact hf.of_done _
  · simp only [prepare, hb] at h
    rcases Action.bind_cases h with ⟨params, f₁, h₁, h⟩ | ⟨o', h₁, hb⟩
    · have hc := hf.resolves (resolveAll_resolves ha hP h₁)
      obtain ⟨rfl, rfl⟩ := Prod.mk.inj h
      exact hc.of_done _
    · exact (hf.resolves (resolveAll_resolves ha hP h₁)).of_broken hb

/-- A step whose inputs are known is the current one. -/
lemma prepare_currentStep {p : Block × Dict Value} (h : m.prepare run step f = (.done p, f')) :
    f'.context.currentStep = some step := by
  cases hb : m.blocks.lookup step.type with
  | none =>
    simp only [prepare, hb] at h
    cases h
  | some block =>
    simp only [prepare, hb] at h
    obtain ⟨params, f₁, -, h⟩ := Action.bind_done h
    cases h
    rfl

lemma markSoft_run (n : Nat) (f : Frame) : ∃ r, markSoft n f = (.done (), ⟨f.context, r⟩) := by
  change ∃ r, (if n < f.context.softErrors.length then _ else _ : Frame.Act Unit) f = _
  split
  · exact ⟨_, rfl⟩
  · exact ⟨f.result, rfl⟩

lemma markSoft_consulted {n : Nat} {f f' : Frame} (hf : Consulted P (.done ()) f.result)
    (h : markSoft n f = (.done (), f')) : Consulted P (.done ()) f'.result := by
  change (if n < f.context.softErrors.length then _ else _ : Frame.Act Unit) f = _ at h
  split at h
  · cases h
    exact ⟨hf.children, hf.returned, rfl, hf.given⟩
  · cases h
    exact hf

lemma invoke_consulted {block : Block} {params : Dict Value} {f f' : Frame} {o : Outcome Answer}
    (hf : Consulted P (.done ()) f.result) (h : invoke block params f = (o, f')) :
    Consulted P o f'.result := by
  rw [invoke, Action.bind_of_done (Action.get_run f)] at h
  rcases Action.bind_cases h with ⟨answer, f₁, h₁, h⟩ | ⟨o', h₁, -⟩
  · have hf₁ : Consulted P (.done ()) f₁.result := by rwa [(Frame.inContext_eq h₁).2]
    obtain ⟨r, hm⟩ := markSoft_run f.context.softErrors.length f₁
    rw [Action.bind_of_done hm] at h
    cases h
    exact (markSoft_consulted hf₁ hm).of_done _
  · rw [(Frame.inContext_eq h₁).2]
    exact hf.of_done o

/-- A block that does not answer leaves the record as it is. -/
lemma invoke_failed {block : Block} {params : Dict Value} {f f' : Frame} {e : Failure}
    (h : invoke block params f = (.failed e, f')) :
    block.executor params f.context = (.failed e, f'.context) ∧ f'.result = f.result := by
  rw [invoke, Action.bind_of_done (Action.get_run f)] at h
  rcases Action.bind_cases h with ⟨answer, f₁, -, h⟩ | ⟨o, h, hb⟩
  · obtain ⟨r, hm⟩ := markSoft_run f.context.softErrors.length f₁
    rw [Action.bind_of_done hm] at h
    cases h
  · obtain rfl := hb.of_failed
    exact Frame.inContext_eq h

/-- Up to the answer of its block a step has only its inputs on record. -/
lemma consult_consulted (ha : run.Yields StepResult.Accounts) (hP : run.Yields P) {nested : Bool}
    {c : Context} {f : Frame} {o : Outcome Answer}
    (h : m.consult run nested step ⟨c, .blank step⟩ = (o, f)) : Consulted P o f.result := by
  rcases Action.bind_cases h with ⟨_, f₁, h₁, h⟩ | ⟨o', h₁, hb⟩
  · have hf₁ : Consulted P (.done ()) f₁.result := by
      rw [announce_result h₁]
      exact .blank _ step
    rcases Action.bind_cases h with ⟨p, f₂, h₂, h⟩ | ⟨o', h₂, hb⟩
    · exact invoke_consulted ((prepare_consulted ha hP hf₁ h₂).of_done _) h
    · exact (prepare_consulted ha hP hf₁ h₂).of_broken hb
  · rw [announce_result h₁]
    exact .blank o step

/-! ### The step of a record -/

lemma prepare_sameStep (ha : run.Yields StepResult.Accounts) {f f' : Frame}
    {o : Outcome (Block × Dict Value)} (h : m.prepare run step f = (o, f')) :
    SameStep f.result f'.result := by
  cases hb : m.blocks.lookup step.type with
  | none =>
    simp only [prepare, hb] at h
    cases h
    exact .refl _
  | some block =>
    have hresolve {o : Outcome (Dict Value)} {f' : Frame}
        (h : resolveAll run block step (inputNames block step) f = (o, f')) :
        SameStep f.result f'.result := by
      obtain ⟨inputs, hinputs⟩ := (resolveAll_resolves ha ha h).record
      rw [hinputs]
      exact ⟨rfl, rfl⟩
    simp only [prepare, hb] at h
    rcases Action.bind_cases h with ⟨params, f₁, h₁, h⟩ | ⟨o', h₁, -⟩
    · cases h
      change SameStep f.result f₁.result
      exact hresolve h₁
    · exact hresolve h₁

lemma markSoft_marks {n : Nat} {f : Frame} {r : StepResult} {c : Context}
    (h : markSoft n f = (.done (), ⟨c, r⟩)) : ∃ status soft error,
      r = { f.result with status := status, soft := soft, error := error } := by
  change (if n < f.context.softErrors.length then _ else _ : Frame.Act Unit) f = _ at h
  split at h
  · cases h
    exact ⟨_, _, _, rfl⟩
  · cases h
    exact ⟨r.status, r.soft, r.error, by cases r; rfl⟩

/-- The answer of a block at most marks the record. -/
lemma invoke_marks {block : Block} {params : Dict Value} {f f' : Frame} {o : Outcome Answer}
    (h : invoke block params f = (o, f')) : ∃ status soft error,
      f'.result = { f.result with status := status, soft := soft, error := error } := by
  rw [invoke, Action.bind_of_done (Action.get_run f)] at h
  rcases Action.bind_cases h with ⟨answer, f₁, h₁, h⟩ | ⟨o', h₁, -⟩
  · obtain ⟨r, hm⟩ := markSoft_run f.context.softErrors.length f₁
    rw [Action.bind_of_done hm] at h
    cases h
    rw [← (Frame.inContext_eq h₁).2]
    exact markSoft_marks hm
  · have hr : f'.result = f.result := (Frame.inContext_eq h₁).2
    exact ⟨f.result.status, f.result.soft, f.result.error, by rw [hr]; cases f.result; rfl⟩

lemma invoke_sameStep {block : Block} {params : Dict Value} {f f' : Frame} {o : Outcome Answer}
    (h : invoke block params f = (o, f')) : SameStep f.result f'.result := by
  obtain ⟨status, soft, error, hr⟩ := invoke_marks h
  rw [hr]
  exact ⟨rfl, rfl⟩

/-! ### Settling a failure -/

/-- A record that is settled with a runtime error. -/
def failedRecord (r : StepResult) (e : BlockError) (info : ErrorInfo) : StepResult :=
  { r with status := .failed, soft := false, error := some info, failure := some (.raised e) }

/-- A record that is settled with a skip. -/
def skippedRecord (r : StepResult) (reason : Value) (message : String) : StepResult :=
  { r with
    status := .skipped
    error := some ⟨message, none, some "skipped"⟩
    failure := some (.skip reason) }

/-- How a failure settles a record: as a skip, or with the runtime error it is or is wrapped in. -/
inductive Settled (r : StepResult) : Failure → StepResult → Prop
  | skipped {reason : Value} {message : String}
    (hm : Failure.recordText "ErrorInfo" reason = .ok message) :
    Settled r (.skip reason) (skippedRecord r reason message)
  | raised {e : BlockError} {p : Place} {info : ErrorInfo} (he : e.reason.isRuntime = true)
    (hi : (Failure.raised (e.at_ p)).info = .ok info) :
    Settled r (.raised e) (failedRecord r (e.at_ p) info)
  | wrapped {f : Failure} {e : BlockError} {p : Place} {info : ErrorInfo}
    (hf : f.passes = false) (he : f.wrapped = .ok e)
    (hi : (Failure.raised (e.at_ p)).info = .ok info) :
    Settled r f (failedRecord r (e.at_ p) info)

/-- What a result tells of an error does not depend on its place. -/
lemma info_at (e : BlockError) (p : Place) :
    (Failure.raised (e.at_ p)).info = (Failure.raised e).info := by
  cases e with
  | mk reason message place => cases reason <;> rfl

lemma wrapped_reason {f : Failure} {e : BlockError} (h : f.wrapped = .ok e) :
    e.reason.isRuntime = true := by
  obtain ⟨s, -, h⟩ := except_bind_ok h
  cases h
  rfl

lemma failedWith_ok {c : Context} {e : BlockError} {r r' : StepResult}
    (h : failedWith c step e r = .ok r') :
    ∃ p info, (Failure.raised (e.at_ p)).info = .ok info ∧ r' = failedRecord r (e.at_ p) info := by
  obtain ⟨info, hi, h⟩ := except_bind_ok h
  cases h
  exact ⟨_, info, hi, rfl⟩

lemma settled_skip (c : Context) (step : Step) (r : StepResult) (reason : Value) :
    settled c step r (.skip reason) =
      (do return skippedRecord r reason (← Failure.recordText "ErrorInfo" reason)) := rfl

lemma settled_runtime {e : BlockError} (he : e.reason.isRuntime = true) (c : Context)
    (step : Step) (r : StepResult) : settled c step r (.raised e) = failedWith c step e r := by
  simp only [settled, he, if_true]

lemma settled_wrapped {f : Failure} (hf : f.passes = false) (c : Context) (step : Step)
    (r : StepResult) :
    settled c step r f = (do failedWith c step (← f.wrapped) r) := by
  cases f with
  | skip reason => cases hf
  | raised e =>
    have he : e.reason.isRuntime = false := hf
    simp only [settled, he, Bool.false_eq_true, if_false]
  | fault kind argument => rfl
  | invalid e => rfl

/-- A failure either settles the record of its step in one of three ways, or cannot be recorded. -/
lemma settled_ok {c : Context} {r r' : StepResult} {f : Failure}
    (h : settled c step r f = .ok r') : Settled r f r' := by
  rcases hf : f.passes with _ | _
  · rw [settled_wrapped hf] at h
    obtain ⟨e, hw, h⟩ := except_bind_ok h
    obtain ⟨p, info, hi, rfl⟩ := failedWith_ok h
    exact .wrapped hf hw hi
  cases f with
  | skip reason =>
    rw [settled_skip] at h
    obtain ⟨message, hm, h⟩ := except_bind_ok h
    cases h
    exact .skipped hm
  | raised e =>
    rw [settled_runtime hf] at h
    obtain ⟨p, info, hi, rfl⟩ := failedWith_ok h
    exact .raised hf hi
  | fault kind argument => cases hf
  | invalid e => cases hf

/-- What was put on record about others has no part in how a failure settles a record. -/
lemma settled_inShell (c : Context) (step : Step) (r : StepResult) (f : Failure) :
    settled c step r f = r.inShell <$> settled c step r.shell f := by
  have hfailed (e : BlockError) :
      failedWith c step e r = r.inShell <$> failedWith c step e r.shell := by
    simp only [failedWith, map_bind]
    rfl
  cases f with
  | skip reason =>
    simp only [settled, map_bind]
    rfl
  | raised e =>
    simp only [settled]
    split
    · exact hfailed e
    · simp only [map_bind, ← hfailed]
  | fault kind argument => simp only [settled, map_bind, ← hfailed]
  | invalid e => simp only [settled, map_bind, ← hfailed]

/-! ### The result of a step -/

/-- What a record becomes with the value of its step, or with what has ended the step. -/
inductive Concluded (r : StepResult) : Outcome Value → StepResult → Prop
  | value (v : Value) : Concluded r (.done v) { r with output := v }
  | failure {f : Failure} {r' : StepResult} (h : Settled r f r') : Concluded r (.failed f) r'

/-- How a result is documented: the artifact hook is not asked, it gives an artifact, or what it
raises is logged. -/
inductive Attaches (m : Machine) (step : Step) (r : StepResult) (c : Context) :
    StepResult → Context → Prop
  | unasked (h : m.artifactHookFor step r = none) : Attaches m step r c r c
  | given {hook : ArtifactHook} {v : Value} {c' : Context}
    (asked : m.artifactHookFor step r = some hook)
    (ran : hook step r.failure c = (.done v, c')) :
    Attaches m step r c { r with artifact := v } c'
  | raised {hook : ArtifactHook} {e : Failure} {c₁ c' : Context}
    (asked : m.artifactHookFor step r = some hook)
    (ran : hook step r.failure c = (.failed e, c₁))
    (logged : Context.log .error "Failed to capture artifact for step %s" [.text step.id] .null c₁ =
      (.done (), c')) : Attaches m step r c r c'

lemma attachArtifact_done {c c' : Context} {r r' : StepResult}
    (h : m.attachArtifact step r c = (.done r', c')) : m.Attaches step r c r' c' := by
  rcases hk : m.artifactHookFor step r with _ | hook
  · simp only [attachArtifact, hk] at h
    cases h
    exact .unasked hk
  · simp only [attachArtifact, hk] at h
    rcases hx : hook step r.failure c with ⟨v | e | _, c₁⟩
    · rw [Action.bind_of_done (Action.attempt_of_done hx)] at h
      cases h
      exact .given hk hx
    · rw [Action.bind_of_done (Action.attempt_of_failed hx)] at h
      obtain ⟨_, c₂, hlog, h⟩ := Action.bind_done h
      cases h
      exact .raised hk hx hlog
    · rw [Action.bind_of_exhausted (Action.attempt_of_exhausted hx)] at h
      cases h

lemma Attaches.artifact {c c' : Context} {r r' : StepResult} (h : m.Attaches step r c r' c') :
    ∃ v, r' = { r with artifact := v } := by
  cases h with
  | unasked => exact ⟨r.artifact, by cases r; rfl⟩
  | @given hook v => exact ⟨v, rfl⟩
  | raised => exact ⟨r.artifact, by cases r; rfl⟩

lemma report_done {nested : Bool} {c c' : Context} {r r' : StepResult}
    (h : m.report nested step r c = (.done r', c')) : ∃ v, r' = { r with artifact := v } := by
  obtain ⟨r₁, c₁, h₁, h⟩ := Action.bind_done h
  obtain ⟨_, c₂, -, h⟩ := Action.bind_done h
  cases (Prod.mk.inj h).1
  exact (attachArtifact_done h₁).artifact

section Conclude

variable {nested : Bool} {c c' : Context} {r : StepResult} {f : Frame}

lemma conclude_of_done {v : Value}
    (h : m.evaluate run nested step ⟨c, .blank step⟩ = (.done v, f)) :
    m.conclude run nested step c =
      (.done { f.result with output := v }, { f.context with currentStep := c.currentStep }) := by
  have henter : Frame.enter (.blank step) (m.evaluate run nested step) c =
      (.done (.ok v, f.result), f.context) := by
    simp only [Frame.enter, h]
  rw [conclude, Action.bind_of_done (Action.get_run c), Action.bind_of_done henter]
  rfl

lemma conclude_of_failed {e : Failure}
    (h : m.evaluate run nested step ⟨c, .blank step⟩ = (.failed e, f)) :
    m.conclude run nested step c = Action.lift (settled f.context step f.result e)
      { f.context with currentStep := c.currentStep } := by
  have henter : Frame.enter (.blank step) (m.evaluate run nested step) c =
      (.done (.error e, f.result), f.context) := by
    simp only [Frame.enter, h]
  rw [conclude, Action.bind_of_done (Action.get_run c), Action.bind_of_done henter]
  rfl

lemma conclude_of_exhausted (h : m.evaluate run nested step ⟨c, .blank step⟩ = (.exhausted, f)) :
    m.conclude run nested step c = (.exhausted, f.context) := by
  have henter : Frame.enter (.blank step) (m.evaluate run nested step) c =
      (.exhausted, f.context) := by
    simp only [Frame.enter, h]
  rw [conclude, Action.bind_of_done (Action.get_run c), Action.bind_of_exhausted henter]

/-- The ways in which a step comes to its end in one layer. -/
inductive Conclusion (m : Machine) (run : Runner) (nested : Bool) (step : Step) (c : Context) :
    Outcome StepResult → Context → Prop
  | value {v : Value} {f : Frame}
    (ran : m.evaluate run nested step ⟨c, .blank step⟩ = (.done v, f)) :
    Conclusion m run nested step c (.done { f.result with output := v })
      { f.context with currentStep := c.currentStep }
  | settled {e : Failure} {f : Frame} {r : StepResult}
    (ran : m.evaluate run nested step ⟨c, .blank step⟩ = (.failed e, f))
    (record : settled f.context step f.result e = .ok r) :
    Conclusion m run nested step c (.done r) { f.context with currentStep := c.currentStep }
  | unsettled {e e' : Failure} {f : Frame}
    (ran : m.evaluate run nested step ⟨c, .blank step⟩ = (.failed e, f))
    (record : settled f.context step f.result e = .error e') :
    Conclusion m run nested step c (.failed e') { f.context with currentStep := c.currentStep }
  | unfinished {f : Frame} (ran : m.evaluate run nested step ⟨c, .blank step⟩ = (.exhausted, f)) :
    Conclusion m run nested step c .exhausted f.context

lemma conclude_cases {o : Outcome StepResult} (h : m.conclude run nested step c = (o, c')) :
    Conclusion m run nested step c o c' := by
  rcases hx : m.evaluate run nested step ⟨c, .blank step⟩ with ⟨v | e | _, f⟩
  · rw [conclude_of_done hx] at h
    cases h
    exact .value hx
  · rw [conclude_of_failed hx] at h
    cases hs : settled f.context step f.result e with
    | ok r =>
      rw [hs] at h
      cases h
      exact .settled hx hs
    | error e' =>
      rw [hs] at h
      cases h
      exact .unsettled hx hs
  · rw [conclude_of_exhausted hx] at h
    cases h
    exact .unfinished hx

lemma conclude_done (h : m.conclude run nested step c = (.done r, c')) :
    ∃ o f, m.evaluate run nested step ⟨c, .blank step⟩ = (o, f) ∧ Concluded f.result o r ∧
      c' = { f.context with currentStep := c.currentStep } := by
  cases conclude_cases h with
  | value ran => exact ⟨_, _, ran, .value _, rfl⟩
  | settled ran record => exact ⟨_, _, ran, .failure (settled_ok record), rfl⟩

/-- Whatever becomes of a step, the step that was current before is current behind it. -/
lemma conclude_currentStep {o : Outcome StepResult} (h : m.conclude run nested step c = (o, c'))
    (ho : o ≠ .exhausted) : c'.currentStep = c.currentStep := by
  cases conclude_cases h with
  | value ran => rfl
  | settled ran record => rfl
  | unsettled ran record => rfl
  | unfinished ran => exact absurd rfl ho

end Conclude

end Machine

end BlockSuite
