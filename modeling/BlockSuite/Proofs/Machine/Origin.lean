import BlockSuite.Proofs.Machine.Propagation
import BlockSuite.Proofs.Machine.Undone

/-!
Where failures come from. A step that fails does so by itself, or with a step right inside it whose
result is the last one on its record. Whoever follows the failures inwards comes to a step that has
failed by itself. Its error is the one that the outermost result tells of, and behind its tree
nothing stands in the tree of the outermost result.
-/

namespace BlockSuite

/-! ### The place of an error -/

/-- The id of a step that an error has from whoever raised it. It is lost where the error is wrapped
in another one. -/
def Failure.ownStepId : Failure → Option Value
  | .raised e => if e.reason.isRuntime then e.place.stepId else none
  | _ => none

/-- The id of the step that the error of a result names as its origin. -/
def StepResult.origin (r : StepResult) : Option Value :=
  match r.failure with
  | some (.raised e) => e.place.stepId
  | _ => none

/-- What a source names is kept; else it is the text around it. -/
lemma Place.orPresent_text (inner : Option Value) (s : String) :
    orPresent inner (some (.text s)) = some (inner.getD (.text s)) := by
  cases inner <;> rfl

namespace StepResult

variable {x r : StepResult} {v : Value}

lemma PassesTo.origin (h : x.PassesTo r) (hx : x.isFatal = true) (hv : x.origin = some v) :
    r.origin = some v := by
  obtain ⟨-, -, e, p, hxe, hre⟩ := h.fatal hx
  rw [StepResult.origin, hxe] at hv
  rw [StepResult.origin, hre]
  change Place.orPresent e.place.stepId p.stepId = some v
  rw [Place.orPresent]
  dsimp only at hv
  rw [hv]
  rfl

end StepResult

namespace Machine

variable {m : Machine}

/-- What a step knows of the place of an error that ends it. -/
def placeOf (c : Context) (step : Step) : Place where
  stepId := some (.text step.id)
  stepType := some (.text step.type)
  testName := some (.ofText? c.testName)
  row := some c.rowValue

/-- The error that settles a record: a runtime error, or the one that the failure is wrapped in. -/
inductive Settles : Failure → BlockError → Prop
  | raised {e : BlockError} (runtime : e.reason.isRuntime = true) : Settles (.raised e) e
  | wrapped {f : Failure} {e : BlockError} (own : f.ownStepId = none) (place : e.place = {}) :
    Settles f e

/-- The result of a step that fails has an error that is placed at the step, unless it has come with
a place. -/
lemma settled_failure {c : Context} {step : Step} {r r' : StepResult} {f : Failure}
    (hf : ∀ reason, f ≠ .skip reason) (h : settled c step r f = .ok r') :
    ∃ e, Settles f e ∧ r'.failure = some (.raised (e.at_ (placeOf c step))) := by
  have hfailed {e : BlockError} (h : failedWith c step e r = .ok r') :
      r'.failure = some (.raised (e.at_ (placeOf c step))) := by
    obtain ⟨info, -, h⟩ := except_bind_ok h
    cases h
    rfl
  have hwrapped (hp : f.passes = false) (ho : f.ownStepId = none) :
      ∃ e, Settles f e ∧ r'.failure = some (.raised (e.at_ (placeOf c step))) := by
    rw [settled_wrapped hp] at h
    obtain ⟨e, hw, h⟩ := except_bind_ok h
    obtain ⟨s, -, hw⟩ := except_bind_ok hw
    cases hw
    exact ⟨_, .wrapped ho rfl, hfailed h⟩
  cases f with
  | skip reason => exact absurd rfl (hf reason)
  | raised e =>
    cases he : e.reason.isRuntime with
    | true =>
      rw [settled_runtime he] at h
      exact ⟨e, .raised he, hfailed h⟩
    | false => exact hwrapped he (by simp [Failure.ownStepId, he])
  | fault kind argument => exact hwrapped rfl rfl
  | invalid e => exact hwrapped rfl rfl

/-! ### Steps that fail by themselves and steps that hand on -/

namespace Activation

variable {a b z : m.Activation}

/-- A step as it is started. -/
def start (a : m.Activation) : Start := ⟨a.layers, a.nested, a.step, a.before⟩

/-- A step fails by itself: none of the results on its record fails or skips, those of its try slot
aside. -/
structure FailsItself (a : m.Activation) : Prop where
  fatal : a.result.isFatal = true
  given : ∀ x ∈ a.result.given, x.breaks = false
  children : ∃ rest, a.result.children = a.tried ++ rest ∧ ∀ x ∈ rest, x.breaks = false

/-- A step fails with a step right inside it, not in its try slot, whose result is the last one on
its record. The inputs of a step are put on record by name: each is the last one of them once, if
none has the name of another. -/
structure FailsWith (a b : m.Activation) : Prop where
  inside : m.Inside a.start b.start
  fatal : b.result.isFatal = true
  passes : b.result.PassesTo a.result
  last : (∃ pre, a.result.children = pre ++ [b.result]) ∨ a.result.children = [] ∧
    ((Dict.keys a.step.params).Nodup → ∃ pre, a.result.given = pre ++ [b.result])

/-- A step hands on the failure of a step that it fails with. -/
structure HandsOn (a b : m.Activation) (e : Failure) : Prop where
  failsWith : a.FailsWith b
  failure : b.result.failure = some e
  mem : b.result ∈ a.result.given ∨ b.result ∈ a.result.children

/-- The failure of a step, which is no skip, and the frame at that point: the result has what was on
record there, and hands on whatever has failed with the failure. -/
structure Failed (a : m.Activation) (e : Failure) (f : Frame) : Prop where
  ran : m.evaluate a.inner a.nested a.step a.fresh = (.failed e, f)
  raised : ∀ reason, e ≠ .skip reason
  given : a.result.given = f.result.given
  children : a.result.children = f.result.children
  error : ∃ err, Settles e err ∧
    a.result.failure = some (.raised (err.at_ (placeOf f.context a.step)))
  passes : ∀ x : StepResult, x.Accounts → x.failure = some e → x.PassesTo a.result

lemma failed_of_fatal (h : a.result.isFatal = true) : ∃ e f, a.Failed e f := by
  obtain ⟨r₀, c₁, h₁, h₂⟩ := Action.bind_done a.ran
  obtain ⟨v, hv⟩ := report_done h₂
  have hfatal : r₀.isFatal = true := by rwa [hv] at h
  cases conclude_cases h₁ with
  | @value w f ran =>
    have hb := (evaluate_recorded a.inner_accounts a.inner_accounts ran).breaks
    exact absurd hfatal (StepResult.not_fatal hb)
  | @settled e f _ ran record =>
    have hs := settled_ok record
    have hc := Concluded.failure hs
    have he (reason) : e ≠ .skip reason := by
      rintro rfl
      have hskip : r₀.isSkipped = true := by
        cases hs with
        | skipped hm => rfl
        | wrapped hf => cases hf
      rw [isSkipped_of_isFatal hfatal] at hskip
      cases hskip
    refine ⟨e, f, ran, he, ?_, ?_, ?_, fun x hx hxe => ?_⟩
    · rw [← hc.given, hv]
      rfl
    · rw [hv, ← hc.children]
    · obtain ⟨err, hsettles, hfailure⟩ := settled_failure he record
      exact ⟨err, hsettles, by rw [hv, hfailure]⟩
    · obtain ⟨hf, hskip⟩ := hc.passes hx (.of_failure hxe)
      rw [hv]
      exact ⟨hf, hskip⟩

/-- The result of a step that fails names the step, unless the failure has come with another one. -/
lemma Failed.origin {e : Failure} {f : Frame} (h : a.Failed e f) :
    a.result.origin = some (e.ownStepId.getD (.text a.step.id)) := by
  obtain ⟨err, hsettles, hfailure⟩ := h.error
  have horigin : a.result.origin = some (err.place.stepId.getD (.text a.step.id)) := by
    rw [StepResult.origin, hfailure]
    exact Place.orPresent_text err.place.stepId a.step.id
  rw [horigin]
  cases hsettles with
  | raised runtime => rw [Failure.ownStepId, if_pos runtime]
  | wrapped own place => rw [own, place]

/-- What has a failure that is no skip fails. -/
lemma fatal_of_failure {x : StepResult} {e : Failure} (hx : x.Accounts) (hb : x.breaks = true)
    (hxe : x.failure = some e) (he : ∀ reason, e ≠ .skip reason) : x.isFatal = true := by
  refine (StepResult.breaks_iff.mp hb).resolve_right fun hskip => ?_
  obtain ⟨reason, -, hf, -⟩ := hx.skipped hskip
  rw [hxe] at hf
  cases hf
  exact he reason rfl

/-- A step that an activation fails with, given that it has been started and has come last. -/
lemma Failed.handsOn {e : Failure} {f : Frame} (h : a.Failed e f) {nested : Bool} {x : Step}
    {c c' : Context} {r : StepResult} (ran : a.inner nested x c = (.done r, c'))
    (breaks : r.breaks = true) (failure : r.failure = some e)
    (inside : ∀ n, a.layers = n + 1 → m.Inside a.start ⟨n, nested, x, c⟩)
    (mem : r ∈ f.result.given ∨ r ∈ f.result.children)
    (last : (∃ pre, f.result.children = pre ++ [r]) ∨ f.result.children = [] ∧
      ((Dict.keys a.step.params).Nodup → ∃ pre, f.result.given = pre ++ [r])) :
    ∃ b, a.HandsOn b e := by
  have hacc : r.Accounts := a.inner_accounts _ _ _ _ _ ran
  obtain ⟨b, hlayers, rfl, rfl, rfl, rfl⟩ := Activation.of_run ran
  have hwith : a.FailsWith b := by
    refine ⟨inside b.layers hlayers, fatal_of_failure hacc breaks failure h.raised,
      h.passes b.result hacc failure, ?_⟩
    rwa [h.children, h.given]
  exact ⟨b, hwith, failure, by rwa [h.children, h.given]⟩

section Consult

variable {e : Failure} {f f₀ : Frame}
  (consulted : m.consult a.inner a.nested a.step a.fresh = (.failed e, f))
include consulted

/-- Where the block of a step has not answered there are only inputs on record. -/
lemma children_of_consult : f.result.children = [] :=
  (consult_consulted a.inner_accounts a.inner_accounts consulted).children

variable (h : a.Failed e f)
include h

lemma Failed.itself_of_consult (calm : ∀ x ∈ f.result.given, x.breaks = false)
    (hfatal : a.result.isFatal = true) : a.FailsItself := by
  have hbroken : Action.Broken (.failed e : Outcome Answer) (.failed e : Outcome Value) := .failed e
  have htried : a.tried = [] := trials_of_broken consulted hbroken
  refine ⟨hfatal, by rwa [h.given], [], ?_, by simp⟩
  rw [h.children, children_of_consult consulted, htried, List.append_nil]

/-- A step whose inputs cannot be resolved fails with the nested step of the last one, or by
itself. -/
lemma Failed.of_prepare (announced : m.announce a.nested a.step a.fresh = (.done (), f₀))
    (prepared : m.prepare a.inner a.step f₀ = (.failed e, f)) (hfatal : a.result.isFatal = true) :
    (∃ b, a.HandsOn b e) ∨ a.FailsItself := by
  have hblank : f₀.result = .blank a.step := announce_result announced
  cases hb : m.blocks.lookup a.step.type with
  | none =>
    simp only [prepare, hb] at prepared
    cases prepared
    refine .inr (h.itself_of_consult consulted (fun x hx => ?_) hfatal)
    rw [hblank] at hx
    cases hx
  | some block =>
    simp only [prepare, hb] at prepared
    rcases Action.bind_cases prepared with ⟨params, f₁, -, hdone⟩ | ⟨o, hresolve, hbroken⟩
    · cases hdone
    obtain rfl := hbroken.of_failed
    cases resolveAll_failed a.inner_accounts hresolve with
    | nested asks ran breaks failure mem last =>
      refine .inl (h.handsOn ran breaks failure (fun n hn => ?_) (.inl mem)
        (.inr ⟨?_, fun hnd => ?_⟩))
      · exact .input hn rfl announced hb asks
      · exact children_of_consult consulted
      · refine last (nodup_inputNames block hnd) fun n _ => ?_
        rw [hblank]
        rfl
    | itself calm =>
      refine .inr (h.itself_of_consult consulted (fun x hx => (calm x hx).resolve_left ?_) hfatal)
      rw [hblank]
      exact List.not_mem_nil

end Consult

/-- **How a step fails**: with a step right inside it, or by itself. -/
lemma Failed.cases {e : Failure} {f : Frame} (h : a.Failed e f)
    (hfatal : a.result.isFatal = true) : (∃ b, a.HandsOn b e) ∨ a.FailsItself := by
  rcases Action.bind_cases h.ran with ⟨answer, f₁, hconsult, hrespond⟩ | ⟨o, hconsult, hb⟩
  · have hrecord := consult_consulted a.inner_accounts a.inner_accounts hconsult
    have hgiven (x) (hx : x ∈ f₁.result.given) : x.breaks = false :=
      (hrecord.given x hx).2.breaks_of_done x (by simp)
    cases answer with
    | value v => cases hrespond
    | signal s =>
      rw [respond, perform_eq] at hrespond
      have hcont := carryOut_continues a.inner_accounts a.inner_accounts hrecord.returned hrespond
      cases carryOut_failed a.inner_accounts h.raised hrespond with
      | inside opened kept ran broken last =>
        obtain ⟨pre, r, rfl, -, hbreaks, hfailure⟩ := broken
        obtain ⟨i, x, cx, hstarted, hx⟩ := exists_startsAt ran (StepResult.stops_of_breaks hbreaks)
        obtain ⟨pre', hlast⟩ := last
        have hmem : r ∈ f.result.children := by simp [hlast]
        refine .inl (h.handsOn hx hbreaks hfailure (fun n hn => ?_) (.inr hmem)
          (.inl ⟨pre' ++ pre, ?_⟩))
        · exact .body hn rfl hconsult opened kept hstarted
        · rw [hlast, List.append_assoc]
      | itself rest children calm =>
        have hgiven' : a.result.given = f₁.result.given := by
          rw [h.given, StepResult.given, hcont.inputs, StepResult.given]
        have ht : a.tried = Machine.tried a.inner f₁.context (s.work a.step) :=
          trials_of_signal hconsult
        refine .inr ⟨hfatal, by rwa [hgiven'], rest, ?_, calm⟩
        rw [h.children, children, hrecord.children, List.nil_append, ht]
  · obtain rfl := hb.of_failed
    rcases Action.bind_cases hconsult with ⟨_, f₀, hannounce, hrest⟩ | ⟨o, hannounce, -⟩
    · rcases Action.bind_cases hrest with ⟨p, f₁, hprepare, hinvoke⟩ | ⟨o, hprepare, hb⟩
      · have hblank : Consulted StepResult.Accounts (.done () : Outcome Unit) f₀.result := by
          rw [announce_result hannounce]
          exact .blank _ a.step
        have hrecord := prepare_consulted a.inner_accounts a.inner_accounts hblank hprepare
        refine .inr (h.itself_of_consult hconsult (fun x hx => ?_) hfatal)
        rw [(invoke_failed hinvoke).2] at hx
        exact (hrecord.given x hx).2.breaks_of_done x (by simp)
      · obtain rfl := hb.of_failed
        exact Failed.of_prepare hconsult h hannounce hprepare hfatal
    · refine .inr (h.itself_of_consult hconsult (fun x hx => ?_) hfatal)
      rw [announce_result hannounce] at hx
      cases hx

lemma fails_cases (hfatal : a.result.isFatal = true) : (∃ b, a.FailsWith b) ∨ a.FailsItself := by
  obtain ⟨e, f, h⟩ := failed_of_fatal hfatal
  exact (h.cases hfatal).imp_left fun ⟨b, hb⟩ => ⟨b, hb.failsWith⟩

/-! ### Following failures inwards -/

lemma FailsWith.layers (h : a.FailsWith b) : b.layers < a.layers := by
  have hlayers : a.layers = b.layers + 1 := by
    cases h.inside with
    | input layers => exact layers
    | body layers => exact layers
  omega

/-- The steps that a step fails with, at any depth. -/
def LeadsTo : m.Activation → m.Activation → Prop := Relation.ReflTransGen FailsWith

/-- **A step that fails leads to one that fails by itself.** -/
theorem exists_origin (a : m.Activation) (hfatal : a.result.isFatal = true) :
    ∃ z : m.Activation, a.LeadsTo z ∧ z.FailsItself := by
  induction hn : a.layers using Nat.strongRecOn generalizing a with
  | _ n ih =>
    rcases fails_cases hfatal with ⟨b, hb⟩ | hitself
    · have hlayers := hb.layers
      obtain ⟨z, hz, hitself⟩ := ih b.layers (by omega) b hb.fatal rfl
      exact ⟨z, .head hb hz, hitself⟩
    · exact ⟨a, .refl, hitself⟩

lemma LeadsTo.error (h : a.LeadsTo z) : a.result.error = z.result.error := by
  induction h using Relation.ReflTransGen.head_induction_on with
  | refl => rfl
  | head hab _ ih => exact (hab.passes.fatal hab.fatal).2.1.trans ih

lemma LeadsTo.origin (h : a.LeadsTo z) {v : Value} (hv : z.result.origin = some v) :
    a.result.origin = some v := by
  induction h using Relation.ReflTransGen.head_induction_on with
  | refl => exact hv
  | head hab _ ih => exact hab.passes.origin hab.fatal ih

/-- The inputs of a step have different names. -/
def Distinct (a : m.Activation) : Prop := (Dict.keys a.step.params).Nodup

lemma FailsWith.walk (h : a.FailsWith b) (hd : a.Distinct) :
    ∃ pre, a.result.walk = pre ++ b.result.walk := by
  rw [StepResult.walk_eq a.result]
  rcases h.last with ⟨pre, hpre⟩ | ⟨hnil, hpre⟩
  · rw [hpre, StepResult.walkAll_concat, ← List.append_assoc, ← List.cons_append]
    exact ⟨_, rfl⟩
  · obtain ⟨pre, hpre⟩ := hpre hd
    rw [hnil, hpre, StepResult.walkAll_concat, StepResult.walkAll, List.append_nil,
      ← List.cons_append]
    exact ⟨_, rfl⟩

/-- In the tree of a result nothing stands behind the tree of the step that it leads to. -/
lemma LeadsTo.walk (h : a.LeadsTo z) (hd : ∀ y, a.LeadsTo y → y.LeadsTo z → y.Distinct) :
    ∃ pre, a.result.walk = pre ++ z.result.walk := by
  induction h using Relation.ReflTransGen.head_induction_on with
  | refl => exact ⟨[], rfl⟩
  | @head a b hab hbz ih =>
    obtain ⟨pre, hpre⟩ := hab.walk (hd a .refl (.head hab hbz))
    obtain ⟨pre', hpre'⟩ := ih fun y hby hyz => hd y (.head hab hby) hyz
    exact ⟨pre ++ pre', by rw [hpre, hpre', List.append_assoc]⟩

end Activation

end Machine

end BlockSuite
