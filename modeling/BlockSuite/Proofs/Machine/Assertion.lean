import BlockSuite.Assertion
import BlockSuite.Block.Declare
import BlockSuite.Proofs.Log
import BlockSuite.Proofs.Machine.Inside
import BlockSuite.Proofs.Machine.Keeps

/-!
Assertions that are found false. Where assertions are hard, the step is interrupted by an error that
tells what was expected. Where they are soft, the failure is collected in the context and marks the
result of the step, which neither fails nor skips: the steps that follow are run as if nothing had
happened, and it is left to whoever runs the list to look at what was collected.
-/

namespace BlockSuite

/-- The same failures are collected. -/
def Context.SameSoft (c c' : Context) : Prop := c'.softErrors = c.softErrors

lemma Machine.sameSoft_journalFree : JournalFree (.keeping Context.SameSoft) where
  refl _ := rfl
  trans _ _ _ h h' := h'.trans h
  records _ _ := rfl
  fault _ := trivial

namespace Assertion

variable {x : Assertion} {c : Context}

/-- The error of an assertion that is taken for the current step. -/
def currentError (x : Assertion) (c : Context) : BlockError :=
  x.hardError c (source c none none).1 (source c none none).2

/-- The record of an assertion that is taken for the current step. -/
def currentRecord (x : Assertion) (c : Context) : Except Failure SoftError :=
  x.softError (source c none none).1 (source c none none).2

/-- What becomes of an assertion that is taken for the current step: it holds, or it ends the step
where assertions are hard, or where they are soft it is collected and logged, if it can be
recorded. -/
inductive Taken (x : Assertion) (c : Context) : Outcome Unit → Context → Prop
  | held (holds : x.holds = true) : Taken x c (.done ()) c
  | raised (fails : x.holds = false) (hard : c.soft = false) :
    Taken x c (.failed (.raised (x.currentError c))) c
  | unfit {e : Failure} (fails : x.holds = false) (soft : c.soft = true)
    (record : x.currentRecord c = .error e) : Taken x c (.failed e) c
  | collected {e : SoftError} {o : Outcome Unit} {c' : Context} (fails : x.holds = false)
    (soft : c.soft = true) (record : x.currentRecord c = .ok e)
    (logged : Context.log .warning "Soft assertion failed: %s" [x.message] .null
      { c with softErrors := c.softErrors ++ [e] } = (o, c')) : Taken x c o c'

lemma handle_cases {o : Outcome Unit} {c' : Context} (h : x.handle none none c = (o, c')) :
    x.Taken c o c' := by
  cases hx : x.holds with
  | true =>
    rw [handle, if_pos hx] at h
    cases h
    exact .held hx
  | false =>
    rw [handle, if_neg (by simp [hx]), Action.bind_of_done (Action.get_run c)] at h
    dsimp only at h
    cases hc : c.soft with
    | false =>
      rw [if_neg (by simp [hc])] at h
      cases h
      exact .raised hx hc
    | true =>
      rw [if_pos hc] at h
      change (Action.lift (x.currentRecord c) >>= _ : Run Unit) c = (o, c') at h
      cases hrecord : x.currentRecord c with
      | error e =>
        rw [hrecord] at h
        cases h
        exact .unfit hx hc hrecord
      | ok e =>
        rw [hrecord] at h
        exact .collected hx hc hrecord h

/-- Only what is no text cannot be recorded. -/
lemma currentRecord_error {e : Failure} (h : x.currentRecord c = .error e) :
    ∃ i, e = .invalid i := by
  unfold currentRecord softError at h
  split at h
  · cases h
  · cases h
    exact ⟨_, rfl⟩

/-- The record of an assertion tells of the current step. -/
lemma currentRecord_ok {e : SoftError} {step : Step} (hc : c.currentStep = some step)
    (h : x.currentRecord c = .ok e) : e.stepId = some step.id ∧ e.stepType = some step.type := by
  unfold currentRecord softError at h
  split at h
  · cases h
    constructor <;> simp [source, orCurrent, hc]
  · cases h

lemma handle_hard (hx : x.holds = false) (hc : c.soft = false) :
    ∃ e : BlockError, e.reason = .hardAssertion x.expected x.actual ∧ e.message = x.message ∧
      x.handle none none c = (.failed (.raised e), c) := by
  let named := source c none none
  refine ⟨x.hardError c named.1 named.2, rfl, rfl, ?_⟩
  rw [handle, if_neg (by simp [hx]), Action.bind_of_done (Action.get_run c)]
  dsimp only
  rw [if_neg (by simp [hc])]
  rfl

/-- A failure is collected behind those that were collected before. -/
lemma handle_soft {s : String} (hx : x.holds = false) (hs : x.message = .text s)
    (hc : c.soft = true) (hl : c.Loggable) :
    ∃ e c', e.message = s ∧ x.handle none none c = (.done (), c') ∧
      c'.softErrors = c.softErrors ++ [e] := by
  let named := source c none none
  let e : SoftError := ⟨s, named.1, named.2, x.expected, x.actual, none⟩
  let c₁ : Context := { c with softErrors := c.softErrors ++ [e] }
  have he : x.softError named.1 named.2 = .ok e := by
    rw [softError, hs]
    rfl
  obtain ⟨c', hlog⟩ : ∃ c', Context.log .warning "Soft assertion failed: %s" [x.message] .null c₁ =
      (.done (), c') := by
    have hl₁ : c₁.Loggable := hl.congr ⟨rfl, rfl⟩
    rw [hs]
    exact hl₁.log_done .warning _ _ rfl
  refine ⟨e, c', rfl, ?_, ((Machine.sameSoft_journalFree.log _ _ _ _).done hlog).1⟩
  rw [handle, if_neg (by simp [hx]), Action.bind_of_done (Action.get_run c)]
  dsimp only
  rw [if_pos hc]
  change (Action.lift (x.softError named.1 named.2) >>= _ : Run Unit) c = _
  rw [he]
  exact hlog

end Assertion

namespace Machine

open BlockSuite.Frame (inContext)

/-- A step whose block has looked at an assertion and found it false, with the contexts before and
behind that look. -/
inductive Refutes (m : Machine) (a : Start) (x : Assertion) : Frame → Context → Prop
  | found {f f' : Frame} {block : Block} {params : Dict Value} {check : Dict Value → Run Assertion}
    {c : Context} (announced : m.announce a.nested a.step a.fresh = (.done (), f))
    (prepared : m.prepare (a.inner m) a.step f = (.done (block, params), f'))
    (asserts : block.executor = Block.asserting check)
    (checked : check params f'.context = (.done x, c)) (fails : x.holds = false) :
    Refutes m a x f' c

namespace Refutes

variable {m : Machine} {a : Start} {x : Assertion} {f : Frame} {c : Context}

lemma holds (h : m.Refutes a x f c) : x.holds = false := by
  cases h
  assumption

/-- The block of the step answers as the assertion is taken. -/
lemma exists_invoke (h : m.Refutes a x f c) : ∃ block params,
    m.consult (a.inner m) a.nested a.step a.fresh = invoke block params f ∧
    block.executor params f.context =
      (do
        x.handle
        return .value (.bool x.holds) : Run Answer) c := by
  cases h with
  | @found f₁ f block params check c announced prepared asserts checked fails =>
    refine ⟨block, params, ?_, ?_⟩
    · rw [consult, Action.bind_of_done announced, Action.bind_of_done prepared]
    · rw [asserts, Block.asserting, Action.bind_of_done checked]

/-- A hard assertion ends the step with its error. -/
lemma evaluate_hard (h : m.Refutes a x f c) (hc : c.soft = false) :
    ∃ e : BlockError, e.reason = .hardAssertion x.expected x.actual ∧ e.message = x.message ∧
      m.evaluate (a.inner m) a.nested a.step a.fresh =
        (.failed (.raised e), { f with context := c }) := by
  obtain ⟨block, params, hconsult, hexec⟩ := h.exists_invoke
  obtain ⟨e, hreason, hmessage, hhandle⟩ := Assertion.handle_hard h.holds hc
  rw [Action.bind_of_failed hhandle] at hexec
  refine ⟨e, hreason, hmessage, Action.bind_of_failed ?_ _⟩
  rw [hconsult, invoke, Action.bind_of_done (Action.get_run f)]
  exact Action.bind_of_failed (Frame.inContext_run hexec) _

lemma interrupted (h : m.Refutes a x f c) (hc : c.soft = false) : a.Interrupted m := by
  obtain ⟨e, -, -, he⟩ := h.evaluate_hard hc
  refine Start.interrupted_of fun v f' hdone => ?_
  rw [he] at hdone
  cases hdone

/-- The result is marked with the last failure if more failures are collected than before. -/
lemma markSoft_collected {g : Frame} {es : List SoftError} {e : SoftError}
    (hes : g.context.softErrors = es ++ [e]) {n : Nat} (hn : n ≤ es.length) :
    markSoft n g = (.done (), { g with result := { g.result with
      status := .failed
      soft := true
      error := some ⟨e.message, none, some "soft_assertion"⟩ } }) := by
  have hlt : n < g.context.softErrors.length := by
    rw [hes, List.length_append, List.length_singleton]
    omega
  rw [markSoft, Action.bind_of_done (Action.get_run g)]
  dsimp only
  rw [if_pos hlt, hes, List.getLast?_concat]
  rfl

/-- **A soft assertion does not end the step.** The failure is collected behind the others, and the
result, which is marked with it unless failures were forgotten meanwhile, neither fails nor
skips. -/
theorem conclude_soft {s : String} (h : m.Refutes a x f c) (hc : c.soft = true)
    (hs : x.message = .text s) (hl : c.Loggable) :
    ∃ e r c', m.conclude (a.inner m) a.nested a.step a.before = (.done r, c') ∧ e.message = s ∧
      c'.softErrors = c.softErrors ++ [e] ∧ r.breaks = false ∧
      (f.context.softErrors.length ≤ c.softErrors.length →
        r.status = .failed ∧ r.soft = true ∧ r.error = some ⟨s, none, some "soft_assertion"⟩) := by
  obtain ⟨block, params, hconsult, hexec⟩ := h.exists_invoke
  obtain ⟨e, c₁, hmessage, hhandle, hcollected⟩ := Assertion.handle_soft h.holds hs hc hl
  rw [Action.bind_of_done hhandle] at hexec
  let g : Frame := ⟨c₁, f.result⟩
  let n := f.context.softErrors.length
  obtain ⟨r, hmark⟩ := markSoft_run n g
  have hanswer : m.consult (a.inner m) a.nested a.step a.fresh =
      (.done (.value (.bool x.holds)), ⟨c₁, r⟩) := by
    rw [hconsult, invoke, Action.bind_of_done (Action.get_run f),
      Action.bind_of_done (Frame.inContext_run hexec)]
    exact Action.bind_of_done hmark _
  have hrun := conclude_of_done (Action.bind_of_done hanswer _)
  have ha := m.runWith_accounts a.layers
  refine ⟨e, _, _, hrun, hmessage, hcollected, (consult_consulted ha ha hanswer).breaks, ?_⟩
  intro hlen
  rw [markSoft_collected hcollected hlen, hmessage] at hmark
  cases hmark
  exact ⟨rfl, rfl, rfl⟩

end Refutes

end Machine

end BlockSuite
