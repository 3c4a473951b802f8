import BlockSuite.Proofs.Machine.Capture
import BlockSuite.Proofs.Machine.Origin

/-!
What a step fails with by itself. Where nothing that fails or skips is put on record, a step fails
with a failure of the machine's own, or with what a hook or its executor has raised. The failures of
the machine's own come without a place: it is only when the record of the step is settled that the
step is named.
-/

namespace BlockSuite

/-- Failures that a machine raises itself: an error with a text, and whatever it cannot go on
with. -/
inductive Failure.Own : Failure → Prop
  | error (reason : Reason) (message : String) : Own (.raised (.of reason message))
  | internal {f : Failure} (h : f.Internal) : Own f

namespace Machine

open BlockSuite.Frame (inContext note)
open BlockSuite.Action (Meets Contract)

/-- The contract that allows all states, and the failures of a machine's own. -/
def own : Contract Context := ⟨fun _ _ => True, Failure.Own⟩

lemma own_harmless : Harmless own where
  refl _ := trivial
  trans _ _ _ _ _ := trivial
  records _ _ := trivial
  fault f := .internal (.fault f)
  bindings _ _ := trivial
  currentStep _ _ := trivial
  procedures _ _ := trivial
  frame _ _ _ := trivial
  error reason message _ := .error reason message

variable {m : Machine} {run : Runner} {step : Step} {steps : List Step} {f f' : Frame}
  {e : Failure} {c c' : Context}

lemma runList_failed {run : Step → Run StepResult} (h : runList run steps c = (.failed e, c')) :
    ∃ step c₁, run step c₁ = (.failed e, c') := by
  rcases runList_cases h with ⟨rs, -, -, hd⟩ | ⟨ran, x, rest, rs, c₁, -, -, -, hx⟩
  · cases hd
  · rcases hx with ⟨r, -, -, hd⟩ | ⟨o, hx, hb⟩
    · cases hd
    · obtain rfl := hb.of_failed
      exact ⟨x, c₁, hx⟩

/-- Inner steps that have no result only leave failures of the machine's own. -/
def EscapesOwn (run : Runner) : Prop :=
  ∀ nested step c e c', run nested step c = (.failed e, c') → e.Own

/-! ### Inputs -/

section Inputs

variable {b : Block} (he : EscapesOwn run)
include he

lemma resolveInput_own {name : String} (h : resolveInput run b step name f = (.failed e, f'))
    (calm : ∀ x ∈ f'.result.given, x.breaks = false) : e.Own := by
  cases hget : Dict.get? step.params name with
  | none =>
    cases hdeclared : (declared b).get? name with
    | none =>
      simp only [resolveInput, hget, hdeclared] at h
      cases h
    | some i =>
      simp only [resolveInput, hget, hdeclared] at h
      split at h
      · cases h
        exact .error _ _
      · exact ((inContext_meets (own_harmless.fill _)).failed h).2
  | some v =>
    cases v with
    | literal v =>
      simp only [resolveInput, hget] at h
      exact ((inContext_meets (own_harmless.fill _)).failed h).2
    | nested x =>
      simp only [resolveInput, hget] at h
      rcases Action.bind_cases h with ⟨r, f₁, -, h⟩ | ⟨o, h₁, hb⟩
      · rw [Action.bind_of_done (Frame.note_run _ f₁)] at h
        split at h
        · next hbreaks =>
          -- A result that ends the step would be on record.
          cases h
          have hr : r.breaks = false := calm r (mem_withInput f₁.result name r)
          rw [StepResult.breaks, hbreaks] at hr
          cases hr
        · cases h
      · obtain rfl := hb.of_failed
        exact he _ _ _ _ _ (Frame.inContext_eq h₁).1

lemma resolveAll_own {names : List String}
    (h : resolveAll run b step names f = (.failed e, f'))
    (calm : ∀ x ∈ f'.result.given, x.breaks = false) : e.Own := by
  induction names generalizing f with
  | nil => cases h
  | cons name rest ih =>
    rcases Action.bind_cases h with ⟨v, f₁, -, h⟩ | ⟨o, h₁, hb⟩
    · obtain ⟨o, h, hv⟩ := Action.bind_valued (fun _ _ => ⟨_, rfl⟩) h
      obtain rfl := hv.of_failed
      exact ih h
    · obtain rfl := hb.of_failed
      exact resolveInput_own he h₁ calm

lemma prepare_own (h : m.prepare run step f = (.failed e, f'))
    (calm : ∀ x ∈ f'.result.given, x.breaks = false) : e.Own := by
  cases hb : m.blocks.lookup step.type with
  | none =>
    simp only [prepare, hb] at h
    cases h
    exact .error _ _
  | some block =>
    simp only [prepare, hb] at h
    rcases Action.bind_cases h with ⟨params, f₁, -, h⟩ | ⟨o, h, hb⟩
    · cases h
    · obtain rfl := hb.of_failed
      exact resolveAll_own he h calm

end Inputs

/-! ### Work -/

/-- Whatever was put on record behind some results neither fails nor skips. -/
def CalmBehind (before : List StepResult) (r : StepResult) : Prop :=
  ∀ rest, r.children = before ++ rest → ∀ x ∈ rest, x.breaks = false

lemma CalmBehind.append {before more : List StepResult} {r : StepResult}
    (h : CalmBehind before r) : CalmBehind (before ++ more) r := by
  intro rest hrest x hx
  exact h (more ++ rest) (by rw [hrest, List.append_assoc]) x (List.mem_append_right _ hx)

lemma CalmBehind.not_broken {before rs : List StepResult} {r : StepResult}
    (h : CalmBehind before r) (hr : r.children = before ++ rs) : ¬BrokenBy rs e := by
  rintro ⟨pre, x, rfl, -, hbreaks, -⟩
  rw [h _ hr x (by simp)] at hbreaks
  cases hbreaks

section Work

variable (ha : run.Yields StepResult.Accounts) (he : EscapesOwn run)
include ha he

lemma runBody_own (h : runBody run steps f = (.failed e, f'))
    (calm : CalmBehind f.result.children f'.result) : e.Own := by
  rcases runBody_cases ha h with ⟨rs, -, had⟩ | ⟨o, hl, -, hb⟩
  · exact absurd had.of_failed (calm.not_broken had.children)
  · obtain rfl := hb.of_failed
    obtain ⟨x, cx, hx⟩ := runList_failed hl
    exact he _ _ _ _ _ hx

lemma runPasses_own {starts : List (Run Unit)} (hs : ∀ x ∈ starts, Meets own x)
    (h : runPasses (runBody run steps) starts f = (.failed e, f'))
    (calm : CalmBehind f.result.children f'.result) : e.Own := by
  induction starts generalizing f with
  | nil => cases h
  | cons start rest ih =>
    rcases Action.bind_cases h with ⟨_, f₁, h₁, h⟩ | ⟨o, h₁, hb⟩
    swap
    · obtain rfl := hb.of_failed
      exact ((inContext_meets (hs start List.mem_cons_self)).failed h₁).2
    rw [← (Frame.inContext_eq h₁).2] at calm
    rcases Action.bind_cases h with ⟨_, f₂, h₂, h⟩ | ⟨o, h₂, hb⟩
    · obtain ⟨rs, hrs, -⟩ := runBody_done ha h₂
      rw [Action.bind_of_done (hasReturned_run f₂)] at h
      cases hret : f₂.result.returned with
      | true =>
        rw [hret] at h
        cases h
      | false =>
        rw [hret] at h
        refine ih (fun x hx => hs x (List.mem_cons_of_mem _ hx)) h ?_
        rw [hrs]
        exact calm.append
    · obtain rfl := hb.of_failed
      exact runBody_own ha he h₂ calm

lemma runTrial_own {tries handler : List Step} {errorBinding : Option String}
    (hskip : ∀ reason, e ≠ .skip reason)
    (h : runTrial run tries handler errorBinding f = (.failed e, f'))
    (calm : CalmBehind (f.result.children ++ triedBy run tries f.context) f'.result) : e.Own := by
  rcases runTrial_cases h with ⟨o, hl, -, hb⟩ | ⟨rs, c, hl, ⟨hn, h⟩ | ⟨x, -, h⟩⟩
  · obtain rfl := hb.of_failed
    obtain ⟨x, cx, hx⟩ := runList_failed hl
    exact he _ _ _ _ _ hx
  · obtain ⟨-, had⟩ := adopt_cases (ended_of_runList hl) (forall_runList ha hl) h
    obtain ⟨reason, hreason⟩ := had.of_failed.skip ha hl hn
    exact absurd hreason (hskip reason)
  · have ht : triedBy run tries f.context = rs := by simp only [triedBy, hl]
    rw [ht] at calm
    rcases Action.bind_cases h with ⟨_, f₁, h₁, h⟩ | ⟨o, h₁, hb⟩
    · refine runBody_own ha he h ?_
      rw [(Frame.inContext_eq h₁).2]
      exact calm
    · obtain rfl := hb.of_failed
      exact ((inContext_meets (own_harmless.bindCaught _ _)).failed h₁).2

lemma runFrame_own {expectReturn : Bool} {bindings : Dict Value}
    (h : runFrame run steps expectReturn bindings f = (.failed e, f'))
    (calm : CalmBehind f.result.children f'.result) : e.Own := by
  cases runFrame_cases h with
  | unbound binds hb =>
    obtain rfl := hb.of_failed
    exact ((own_harmless.bindEach bindings).failed binds).2
  | failed binds body =>
    obtain ⟨x, cx, hx⟩ := runList_failed body
    exact he _ _ _ _ _ hx
  | ended binds body raises =>
    rw [frameResult_same raises] at calm
    rcases frameResult_cases (ended_of_runList body) (forall_runList ha body) raises with
      ⟨ho, -⟩ | ⟨e', ho, hbroken⟩
    · cases ho
    · exact absurd hbroken (calm.not_broken rfl)

/-- Work that puts nothing on record that fails, but for a try slot, fails with a failure of the
machine's own. -/
lemma carryOut_own {s : Signal} (hskip : ∀ reason, e ≠ .skip reason)
    (h : carryOut run (s.work step) f = (.failed e, f'))
    (calm : CalmBehind (f.result.children ++ tried run f.context (s.work step)) f'.result) :
    e.Own := by
  have hplain (ht : tried run f.context (s.work step) = []) :
      CalmBehind f.result.children f'.result := by
    rwa [ht, List.append_nil] at calm
  cases hw : s.work step with
  | passes starts steps =>
    rw [hw] at h hplain
    obtain ⟨o, h, hv⟩ := Action.bind_valued (fun _ f => ⟨_, bodyOutput_run f⟩) h
    obtain rfl := hv.of_failed
    exact runPasses_own ha he (own_harmless.work_starts hw) h (hplain rfl)
  | trial tries handler errorBinding =>
    rw [hw] at h calm
    obtain ⟨o, h, hv⟩ := Action.bind_valued (fun _ f => ⟨_, bodyOutput_run f⟩) h
    obtain rfl := hv.of_failed
    exact runTrial_own ha he hskip h calm
  | frame args steps expectReturn =>
    rw [hw] at h hplain
    rcases Action.bind_cases h with ⟨bindings, f₁, h₁, h⟩ | ⟨o, h₁, hb⟩
    · refine runFrame_own ha he h ?_
      rw [(Frame.inContext_eq h₁).2]
      exact hplain rfl
    · obtain rfl := hb.of_failed
      exact ((inContext_meets (own_harmless.work_args hw)).failed h₁).2
  | leave v =>
    rw [hw] at h
    by_cases hd : f.context.callDepth = 0
    · rw [carryOut_leave_stray hd] at h
      obtain ⟨o, h, hv⟩ := Action.bind_valued (fun _ _ => ⟨_, rfl⟩) h
      obtain rfl := hv.of_failed
      exact ((inContext_meets (own_harmless.log _ _ _ _)).failed h).2
    · rw [carryOut_leave hd] at h
      cases h
  | define name procedure =>
    rw [hw] at h
    obtain ⟨o, h, hv⟩ := Action.bind_valued (fun _ _ => ⟨_, rfl⟩) h
    obtain rfl := hv.of_failed
    exact ((inContext_meets (own_harmless.defineLogged _ _)).failed h).2

end Work

/-! ### Steps -/

/-- What the steps of a machine escape with are failures of its own. -/
lemma runWith_escapesOwn (m : Machine) (n : Nat) : EscapesOwn (m.runWith n) :=
  fun _ _ _ _ _ h => .internal (runWith_failed h)

namespace Activation

variable {a : m.Activation}

/-- **A step that fails by itself** fails with a failure of the machine's own, or with one that a
hook or its executor has raised. -/
theorem FailsItself.raises (hitself : a.FailsItself) (h : a.Failed e f) :
    e.Own ∨ m.Raises a.inner a.nested a.step a.before e := by
  have he : EscapesOwn a.inner := m.runWith_escapesOwn a.layers
  have hgiven : ∀ x ∈ f.result.given, x.breaks = false := by
    rw [← h.given]
    exact hitself.given
  rcases Action.bind_cases h.ran with ⟨answer, f₁, hconsult, hrespond⟩ | ⟨o, hconsult, hb⟩
  · cases answer with
    | value v => cases hrespond
    | signal s =>
      rw [respond, perform_eq] at hrespond
      refine .inl (carryOut_own a.inner_accounts he h.raised hrespond ?_)
      have hrecord := consult_consulted a.inner_accounts a.inner_accounts hconsult
      have ht : a.tried = Machine.tried a.inner f₁.context (s.work a.step) :=
        trials_of_signal hconsult
      obtain ⟨rest, hrest, hcalm⟩ := hitself.children
      intro rest' hrest' x hx
      rw [hrecord.children, List.nil_append, ← ht, ← h.children, hrest] at hrest'
      rw [List.append_cancel_left hrest'] at hcalm
      exact hcalm x hx
  · obtain rfl := hb.of_failed
    rcases Action.bind_cases hconsult with ⟨_, f₀, hannounce, hrest⟩ | ⟨o, hannounce, hb⟩
    swap
    · obtain rfl := hb.of_failed
      exact announce_failed own_harmless hannounce
    rcases Action.bind_cases hrest with ⟨⟨block, params⟩, f₁, hprepare, hinvoke⟩ | ⟨o, hprepare, hb⟩
    · exact .inr (.executor hannounce hprepare (invoke_failed hinvoke).1)
    · obtain rfl := hb.of_failed
      exact .inl (prepare_own he hprepare hgiven)

end Activation

end Machine

end BlockSuite
