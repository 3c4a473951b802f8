import BlockSuite.Proofs.Log
import BlockSuite.Proofs.Machine.Activation
import BlockSuite.Proofs.Machine.Frames
import BlockSuite.Proofs.Machine.Started

/-!
Leaving a procedure. A step that leaves a procedure while a frame is open ends, one after the other,
all lists of steps around it up to the nearest frame, which takes its value. Outside of frames a
step cannot leave anything, and its list goes on.
-/

namespace BlockSuite.Machine

open BlockSuite.Frame (inContext note)
open BlockSuite.Action (Contract Keeps Meets)
open BlockSuite.Context (SameDepth)

variable {m : Machine}

namespace Activation

/-- The step opens a frame, of which a value may be expected. -/
def Framed (a : m.Activation) (expectReturn : Bool) : Prop :=
  ∃ s g, a.Answers (.signal s) g ∧ (s.work a.step).expects = some expectReturn

/-- Inside a step, another one is started in a context: at a position of one of the lists that the
step opens. -/
def Starts (a : m.Activation) (k i : Nat) (step : Step) (c : Context) : Prop :=
  ∃ s g steps c₀, a.Answers (.signal s) g ∧ Opens a.inner g (s.work a.step) k steps c₀ ∧
    StartsAt (a.inner false) steps c₀ i step c

/-- A step runs another one, which it has started in one of its lists. -/
structure Runs (a b : m.Activation) (k i : Nat) : Prop where
  layers : a.layers = b.layers + 1
  nested : b.nested = false
  starts : a.Starts k i b.step b.before

/-- Inside a step, none is started behind a position: neither later in that list, nor in a later
list. -/
def EndsAt (a : m.Activation) (k i : Nat) : Prop :=
  ∀ k' i' step c, a.Starts k' i' step c → k' < k ∨ k' = k ∧ i' ≤ i

/-- A step is run inside another one, or is that step, and no frame is between them: neither the
outer step nor any around the inner one opens a frame. -/
inductive Within : m.Activation → m.Activation → Prop
  | refl (a : m.Activation) : Within a a
  | step {a b z : m.Activation} {k i : Nat} (h : a.Runs b k i) (hf : ∀ e, ¬a.Framed e)
    (hz : Within b z) : Within a z

variable {a b z : m.Activation} {k i : Nat} {v : Value} {f g : Frame}

/-! ### Answers and results -/

lemma Answers.unique {x y : Answer} (h : a.Answers x f) (h' : a.Answers y g) : x = y ∧ f = g := by
  unfold Answers at h h'
  rw [h] at h'
  cases h'
  exact ⟨rfl, rfl⟩

lemma Answers.consulted {x : Answer} (h : a.Answers x f) : Consulted StepResult.Accounts
    (.done x) f.result :=
  consult_consulted a.inner_accounts a.inner_accounts h

lemma Answers.evaluate {s : Signal} (h : a.Answers (.signal s) g) :
    m.evaluate a.inner a.nested a.step a.fresh = carryOut a.inner (s.work a.step) g := by
  rw [Machine.evaluate, Action.bind_of_done h, respond, perform_eq]

lemma Framed.expects {e : Bool} {s : Signal} (hf : a.Framed e) (h : a.Answers (.signal s) g) :
    (s.work a.step).expects = some e := by
  obtain ⟨s', g', hans, hw⟩ := hf
  obtain ⟨hs, -⟩ := h.unique hans
  cases hs
  exact hw

lemma Answers.expects_none {s : Signal} (h : a.Answers (.signal s) g) (hf : ∀ e, ¬a.Framed e) :
    (s.work a.step).expects = none := by
  cases hw : (s.work a.step).expects with
  | none => rfl
  | some e => exact absurd ⟨s, g, h, hw⟩ (hf e)

/-- The result of a step that has come to a value is its record with the value. -/
lemma of_value (h : m.evaluate a.inner a.nested a.step a.fresh = (.done v, f)) :
    a.result.output = v ∧ a.result.returned = f.result.returned ∧
      a.result.children = f.result.children ∧ a.result.breaks = f.result.breaks := by
  obtain ⟨o, f', r, w, he, hc, hr⟩ := a.concluded
  rw [h] at he
  cases he
  rw [hr]
  cases hc
  exact ⟨rfl, rfl, rfl, rfl⟩

/-- A result that leaves a procedure comes from a record that does. -/
lemma record_returned (h : a.result.returned = true) :
    ∃ o f, m.evaluate a.inner a.nested a.step a.fresh = (o, f) ∧ f.result.returned = true := by
  obtain ⟨o, f, r, w, he, hc, hr⟩ := a.concluded
  refine ⟨o, f, he, ?_⟩
  rw [hr] at h
  cases hc with
  | value v => exact h
  | failure hs => cases hs <;> exact h

/-! ### One step around another -/

/-- The list in which a step leaves a procedure ends with it. -/
lemma Runs.left (h : a.Runs b k i) (hr : b.result.returned = true) :
    ∃ s g steps c₀ rs, a.Answers (.signal s) g ∧ Opens a.inner g (s.work a.step) k steps c₀ ∧
      StartsAt (a.inner false) steps c₀ i b.step b.before ∧
      a.inner false b.step b.before = (.done b.result, b.after) ∧
      runList (a.inner false) steps c₀ = (.done (rs ++ [b.result]), b.after) ∧
      Left rs b.result := by
  obtain ⟨s, g, steps, c₀, hans, hop, hst⟩ := h.starts
  have hrun : a.inner false b.step b.before = (.done b.result, b.after) := by
    rw [inner, h.layers, ← h.nested]
    exact b.ran
  have hbr := b.accounts.returned hr
  obtain ⟨rs, hl, hc⟩ := hst.runList hrun (StepResult.stops_of_returned hr)
  exact ⟨s, g, steps, c₀, rs, hans, hop, hst, hrun, hl, hc, hbr, hr⟩

/-- Nothing is started behind a step that leaves a procedure. -/
lemma Runs.endsAt (h : a.Runs b k i) (hr : b.result.returned = true) : a.EndsAt k i := by
  obtain ⟨s, g, steps, c₀, rs, hans, hop, hst, hrun, hl, hL⟩ := h.left hr
  intro k' i' step c hlater
  obtain ⟨s', g', steps', c₀', hans', hop', hst'⟩ := hlater
  obtain ⟨hs, rfl⟩ := hans.unique hans'
  cases hs
  obtain ⟨hle, heq⟩ := hop.le_of_left hl hL hop'
  rcases Nat.lt_or_eq_of_le hle with hlt | hk
  · exact .inl hlt
  · obtain ⟨rfl, rfl⟩ := heq hk
    exact .inr ⟨hk, hst.le_of_stops hrun (StepResult.stops_of_returned hr) hst'⟩

/-- A step without a frame leaves a procedure when a step that it runs does, with the same value. -/
lemma Runs.departs (h : a.Runs b k i) (hr : b.result.returned = true) (hf : ∀ e, ¬a.Framed e) :
    a.result.returned = true ∧ a.result.output = b.result.output ∧
      b.result ∈ a.result.children := by
  obtain ⟨s, g, steps, c₀, rs, hans, hop, -, -, hl, hL⟩ := h.left hr
  obtain ⟨f', hrun, hret, hmem⟩ := hop.departs hl hL (hans.expects_none hf)
  obtain ⟨hout, hret', hch, -⟩ := of_value (hans.evaluate.trans hrun)
  exact ⟨hret'.trans hret, hout, hch ▸ hmem⟩

/-- A frame takes the value with which a step of its body leaves it. -/
lemma Runs.framed {expectReturn : Bool} (h : a.Runs b k i) (hr : b.result.returned = true)
    (hf : a.Framed expectReturn) :
    a.result.returned = false ∧
      a.result.output = (if expectReturn then b.result.output else .null) ∧
      b.result ∈ a.result.children := by
  obtain ⟨s, g, steps, c₀, rs, hans, hop, -, -, hl, hL⟩ := h.left hr
  have hw := hf.expects hans
  cases hwork : s.work a.step with
  | frame args body e =>
    rw [hwork] at hw hop
    cases hw
    obtain ⟨f', hrun, hret, hmem⟩ := hop.frame_departs hl hL
    rw [← hwork] at hrun
    obtain ⟨hout, hret', hch, -⟩ := of_value (hans.evaluate.trans hrun)
    exact ⟨by rw [hret', hret, hans.consulted.returned], hout, hch ▸ hmem⟩
  | _ =>
    rw [hwork] at hw
    cases hw

/-! ### The step that leaves -/

/-- A step that leaves an open frame ends with the value. -/
lemma leaves (h : a.Answers (.signal (.leave v)) g) (hd : g.context.callDepth ≠ 0) :
    a.result.returned = true ∧ a.result.output = v := by
  obtain ⟨hout, hret, -⟩ := of_value (h.evaluate.trans (carryOut_leave hd))
  exact ⟨hret, hout⟩

/-- Outside of frames a step that would leave one is like any other. -/
lemma leaves_nothing (h : a.Answers (.signal (.leave v)) g) (hd : g.context.callDepth = 0) :
    a.result.returned = false ∧
      (∀ c, warnStray g.context = (.done (), c) → a.result.stops = false) := by
  have hret : a.result.returned = false := by
    by_contra hr
    obtain ⟨o, f, he, hfr⟩ := record_returned (by simpa using hr)
    have hsame : f.result = g.result := by
      rw [h.evaluate, Signal.work, carryOut_leave_stray hd] at he
      obtain ⟨o', h₁, -⟩ := Action.bind_valued (fun _ _ => ⟨_, rfl⟩) he
      exact (Frame.inContext_eq h₁).2
    rw [hsame, h.consulted.returned] at hfr
    cases hfr
  refine ⟨hret, fun c hw => ?_⟩
  have hrun : carryOut a.inner (.leave v) g = (.done v, { g with context := c }) := by
    rw [carryOut_leave_stray hd, Action.bind_of_done (Frame.inContext_run hw)]
    rfl
  obtain ⟨-, -, -, hbr⟩ := of_value (h.evaluate.trans hrun)
  rw [StepResult.stops_eq, hret, hbr, h.consulted.breaks]
  rfl

/-! ### Up to the nearest frame -/

/-- All steps from one that leaves a frame outwards leave it with the same value. -/
lemma Within.departs (h : Within b z) (hz : z.Answers (.signal (.leave v)) g)
    (hd : g.context.callDepth ≠ 0) : b.result.returned = true ∧ b.result.output = v := by
  induction h with
  | refl a => exact leaves hz hd
  | step h hf _ ih =>
    obtain ⟨hr, hv⟩ := ih hz
    obtain ⟨hr', hv', -⟩ := h.departs hr hf
    exact ⟨hr', hv'.trans hv⟩

lemma work_leave {s : Signal} {step : Step} (h : s.work step = .leave v) : s = .leave v := by
  cases s with
  | leave w =>
    cases h
    rfl
  | expand steps name frame bindings => cases frame <;> cases h
  | _ => cases h

/-- A result that leaves a procedure is that of a step that leaves it itself, or that has run such
a step. -/
lemma exists_runs (h : a.result.returned = true) :
    (∃ v g, a.Answers (.signal (.leave v)) g ∧ g.context.callDepth ≠ 0) ∨
      ∃ b k i, a.Runs b k i ∧ (∀ e, ¬a.Framed e) ∧ b.result.returned = true := by
  obtain ⟨o, f, he, hfr⟩ := record_returned h
  rcases Action.bind_cases he with ⟨x, g, hans, he⟩ | ⟨o', hans, -⟩
  swap
  · rw [(consult_consulted a.inner_accounts a.inner_accounts hans).returned] at hfr
    cases hfr
  change a.Answers x g at hans
  cases x with
  | value v =>
    cases he
    rw [hans.consulted.returned] at hfr
    cases hfr
  | signal s =>
    rw [respond, perform_eq] at he
    rcases carryOut_returned a.inner_accounts he hans.consulted.returned hfr with
      ⟨v, hw, hd⟩ | ⟨hw, k, steps, c, rs, r, c', hop, hl, hL⟩
    · cases work_leave hw
      exact .inl ⟨v, g, hans, hd⟩
    · obtain ⟨i, x, cx, hst, hx⟩ :=
        exists_startsAt hl (StepResult.stops_of_returned hL.returned)
      obtain ⟨b, hlayers, hnested, rfl, rfl, rfl⟩ := of_run hx
      refine .inr ⟨b, k, i, ⟨hlayers, hnested, s, g, steps, c, hans, hop, hst⟩, ?_, hL.returned⟩
      intro e hf
      rw [hf.expects hans] at hw
      cases hw

/-- **A result is marked as one that leaves a procedure exactly if a step within it leaves an open
frame.** -/
theorem returned_iff : a.result.returned = true ↔
    ∃ z v g, Within a z ∧ z.Answers (.signal (.leave v)) g ∧ g.context.callDepth ≠ 0 := by
  constructor
  · -- The steps inside are run by fewer layers.
    intro h
    obtain ⟨n, hn⟩ : ∃ n, a.layers = n := ⟨_, rfl⟩
    induction n using Nat.strongRecOn generalizing a with
    | ind n ih =>
      rcases exists_runs h with ⟨v, g, hans, hd⟩ | ⟨b, k, i, hab, hf, hb⟩
      · exact ⟨a, v, g, .refl a, hans, hd⟩
      · have hlt : b.layers < n := by
          have := hab.layers
          omega
        obtain ⟨z, v, g, hw, hz, hd⟩ := ih b.layers hlt hb rfl
        exact ⟨z, v, g, .step hab hf hw, hz, hd⟩
  · rintro ⟨z, v, g, hw, hz, hd⟩
    exact (hw.departs hz hd).1

/-! ### How many frames are open -/

lemma Answers.depth (hm : m.Respects SameDepth) {x : Answer} (h : a.Answers x g) :
    g.context.callDepth = a.before.callDepth := by
  have hrun (nested : Bool) (s : Step) : Keeps SameDepth (a.inner nested s) :=
    runWith_keeps sameDepth_harmless hm a.layers nested s
  exact ((consult_keeps sameDepth_harmless hm hrun a.nested a.step).done h).1

end Activation

section Depth

variable {run : Runner} (hrun : ∀ nested s, Keeps SameDepth (run nested s))
include hrun

lemma StartsAt.depth {steps : List Step} {c c' : Context} {i : Nat} {x : Step}
    (h : StartsAt (run false) steps c i x c') : c'.callDepth = c.callDepth := by
  induction h with
  | here => rfl
  | later head hr next ih => exact ih.trans (hrun _ _ _ _ _ head (by simp))

lemma Pass.depth {steps : List Step} {starts : List (Run Unit)} {f : Frame} {k : Nat} {c : Context}
    (hs : ∀ x ∈ starts, Meets (.keeping SameDepth) x) (h : Pass run steps starts f k c) :
    c.callDepth = f.context.callDepth := by
  induction h with
  | here begins =>
    exact ((hs _ List.mem_cons_self).done (Frame.inContext_eq begins).1).1
  | later begins body stays next ih =>
    have hbegin := ((hs _ List.mem_cons_self).done (Frame.inContext_eq begins).1).1
    have hrun' := sameDepth_harmless.runBody (fun n s => bears_keeping (hrun n s)) steps
    have hbody := (hrun'.done body).1
    have hnext := ih fun x hx => hs x (List.mem_cons_of_mem _ hx)
    exact hnext.trans (hbody.trans hbegin)

/-- In the lists that a signal opens one more frame is open if the signal is about a frame. -/
lemma Opens.depth {s : Signal} {step : Step} {g : Frame} {k : Nat} {steps : List Step}
    {c : Context} (h : Opens run g (s.work step) k steps c) :
    c.callDepth = g.context.callDepth + if (s.work step).expects.isSome then 1 else 0 := by
  generalize hw : s.work step = w at h
  cases h with
  | pass hp => exact hp.depth hrun (sameDepth_harmless.work_starts hw)
  | attempt => rfl
  | handler attempt fails begins =>
    have hbody := ((sameDepth_harmless.chain (fun s => (hrun false s).meets) _).done attempt).1
    have hbegin := ((sameDepth_harmless.bindCaught _ _).done begins).1
    exact hbegin.trans hbody
  | frame begins =>
    have hargs : Meets (.keeping SameDepth) (bindArguments _) :=
      sameDepth_harmless.bind (sameDepth_harmless.work_args hw) fun bindings _ =>
        sameDepth_harmless.bind (sameDepth_harmless.bindEach bindings) fun _ _ =>
          sameDepth_harmless.pure _
    have hbegin : _ = _ := (hargs.done begins).1
    exact congrArg (· + 1) hbegin

end Depth

namespace Activation

variable {a b z : m.Activation} {k i : Nat} {v : Value} {g : Frame}

/-- A step that is run by another one starts with as many frames open, or with one more if the
other one opens a frame. -/
lemma Runs.depth (hm : m.Respects SameDepth) (h : a.Runs b k i) :
    ∃ s g, a.Answers (.signal s) g ∧ b.before.callDepth =
      a.before.callDepth + if (s.work a.step).expects.isSome then 1 else 0 := by
  obtain ⟨s, g, steps, c₀, hans, hop, hst⟩ := h.starts
  have hrun (nested : Bool) (x : Step) : Keeps SameDepth (a.inner nested x) :=
    runWith_keeps sameDepth_harmless hm a.layers nested x
  exact ⟨s, g, hans, by rw [hst.depth hrun, hop.depth hrun, hans.depth hm]⟩

lemma Runs.depth_of_framed (hm : m.Respects SameDepth) (h : a.Runs b k i) {e : Bool}
    (hf : a.Framed e) : b.before.callDepth = a.before.callDepth + 1 := by
  obtain ⟨s, g, hans, hd⟩ := h.depth hm
  rw [hd, hf.expects hans]
  rfl

lemma Within.depth (hm : m.Respects SameDepth) (h : Within b z) :
    z.before.callDepth = b.before.callDepth := by
  induction h with
  | refl a => rfl
  | step h hf _ ih =>
    obtain ⟨s, g, hans, hd⟩ := h.depth hm
    rw [ih, hd, hans.expects_none hf]
    rfl

/-- Where no frame is open, no result leaves a procedure. -/
lemma not_returned (hm : m.Respects SameDepth) (h : a.before.callDepth = 0) :
    a.result.returned = false := by
  by_contra hr
  obtain ⟨z, v, g, hw, hz, hd⟩ := returned_iff.mp (by simpa using hr)
  exact hd (by rw [hz.depth hm, hw.depth hm, h])

lemma Within.not_framed (h : Within a z) (hz : z.Answers (.signal (.leave v)) g) (e : Bool) :
    ¬a.Framed e := by
  cases h with
  | refl =>
    intro hf
    cases hf.expects hz
  | step hab hf hbz => exact hf e

end Activation

lemma Chain.forall_depth {run : Step → Run StepResult} (hrun : ∀ s, Keeps SameDepth (run s))
    {steps : List Step} {rs : List StepResult} {c c' : Context} (h : Chain run c steps rs c') :
    ∀ r ∈ rs, ∃ step c₁ c₂, run step c₁ = (.done r, c₂) ∧ c₁.callDepth = c.callDepth := by
  induction h with
  | nil => simp
  | cons head _ ih =>
    intro x hx
    rcases List.mem_cons.mp hx with rfl | hx
    · exact ⟨_, _, _, head, rfl⟩
    · obtain ⟨step, c₁, c₂, hstep, hd⟩ := ih x hx
      exact ⟨step, c₁, c₂, hstep, hd.trans (hrun _ _ _ _ head (by simp))⟩

/-! ### The law -/

end BlockSuite.Machine
