import BlockSuite.Proofs.Machine.Logged
import BlockSuite.Proofs.Machine.Steady

/-!
Runs without failures. Where no step has a result that tells of a failure, caught or collected ones
included, a list of steps ends with one that skips, or nothing is collected meanwhile. What a block
collects would mark the result of its step, unless the block skips then; and a skip ends all steps
around it, try slots or not.
-/

namespace BlockSuite

open BlockSuite.Action (Keeps KeepsAt Meets Contract)

/-- Where nothing has been collected, nothing is collected from one context to another. -/
def Context.StaysClear (c c' : Context) : Prop := c.softErrors = [] → c'.softErrors = []

lemma Context.staysClear_lenient : Context.Lenient Context.StaysClear where
  refl _ h := h
  trans _ _ _ h h' hc := h' (h hc)
  records _ _ h := h
  bindings _ _ h := h
  currentStep _ _ h := h
  frame _ _ h := h

/-- The contract of what never fails. -/
def unfailing : Contract Context := ⟨fun _ _ => True, fun _ => False⟩

/-- Hooks that do not fail one by one do not fail together. -/
lemma Hooks.runAll_not_failed {α : Type} {hooks : List Hooks} {event : Hooks → Option α}
    {call : α → Run Unit} (h : ∀ k ∈ hooks, ∀ x, event k = some x → Meets unfailing (call x))
    {c c' : Context} {f : Failure} :
    Hooks.runAll hooks (fun k => (event k).map call) c ≠ (.failed f, c') := by
  have hall := Hooks.runAll_meets (fun _ => trivial) (fun _ _ _ _ _ => trivial) h
  exact fun hf => (hall.failed hf).2

namespace Machine

open BlockSuite.Context (StaysClear staysClear_lenient)

variable {m : Machine} {a b : Start} {steps : List Step} {c c' : Context} {rs : List StepResult}
  {f f' : Frame} {e : Failure}

/-! ### Steps without failures -/

/-- A step does not come to a result that tells of a failure. -/
def Start.Faultless (m : Machine) (a : Start) : Prop :=
  ∀ r c, m.conclude (a.inner m) a.nested a.step a.before = (.done r, c) →
    r.status ≠ .failed ∧ r.status ≠ .error

/-- No step that is run for a list comes to a result that tells of a failure. -/
def Faultless (m : Machine) (steps : List Step) (c : Context) : Prop :=
  ∀ a, m.RunsFor maxDepth steps c a → a.Faultless m

lemma Start.Faultless.not_fatal (h : a.Faultless m) {r : StepResult}
    (hr : m.conclude (a.inner m) a.nested a.step a.before = (.done r, c)) : r.isFatal = false := by
  obtain ⟨hfailed, herror⟩ := h r c hr
  cases hs : r.status with
  | failed => exact absurd hs hfailed
  | error => exact absurd hs herror
  | passed => simp [StepResult.isFatal, hs]
  | skipped => simp [StepResult.isFatal, hs]

lemma Start.Faultless.fine (h : a.Faultless m) {r : StepResult}
    (hr : m.runWith (a.layers + 1) a.nested a.step a.before = (.done r, c)) :
    r.isFatal = false := by
  obtain ⟨r₀, c₁, hconclude, hreport⟩ := Action.bind_done hr
  obtain ⟨v, rfl⟩ := report_done hreport
  have hfatal : r₀.isFatal = false := h.not_fatal hconclude
  exact hfatal

/-- The hooks around steps collect nothing. -/
structure CollectsNothing (m : Machine) : Prop where
  beforeStep : ∀ h ∈ m.hooks, ∀ f, h.beforeStep = some f → ∀ step, Keeps StaysClear (f step)
  afterStep : ∀ h ∈ m.hooks, ∀ f, h.afterStep = some f → ∀ step r, Keeps StaysClear (f step r)

/-- What a run comes to does not fail, and the run collects nothing or gets no further than to a
result that skips. -/
structure Sound (x : Run StepResult) (c : Context) : Prop where
  fine : ∀ r c', x c = (.done r, c') → r.isFatal = false
  clear : KeepsAt StaysClear x c ∨ Interrupts x c

/-! ### Interruptions -/

/-- Where no step inside fails, a step is interrupted by any step inside it that is: try slots only
keep failures back. -/
lemma Contains.interrupted (h : m.Contains a b)
    (hfine : ∀ z, m.Contains a z → ∀ r c', a.inner m z.nested z.step z.before = (.done r, c') →
      r.isFatal = false)
    (hb : Interrupts (a.inner m b.nested b.step) b.before) : a.Interrupted m := by
  have hinterrupted : b.Interrupted m := by
    rw [Start.inner, h.layers] at hb
    exact hb
  cases h with
  | input layers nested announced known asks =>
    exact Inside.interrupted (.input layers nested announced known asks) hinterrupted
  | @body s f k i steps c layers nested answered opened started =>
    cases kept : (s.work a.step).tries k with
    | false =>
      exact Inside.interrupted (.body layers nested answered opened kept started) hinterrupted
    | true =>
      have ha : (a.inner m).Yields StepResult.Accounts := m.runWith_accounts a.layers
      refine Start.interrupted_of fun v f' hdone => ?_
      obtain ⟨answer, f₁, hconsult, hdone⟩ := Action.bind_done hdone
      cases answered.symm.trans hconsult
      rw [respond, perform_eq] at hdone
      have hhalts := started.halts hinterrupted layers nested
      generalize hw : s.work a.step = w at opened kept hdone
      cases opened with
      | attempt handler errorBinding =>
        obtain ⟨_, f₂, htrial, -⟩ := Action.bind_done hdone
        obtain ⟨rs, f₃, htried, htrial⟩ := Action.bind_done htrial
        obtain ⟨hlist, -⟩ := Frame.inContext_eq htried
        have hcalm (r : StepResult) (hr : r ∈ rs) : r.isFatal = false := by
          have hresult : ResultOf (a.inner m) steps f.context r := ⟨rs, _, hlist, hr⟩
          obtain ⟨j, x, cx, cx', hstarted, hran⟩ := hresult.exists_startsAt
          have hopens : Opens (a.inner m) f (s.work a.step) 0 steps f.context := by
            rw [hw]
            exact .attempt _ _ _
          have hinside : m.Contains a ⟨b.layers, false, x, cx⟩ :=
            .body layers rfl answered hopens hstarted
          exact hfine _ hinside r cx' hran
        have hnone : rs.find? (·.isFatal) = none := by
          rw [List.find?_eq_none]
          intro r hr
          rw [hcalm r hr]
          exact Bool.false_ne_true
        simp only [hnone] at htrial
        have hadopted := (adopt_cases (ended_of_runList hlist) (forall_runList ha hlist) htrial).2
        obtain ⟨pre, r, rfl, -, hbreaks⟩ := hhalts rs _ hlist
        have hr := hadopted.breaks r (by simp)
        rw [hbreaks] at hr
        cases hr
      | pass => cases kept
      | handler => cases kept
      | frame => cases kept

/-- What a block collects marks the result of its step. -/
lemma invoke_collected {block : Block} {params : Dict Value} {answer : Answer}
    (h : invoke block params f = (.done answer, f')) (hf : f.context.softErrors = []) :
    ∃ c, block.executor params f.context = (.done answer, c) ∧
      (c.softErrors ≠ [] → f'.result.status = .failed) := by
  rw [invoke, Action.bind_of_done (Action.get_run f)] at h
  obtain ⟨answer', f₁, hran, h⟩ := Action.bind_done h
  obtain ⟨_, f₂, hmark, h⟩ := Action.bind_done h
  cases h
  refine ⟨f₁.context, (Frame.inContext_eq hran).1, fun hcollected => ?_⟩
  have hlonger : f.context.softErrors.length < f₁.context.softErrors.length := by
    rw [hf]
    exact List.length_pos_iff.mpr hcollected
  rw [markSoft, Action.bind_of_done (Action.get_run f₁), if_pos hlonger] at hmark
  cases hmark
  rfl

/-- A step that comes to a value keeps the mark that its block has left on the result. -/
lemma respond_status {run : Runner} {step : Step} {answer : Answer} {v : Value}
    (ha : run.Yields StepResult.Accounts) (hf : f.result.returned = false)
    (h : respond run step answer f = (.done v, f')) : f'.result.status = f.result.status := by
  cases answer with
  | value w =>
    cases h
    rfl
  | signal s =>
    rw [respond, perform_eq] at h
    exact (carryOut_continues ha ha hf h).status

/-- Where the result of a step tells of no failure, its block collects nothing, unless the step is
interrupted. -/
lemma Start.Faultless.executor (h : a.Faultless m) (hgoes : ¬a.Interrupted m) {block : Block}
    {params : Dict Value} (announced : m.announce a.nested a.step a.fresh = (.done (), f))
    (prepared : m.prepare (a.inner m) a.step f = (.done (block, params), f')) :
    KeepsAt StaysClear (block.executor params) f'.context := by
  have ha : (a.inner m).Yields StepResult.Accounts := m.runWith_accounts a.layers
  intro o c hran _ hclear
  by_contra hcollected
  refine hgoes (Start.interrupted_of fun v g hdone => ?_)
  obtain ⟨answer, f₁, hconsult, hrespond⟩ := Action.bind_done hdone
  have hreturned := (consult_consulted ha ha hconsult).returned
  rw [consult, Action.bind_of_done announced, Action.bind_of_done prepared] at hconsult
  obtain ⟨c₁, hran₁, hmark⟩ := invoke_collected hconsult hclear
  cases hran.symm.trans hran₁
  have hstatus : g.result.status = .failed :=
    (respond_status ha hreturned hrespond).trans (hmark hcollected)
  exact (h _ _ (conclude_of_done hdone)).1 hstatus

/-! ### What watches steps -/

/-- What a machine writes itself collects nothing. -/
lemma staysClear_harmless : Harmless (.keeping StaysClear) where
  refl := staysClear_lenient.refl
  trans := staysClear_lenient.trans
  records _ _ h := h
  fault _ := trivial
  bindings := staysClear_lenient.bindings
  currentStep := staysClear_lenient.currentStep
  procedures _ _ h := h
  frame := staysClear_lenient.frame
  error _ _ _ := trivial

/-- Where the result of a step tells of no failure, and hooks collect nothing, the step does not
either but for the steps inside it, unless it is interrupted. -/
lemma Start.Faultless.steady (h : a.Faultless m) (hm : m.CollectsNothing)
    (hgoes : ¬a.Interrupted m) : a.Steady m StaysClear where
  announce o f' ran ho :=
    (announce_keeps staysClear_harmless hm.beforeStep a.nested a.step).keeps _ o f' ran ho
  executor _ _ _ _ announced prepared := h.executor hgoes announced prepared
  define _ f name p _ _ o c ran ho :=
    (staysClear_harmless.defineLogged name p).keeps f.context o c ran ho
  report r c hr := by
    have hnone : m.artifactHookFor a.step r = none := by
      rw [artifactHookFor, h.not_fatal hr]
      rfl
    have hshown : m.attachArtifact a.step r c = (.done r, c) := by
      simp only [attachArtifact, hnone]
      rfl
    intro o c' ran ho
    rw [report, Action.bind_of_done hshown] at ran
    have hobserve : Keeps StaysClear (m.observe a.nested a.step r) :=
      (staysClear_harmless.toJournalFree.observe hm.afterStep a.nested a.step r).keeps
    rcases Action.bind_cases ran with ⟨_, c₁, hran, hend⟩ | ⟨o', hran, hb⟩
    · cases hend
      exact hobserve _ _ _ hran (by simp)
    · exact hobserve _ _ _ hran (hb.ne_exhausted ho)

/-! ### Lists without failures -/

lemma sound_exhaust (c : Context) : Sound Action.exhaust c where
  fine r c' h := by cases h
  clear := .inl (Elementary.exhaust.keepsAt staysClear_lenient c)

/-- A step without failures collects nothing where the steps right inside it do not, or it is
interrupted where one of them is. -/
lemma Start.Faultless.sound (h : a.Faultless m) (hm : m.CollectsNothing)
    (hinner : ∀ b, m.Contains a b → Sound (a.inner m b.nested b.step) b.before) :
    Sound (m.runWith (a.layers + 1) a.nested a.step) a.before where
  fine _ _ hran := h.fine hran
  clear := by
    by_cases hgoes : a.Interrupted m
    · exact .inr hgoes
    · refine .inl ((h.steady hm hgoes).keepsAt staysClear_lenient fun b hb => ?_)
      rcases (hinner b hb).clear with hkeeps | hinterrupts
      · exact hkeeps
      · exact absurd (hb.interrupted (fun z hz => (hinner z hz).fine) hinterrupts) hgoes

/-- A list of sound steps that all neither fail nor skip collects nothing. -/
lemma runList_staysClear {run : Step → Run StepResult}
    (h : ∀ i x cx, StartsAt run steps c i x cx → Sound (run x) cx)
    (hrun : runList run steps c = (.done rs, c')) (hcalm : ∀ r ∈ rs, r.breaks = false) :
    StaysClear c c' := by
  induction steps generalizing c rs with
  | nil =>
    cases hrun
    exact id
  | cons step rest ih =>
    rw [runList_cons] at hrun
    obtain ⟨r, c₁, hran, hrun⟩ := Action.bind_done hrun
    have hfirst (hr : r.breaks = false) : StaysClear c c₁ := by
      rcases (h 0 step c (.here step rest c)).clear with hkeeps | hinterrupts
      · exact hkeeps _ _ hran (by simp)
      · rw [hinterrupts r c₁ hran] at hr
        cases hr
    cases hstops : r.stops with
    | true =>
      rw [if_pos hstops] at hrun
      cases hrun
      exact hfirst (hcalm r List.mem_cons_self)
    | false =>
      rw [if_neg (by simp [hstops])] at hrun
      obtain ⟨rs', c₂, hrest, hrun⟩ := Action.bind_done hrun
      cases hrun
      refine staysClear_lenient.trans _ _ _ (hfirst (hcalm r List.mem_cons_self)) ?_
      exact ih (fun i x cx hx => h (i + 1) x cx (.later hran hstops hx)) hrest
        fun r hr => hcalm r (List.mem_cons_of_mem _ hr)

namespace Faultless

/-- Nothing is run for an empty list. -/
lemma nil (m : Machine) (c : Context) : m.Faultless [] c := by
  rintro a ⟨x, i, -, -, started, -⟩
  cases started

/-- A list of one step that has no steps inside it tells of no failure if that step does not. -/
lemma singleton {step : Step} (hflat : m.Flat step)
    (h : Start.Faultless m ⟨maxDepth - 1, false, step, c⟩) : m.Faultless [step] c := by
  rintro a ⟨⟨n, nested, x, cx⟩, i, hn, rfl, started, hxa⟩
  obtain rfl : n = maxDepth - 1 := by
    change maxDepth = n + 1 at hn
    omega
  cases started with
  | here =>
    rcases Relation.ReflTransGen.cases_head hxa with rfl | ⟨y, hy, -⟩
    · exact h
    · exact absurd hy hflat.not_contains
  | later _ _ next => cases next

/-- No step of a list without failures fails. -/
lemma not_fatal (h : m.Faultless steps c) (hrun : m.runSteps steps c = (.done rs, c')) :
    ∀ r ∈ rs, r.isFatal = false := by
  intro r hr
  have hresult : ResultOf (m.runWith maxDepth) steps c r := ⟨rs, c', hrun, hr⟩
  obtain ⟨i, x, cx, cx', started, ran⟩ := hresult.exists_startsAt
  exact (h ⟨maxDepth - 1, false, x, cx⟩ ⟨_, i, rfl, rfl, started, .refl⟩).fine ran

/-- **Where nothing fails, nothing is collected**: a list without failures none of whose steps skips
collects nothing, if the hooks around steps do not. -/
theorem staysClear (h : m.Faultless steps c) (hm : m.CollectsNothing)
    (hrun : m.runSteps steps c = (.done rs, c')) (hcalm : ∀ r ∈ rs, r.breaks = false) :
    StaysClear c c' := by
  refine runList_staysClear (fun i x cx started => ?_) hrun hcalm
  exact started.of_inside (P := fun n nested x c => Sound (m.runWith n nested x) c)
    (fun _ ha hinner => ha.sound hm hinner) (fun _ _ => sound_exhaust) h

/-- **Where nothing fails, no result is lost**, if what executors and the hooks before steps raise
can be recorded, and the hooks behind steps do not fail. -/
theorem not_failed (h : m.Faultless steps c) (ht : m.Tells)
    (hafter : ∀ k ∈ m.hooks, ∀ x, k.afterStep = some x → ∀ step r, Meets unfailing (x step r)) :
    m.runSteps steps c ≠ (.failed e, c') := by
  intro hlost
  obtain ⟨ran, step, rest, rs, c₁, r, c₂, rfl, hchain, hcalm, hconclude, hunlogged⟩ :=
    (runSteps_failed_iff ht).mp ⟨e, c', hlost⟩
  let a : Start := ⟨maxDepth - 1, false, step, c₁⟩
  have hran : m.RunsFor maxDepth (ran ++ step :: rest) c a :=
    ⟨a, ran.length, rfl, rfl, .of_chain hchain hcalm step rest, .refl⟩
  cases hunlogged with
  | artifact asked raised unwritten =>
    rw [artifactHookFor, (h a hran).not_fatal hconclude] at asked
    cases asked
  | @observe r' _ _ _ _ _ _ shown raised unwritten =>
    exact Hooks.runAll_not_failed (fun k hk x hx => hafter k hk x hx step r') raised

end Faultless

end Machine

end BlockSuite
