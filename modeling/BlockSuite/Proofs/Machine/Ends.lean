import BlockSuite.Proofs.Machine.Contained

/-!
What steps leave behind. Where a list of steps comes to its end, so do all steps that are run for
it, and what the machine and all that is attached to it keep is kept from the end of each of them to
the end of the list.
-/

namespace BlockSuite.Machine

open BlockSuite.Frame (inContext note)
open BlockSuite.Action (Keeps Meets)

/-- A run ends, and what it leaves is related to some context behind it. -/
def EndsIn {α : Type} (R : Context → Context → Prop) (x : Run α) (c c' : Context) : Prop :=
  ∃ o c₁, x c = (o, c₁) ∧ o ≠ .exhausted ∧ R c₁ c'

variable {m : Machine} {run : Runner} {steps : List Step} {step : Step} {f f' : Frame}
  {c c' : Context} {R : Context → Context → Prop} (hR : Harmless (.keeping R))
include hR

lemma EndsIn.trans {α : Type} {x : Run α} {c'' : Context} (h : EndsIn R x c c') (h' : R c' c'') :
    EndsIn R x c c'' := by
  obtain ⟨o, c₁, hx, ho, hc⟩ := h
  exact ⟨o, c₁, hx, ho, hR.trans _ _ _ hc h'⟩

section Run

variable (hrun : ∀ nested s, Keeps R (run nested s))
include hrun

lemma StartsAt.ends {i : Nat} {x : Step} {cx : Context} (h : StartsAt (run false) steps c i x cx)
    {o : Outcome (List StepResult)} (hl : Machine.runList (run false) steps c = (o, c'))
    (ho : o ≠ .exhausted) : EndsIn R (run false x) cx c' := by
  induction h generalizing o with
  | here step rest c =>
    rw [runList_cons] at hl
    rcases Action.bind_cases hl with ⟨r, c₂, h₂, hl⟩ | ⟨o', h₂, hb⟩
    · refine ⟨.done r, c₂, h₂, by simp, ?_⟩
      split at hl
      · cases hl
        exact hR.refl _
      · have hrest := (hR.chain (fun s => (hrun false s).meets) rest).keeps
        obtain ⟨o', h₃, hv⟩ := Action.bind_valued (fun _ _ => ⟨_, rfl⟩) hl
        exact hrest _ _ _ h₃ (hv.ne_exhausted ho)
    · exact ⟨o', _, h₂, hb.ne_exhausted ho, hR.refl _⟩
  | later head hr next ih =>
    rw [runList_cons, Action.bind_of_done head, if_neg (by simp [hr])] at hl
    obtain ⟨o', h₃, hv⟩ := Action.bind_valued (fun _ _ => ⟨_, rfl⟩) hl
    exact ih h₃ (hv.ne_exhausted ho)

lemma Asks.ends {b : Block} {names : List String} {x : Step} {cx : Context}
    (h : Asks run b step names f x cx) {o : Outcome (Dict Value)}
    (hall : resolveAll run b step names f = (o, f')) (ho : o ≠ .exhausted) :
    EndsIn R (run true x) cx f'.context := by
  have hkeeps := (hR.resolveAll (fun nested s => bears_keeping (hrun nested s)) b step)
  induction h generalizing o with
  | @here name rest f x bound =>
    have hinput {o : Outcome Value} {f₁ : Frame} (h : resolveInput run b step name f = (o, f₁))
        (ho : o ≠ .exhausted) : EndsIn R (run true x) f.context f₁.context := by
      simp only [resolveInput, bound] at h
      rcases Action.bind_cases h with ⟨r, f₂, h₂, h⟩ | ⟨o', h₂, hb⟩
      · refine ⟨.done r, f₂.context, (Frame.inContext_eq h₂).1, by simp, ?_⟩
        rw [Action.bind_of_done (Frame.note_run _ f₂)] at h
        split at h <;> cases h <;> exact hR.refl _
      · exact ⟨o', _, (Frame.inContext_eq h₂).1, hb.ne_exhausted ho, hR.refl _⟩
    rcases Action.bind_cases hall with ⟨v, f₁, h₁, hall⟩ | ⟨o', h₁, hb⟩
    · obtain ⟨o', h₂, hv⟩ := Action.bind_valued (fun _ _ => ⟨_, rfl⟩) hall
      exact (hinput h₁ (by simp)).trans hR
        ((hkeeps rest).keeps _ _ _ h₂ (hv.ne_exhausted ho))
    · exact hinput h₁ (hb.ne_exhausted ho)
  | later given next ih =>
    rw [resolveAll, Action.bind_of_done given] at hall
    obtain ⟨o', h₂, hv⟩ := Action.bind_valued (fun _ _ => ⟨_, rfl⟩) hall
    exact ih h₂ (hv.ne_exhausted ho)

omit hrun in
/-- A body ends with its list. -/
lemma runBody_ends {o : Outcome Unit} (h : runBody run steps f = (o, f')) (ho : o ≠ .exhausted) :
    EndsIn R (runList (run false) steps) f.context f'.context := by
  rcases Action.bind_cases h with ⟨rs, f₁, h₁, h⟩ | ⟨o', h₁, hb⟩
  · have hadopt : Meets (inFrame (.keeping R)) (Frame.adopt rs) :=
      hR.adopt fun _ _ _ _ _ => trivial
    exact ⟨_, _, (Frame.inContext_eq h₁).1, by simp, hadopt.keeps _ _ _ h ho⟩
  · exact ⟨_, _, (Frame.inContext_eq h₁).1, hb.ne_exhausted ho, hR.refl _⟩

lemma Pass.ends {starts : List (Run Unit)} {k : Nat}
    (hs : ∀ x ∈ starts, Meets (.keeping R) x) (h : Pass run steps starts f k c)
    {o : Outcome Unit} (hp : runPasses (runBody run steps) starts f = (o, f'))
    (ho : o ≠ .exhausted) : EndsIn R (runList (run false) steps) c f'.context := by
  have hbears (nested : Bool) (s : Step) := bears_keeping (hrun nested s)
  induction h generalizing o with
  | @here start rest f f₁ begins =>
    rw [runPasses, Action.bind_of_done begins] at hp
    rcases Action.bind_cases hp with ⟨_, f₂, h₂, hp⟩ | ⟨o', h₂, hb⟩
    · refine (runBody_ends hR h₂ (by simp)).trans hR ?_
      rw [Action.bind_of_done (hasReturned_run f₂)] at hp
      split at hp
      · have hrest := hR.runPasses hbears (fun x hx => hs x (List.mem_cons_of_mem _ hx)) steps
        exact hrest.keeps _ _ _ hp ho
      · cases hp
        exact hR.refl _
    · exact runBody_ends hR h₂ (hb.ne_exhausted ho)
  | later begins body stays next ih =>
    rw [runPasses, Action.bind_of_done begins, Action.bind_of_done body,
      Action.bind_of_done (hasReturned_run _), stays] at hp
    exact ih (fun x hx => hs x (List.mem_cons_of_mem _ hx)) hp ho

lemma runTrial_ends {tries handler : List Step} {errorBinding : Option String} {k : Nat}
    (h : Opens run f (.trial tries handler errorBinding) k steps c) {o : Outcome Unit}
    (ht : runTrial run tries handler errorBinding f = (o, f')) (ho : o ≠ .exhausted) :
    EndsIn R (runList (run false) steps) c f'.context := by
  have hbears (nested : Bool) (s : Step) := bears_keeping (hrun nested s)
  cases h with
  | attempt =>
    rcases runTrial_cases ht with ⟨o', hl, -, hb⟩ | ⟨rs, c₁, hl, h⟩
    · exact ⟨o', _, hl, hb.ne_exhausted ho, hR.refl _⟩
    refine ⟨_, c₁, hl, by simp, ?_⟩
    rcases h with ⟨-, h⟩ | ⟨r, -, h⟩
    · have hadopt : Meets (inFrame (.keeping R)) (Frame.adopt rs) :=
        hR.adopt fun _ _ _ _ _ => trivial
      exact hadopt.keeps _ _ _ h ho
    · have hrest := hR.inFrame_bind (inContext_meets (hR.bindCaught errorBinding r)) fun _ _ =>
        hR.runBody hbears handler
      exact hrest.keeps _ _ _ h ho
  | handler attempt fails begins =>
    rcases runTrial_cases ht with ⟨o', hl, -, hb⟩ | ⟨rs, c₁, hl, h⟩
    · rw [attempt] at hl
      cases hl
      cases hb
    rw [attempt] at hl
    cases hl
    rcases h with ⟨hnone, -⟩ | ⟨r, hr, h⟩
    · rw [hnone] at fails
      cases fails
    · rw [hr] at fails
      cases fails
      rw [Action.bind_of_done (Frame.inContext_run (f := ⟨_, _⟩) begins)] at h
      exact runBody_ends hR h ho

variable (hclose : ∀ c n, R c { c with callDepth := n })
include hclose

omit hrun in
lemma runFrame_ends {expectReturn : Bool} {bindings : Dict Value} {o : Outcome Value}
    (hbind : bindEach bindings f.context = (.done (), c))
    (h : runFrame run steps expectReturn bindings f = (o, f')) (ho : o ≠ .exhausted) :
    EndsIn R (runList (run false) steps) (openFrame c) f'.context := by
  have hclosed (before : Dict Value) (names : List String) (c : Context) :
      R c (closeFrame before names c) :=
    hR.trans _ _ _ (hclose c (c.callDepth - 1))
      (hR.bindings { c with callDepth := c.callDepth - 1 } _)
  cases runFrame_cases h with
  | unbound binds hb =>
    rw [hbind] at binds
    cases binds
    cases hb
  | unfinished binds body => exact absurd rfl ho
  | failed binds body =>
    rw [hbind] at binds
    cases binds
    exact ⟨_, _, body, by simp, hclosed _ _ _⟩
  | ended binds body raises =>
    rw [hbind] at binds
    cases binds
    cases frameResult_same raises
    exact ⟨_, _, body, by simp, hclosed _ _ _⟩

/-- **Work that ends has run the lists that it has opened to their end.** -/
lemma Opens.ends {s : Signal} {k : Nat} (h : Opens run f (s.work step) k steps c)
    {o : Outcome Value} (hw : carryOut run (s.work step) f = (o, f')) (ho : o ≠ .exhausted) :
    EndsIn R (runList (run false) steps) c f'.context := by
  generalize hs : s.work step = w at h hw
  cases w with
  | passes starts steps =>
    cases h with
    | pass hp =>
      obtain ⟨o', hw, hv⟩ := Action.bind_valued (fun _ f => ⟨_, bodyOutput_run f⟩) hw
      exact hp.ends hR hrun (hR.work_starts hs) hw (hv.ne_exhausted ho)
  | trial tries handler errorBinding =>
    obtain ⟨o', hw, hv⟩ := Action.bind_valued (fun _ f => ⟨_, bodyOutput_run f⟩) hw
    exact runTrial_ends hR hrun h hw (hv.ne_exhausted ho)
  | frame args steps expectReturn =>
    cases h with
    | frame begins =>
      obtain ⟨bindings, c₁, hargs, hbind⟩ := Action.bind_done begins
      obtain ⟨_, c₂, hbind, heq⟩ := Action.bind_done hbind
      cases heq
      rw [carryOut, Action.bind_of_done (Frame.inContext_run hargs)] at hw
      exact runFrame_ends hR hclose hbind hw ho
  | leave v => cases h
  | define name procedure => cases h

end Run

variable (hm : m.Respects R)
include hm

/-! ### The parts of a step that ends -/

section Parts

variable {a b : Start} {o : Outcome StepResult}
  (ha : m.runWith (a.layers + 1) a.nested a.step a.before = (o, c')) (ho : o ≠ .exhausted)
include ha ho

lemma Start.evaluate_ends : ∃ (o : Outcome Value) (f : Frame),
    m.evaluate (a.inner m) a.nested a.step a.fresh = (o, f) ∧ o ≠ .exhausted ∧
      R f.context c' := by
  have hconclude {o : Outcome StepResult} {c₁ : Context}
      (h : m.conclude (a.inner m) a.nested a.step a.before = (o, c₁)) (ho : o ≠ .exhausted)
      (hc : R c₁ c') : ∃ (o : Outcome Value) (f : Frame),
        m.evaluate (a.inner m) a.nested a.step a.fresh = (o, f) ∧ o ≠ .exhausted ∧
          R f.context c' := by
    cases conclude_cases h with
    | value ran => exact ⟨_, _, ran, by simp, hR.trans _ _ _ (hR.currentStep _ _) hc⟩
    | settled ran record => exact ⟨_, _, ran, by simp, hR.trans _ _ _ (hR.currentStep _ _) hc⟩
    | unsettled ran record => exact ⟨_, _, ran, by simp, hR.trans _ _ _ (hR.currentStep _ _) hc⟩
    | unfinished ran => exact absurd rfl ho
  rcases Action.bind_cases ha with ⟨r, c₁, h₁, ha⟩ | ⟨o', h₁, hb⟩
  · exact hconclude h₁ (by simp) ((hR.report hm.watched.shown a.nested a.step r).keeps _ _ _ ha ho)
  · exact hconclude h₁ (hb.ne_exhausted ho) (hR.refl _)

lemma Start.consult_ends : ∃ (o : Outcome Answer) (f : Frame),
    m.consult (a.inner m) a.nested a.step a.fresh = (o, f) ∧ o ≠ .exhausted ∧ R f.context c' := by
  obtain ⟨o, f, h, ho, hf⟩ := evaluate_ends hR hm ha ho
  have hrun (nested : Bool) (s : Step) : Keeps R (a.inner m nested s) :=
    runWith_keeps hR hm a.layers nested s
  rcases Action.bind_cases h with ⟨answer, f₁, h₁, h⟩ | ⟨o', h₁, hb⟩
  · have hrespond := (respond_keeps hR hrun a.step answer).keeps _ _ _ h ho
    exact ⟨_, f₁, h₁, by simp, hR.trans _ _ _ hrespond hf⟩
  · exact ⟨_, f, h₁, hb.ne_exhausted ho, hf⟩

lemma Start.prepare_ends (announced : m.announce a.nested a.step a.fresh = (.done (), f)) :
    ∃ (o : Outcome (Block × Dict Value)) (f' : Frame),
      m.prepare (a.inner m) a.step f = (o, f') ∧ o ≠ .exhausted ∧ R f'.context c' := by
  obtain ⟨o, f₁, h, ho, hf⟩ := consult_ends hR hm ha ho
  rw [consult, Action.bind_of_done announced] at h
  rcases Action.bind_cases h with ⟨p, f₂, h₂, h⟩ | ⟨o', h₂, hb⟩
  · have hinvoke := invoke_keeps hR (hm.executor a.step.type p.1 (prepare_lookup h₂) p.2)
    exact ⟨_, f₂, h₂, by simp, hR.trans _ _ _ (hinvoke.keeps _ _ _ h ho) hf⟩
  · exact ⟨_, f₁, h₂, hb.ne_exhausted ho, hf⟩

/-- Where a step ends, so does the executor of its block. -/
lemma Start.executor_ends {block : Block} {params : Dict Value}
    (announced : m.announce a.nested a.step a.fresh = (.done (), f))
    (prepared : m.prepare (a.inner m) a.step f = (.done (block, params), f')) :
    EndsIn R (block.executor params) f'.context c' := by
  obtain ⟨o, f₁, h, ho, hf⟩ := consult_ends hR hm ha ho
  rw [consult, Action.bind_of_done announced, Action.bind_of_done prepared] at h
  change invoke block params f' = _ at h
  rw [invoke, Action.bind_of_done (Action.get_run f')] at h
  rcases Action.bind_cases h with ⟨answer, f₂, h₂, h⟩ | ⟨o', h₂, hb⟩
  · obtain ⟨r, hmark⟩ := markSoft_run f'.context.softErrors.length f₂
    rw [Action.bind_of_done hmark] at h
    cases h
    exact ⟨_, _, (Frame.inContext_eq h₂).1, by simp, hf⟩
  · exact ⟨_, _, (Frame.inContext_eq h₂).1, hb.ne_exhausted ho, hf⟩

/-- Where a step ends, so do the steps right inside it. -/
lemma Contains.ends (hclose : ∀ c n, R c { c with callDepth := n }) (h : m.Contains a b) :
    EndsIn R (m.runWith (b.layers + 1) b.nested b.step) b.before c' := by
  have hrun (nested : Bool) (s : Step) : Keeps R (a.inner m nested s) :=
    runWith_keeps hR hm a.layers nested s
  cases h with
  | @input f block layers nested announced known asks =>
    obtain ⟨o, f₁, h, ho, hf⟩ := a.prepare_ends hR hm ha ho announced
    have hresolve {o : Outcome (Dict Value)} {f₁ : Frame}
        (h : resolveAll (a.inner m) block a.step (inputNames block a.step) f = (o, f₁))
        (ho : o ≠ .exhausted) :
        EndsIn R (m.runWith (b.layers + 1) b.nested b.step) b.before f₁.context := by
      have hends := asks.ends hR hrun h ho
      rwa [Start.inner, layers, ← nested] at hends
    simp only [prepare, known] at h
    rcases Action.bind_cases h with ⟨params, f₂, h₂, h⟩ | ⟨o', h₂, hb⟩
    · cases h
      exact (hresolve h₂ (by simp)).trans hR (hR.trans _ _ _ (hR.currentStep _ _) hf)
    · exact (hresolve h₂ (hb.ne_exhausted ho)).trans hR hf
  | body layers nested answered opened started =>
    obtain ⟨o, f₁, h, ho, hf⟩ := a.evaluate_ends hR hm ha ho
    rw [evaluate, Action.bind_of_done answered, respond, perform_eq] at h
    obtain ⟨o₁, c₁, hl, ho₁, hc₁⟩ := opened.ends hR hrun hclose h ho
    have hends := (started.ends hR hrun hl ho₁).trans hR (hR.trans _ _ _ hc₁ hf)
    rwa [Start.inner, layers, ← nested] at hends

end Parts

/-- **Where a list ends, so does every step that is run for it**, and what everything keeps is kept
from the end of the step to that of the list. -/
theorem RunsFor.ends (hclose : ∀ c n, R c { c with callDepth := n }) {layers : Nat} {b : Start}
    (h : m.RunsFor layers steps c b) {o : Outcome (List StepResult)}
    (hl : runList (m.runWith layers false) steps c = (o, c'))
    (ho : o ≠ .exhausted) : EndsIn R (m.runWith (b.layers + 1) b.nested b.step) b.before c' := by
  obtain ⟨a, i, rfl, hnested, started, hab⟩ := h
  have ha := started.ends hR (fun n s => runWith_keeps hR hm _ n s) hl ho
  rw [← hnested] at ha
  clear started
  induction hab with
  | refl => exact ha
  | tail _ hbc ih =>
    obtain ⟨o₁, c₁, h₁, ho₁, hc₁⟩ := ih
    exact (hbc.ends hR hm h₁ ho₁ hclose).trans hR hc₁

end BlockSuite.Machine
