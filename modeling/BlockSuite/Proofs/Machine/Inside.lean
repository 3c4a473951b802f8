import Mathlib.Logic.Relation
import BlockSuite.Proofs.Machine.Activation
import BlockSuite.Proofs.Machine.Started

/-!
Steps that are run inside a step: the nested steps that give it its inputs, and the steps of the
lists that its signal opens. Where one of them fails or skips, or never comes to its result, so
does the step around it, unless the inner step is in a try slot. What happens outside of try slots,
at any depth, is therefore seen in the lists that a suite consists of.
-/

namespace BlockSuite

/-- Whether a list that some work opens is a try slot. -/
def Work.tries : Work → Nat → Bool
  | .trial .., 0 => true
  | _, _ => false

namespace Machine

open BlockSuite.Frame (inContext note)

/-- A run gets no further than to a result that fails or skips. -/
def Interrupts (x : Run StepResult) (c : Context) : Prop :=
  ∀ r c', x c = (.done r, c') → r.breaks = true

/-- The nested step that is run for one of some inputs, and the context it is run in. -/
inductive Asks (run : Runner) (b : Block) (step : Step) : List String → Frame → Step → Context →
    Prop
  | here {name : String} {rest : List String} {f : Frame} {x : Step}
    (bound : Dict.get? step.params name = some (.nested x)) :
    Asks run b step (name :: rest) f x f.context
  | later {name : String} {rest : List String} {f f' : Frame} {v : Value} {x : Step} {c : Context}
    (given : resolveInput run b step name f = (.done v, f')) (next : Asks run b step rest f' x c) :
    Asks run b step (name :: rest) f x c

variable {run : Runner} {steps : List Step} {f : Frame} {c : Context}

/-! ### Where a step is interrupted -/

lemma Asks.not_done {b : Block} {step x : Step} {names : List String}
    (h : Asks run b step names f x c) (hx : Interrupts (run true x) c)
    {vs : Dict Value} {f' : Frame} : resolveAll run b step names f ≠ (.done vs, f') := by
  intro hdone
  induction h generalizing vs f' with
  | @here name rest f x bound =>
    obtain ⟨v, f₁, h₁, -⟩ := Action.bind_done hdone
    simp only [resolveInput, bound] at h₁
    obtain ⟨r, f₂, h₂, h₁⟩ := Action.bind_done h₁
    have hrun := (Frame.inContext_eq h₂).1
    have hb : (r.isFatal || r.isSkipped) = true := hx r _ hrun
    rw [Action.bind_of_done (Frame.note_run _ f₂), if_pos hb] at h₁
    cases h₁
  | later given next ih =>
    obtain ⟨v, f₁, h₁, hdone⟩ := Action.bind_done hdone
    rw [given] at h₁
    cases h₁
    obtain ⟨vs', f₂, h₂, -⟩ := Action.bind_done hdone
    exact ih hx h₂

/-- A list of steps that one of them interrupts ends with that one. -/
lemma StartsAt.interrupted {run : Step → Run StepResult} {i : Nat} {x : Step} {cx : Context}
    (h : StartsAt run steps c i x cx) (hx : Interrupts (run x) cx) {rs : List StepResult}
    {c' : Context} (hrun : Machine.runList run steps c = (.done rs, c')) :
    ∃ pre r, rs = pre ++ [r] ∧ Calm pre ∧ r.breaks = true := by
  induction h generalizing rs c' with
  | here step rest c =>
    rw [runList_cons] at hrun
    obtain ⟨r, c₁, h₁, hrun⟩ := Action.bind_done hrun
    have hb := hx r c₁ h₁
    rw [if_pos (StepResult.stops_of_breaks hb)] at hrun
    cases hrun
    exact ⟨[], r, rfl, .nil, hb⟩
  | later head hr next ih =>
    rw [runList_cons, Action.bind_of_done head, if_neg (by simp [hr])] at hrun
    obtain ⟨rs', c₁, h₁, hrun⟩ := Action.bind_done hrun
    cases hrun
    obtain ⟨pre, r, rfl, hc, hb⟩ := ih hx h₁
    exact ⟨_ :: pre, r, rfl, .cons hr hc, hb⟩

/-- Results that are adopted without a failure neither fail nor skip. -/
lemma Adopted.breaks {rs : List StepResult} {before after : StepResult}
    (h : Adopted rs before (.done ()) after) : ∀ r ∈ rs, r.breaks = false := by
  cases h with
  | calm hc => exact hc.breaks
  | left hrs hc hb hx =>
    subst hrs
    exact hc.breaks_concat hb

section Lists

/-- A list of steps gets no further than to a result that fails or skips. -/
def Halts (run : Runner) (steps : List Step) (c : Context) : Prop :=
  ∀ rs c', runList (run false) steps c = (.done rs, c') →
    ∃ pre r, rs = pre ++ [r] ∧ Calm pre ∧ r.breaks = true

variable (ha : run.Yields StepResult.Accounts)
include ha

lemma Halts.raiseFor {rs : List StepResult} {c' : Context} (h : Halts run steps c)
    (hrun : runList (run false) steps c = (.done rs, c')) (f : Frame) :
    ∃ e, Frame.raiseFor rs f = (.failed e, f) := by
  obtain ⟨pre, r, rfl, hc, hb⟩ := h rs c' hrun
  obtain ⟨e, he⟩ := (forall_runList ha hrun r (by simp)).failure hb
  exact ⟨e, raiseFor_last hc.breaks hb he f⟩

lemma Halts.runBody (h : Halts run steps f.context) {f' : Frame} :
    Machine.runBody run steps f ≠ (.done (), f') := by
  intro hdone
  rcases runBody_cases ha hdone with ⟨rs, hl, had⟩ | ⟨o, -, -, hb⟩
  · obtain ⟨pre, r, rfl, -, hb⟩ := h rs _ hl
    have hr := had.breaks r (by simp)
    rw [hb] at hr
    cases hr
  · exact hb.not_done

lemma Pass.not_done {starts : List (Run Unit)} {k : Nat} (h : Pass run steps starts f k c)
    (hl : Halts run steps c) {f' : Frame} :
    runPasses (Machine.runBody run steps) starts f ≠ (.done (), f') := by
  intro hdone
  induction h with
  | here begins =>
    rw [runPasses, Action.bind_of_done begins] at hdone
    obtain ⟨_, f₂, hbody, -⟩ := Action.bind_done hdone
    exact hl.runBody ha hbody
  | later begins body stays next ih =>
    rw [runPasses, Action.bind_of_done begins, Action.bind_of_done body,
      Action.bind_of_done (hasReturned_run _), stays] at hdone
    exact ih hl hdone

/-- Work is not done where it opens a list, other than a try slot, that halts. -/
lemma Opens.not_done {w : Work} {k : Nat} (h : Opens run f w k steps c) (hk : w.tries k = false)
    (hl : Halts run steps c) {v : Value} {f' : Frame} : carryOut run w f ≠ (.done v, f') := by
  intro hdone
  cases h with
  | pass hp =>
    obtain ⟨_, f₁, h₁, -⟩ := Action.bind_done hdone
    exact hp.not_done ha hl h₁
  | attempt => cases hk
  | @handler tried _ errorBinding rs r c₁ _ attempt fails begins =>
    obtain ⟨_, f₁, h₁, -⟩ := Action.bind_done hdone
    rw [runTrial, Action.bind_of_done (Frame.inContext_run attempt), fails] at h₁
    dsimp only at h₁
    rw [Action.bind_of_done (Frame.note_run _ _),
      Action.bind_of_done (Frame.inContext_run (f := ⟨c₁, _⟩) begins)] at h₁
    exact Halts.runBody ha (f := ⟨c, _⟩) hl h₁
  | @frame args _ expectReturn bindings c₁ begins =>
    obtain ⟨bindings', c₀, hargs, hbind⟩ := Action.bind_done begins
    obtain ⟨_, c₂, hbind, heq⟩ := Action.bind_done hbind
    cases heq
    rw [carryOut, Action.bind_of_done (Frame.inContext_run hargs)] at hdone
    cases runFrame_cases hdone with
    | unbound binds hb => exact hb.not_done
    | ended binds body raises =>
      rw [hbind] at binds
      cases binds
      obtain ⟨e, he⟩ := hl.raiseFor ha body
        ⟨closeFrame c₀.bindings bindings.keys _,
          { f.result with children := f.result.children ++ _ }⟩
      rw [Action.bind_of_failed he] at raises
      cases raises

end Lists

/-! ### Steps that are started -/

/-- A step that a machine starts, and the layers below by which the steps inside it are run. -/
structure Start where
  layers : Nat
  nested : Bool
  step : Step
  before : Context

namespace Start

variable (m : Machine) (a : Start)

/-- What runs the steps inside a step. -/
def inner : Runner := m.runWith a.layers

/-- The frame in which a step starts. -/
def fresh : Frame := ⟨a.before, .blank a.step⟩

/-- A step gets no further than to a result that fails or skips. -/
def Interrupted : Prop := Interrupts (m.runWith (a.layers + 1) a.nested a.step) a.before

end Start

/-- A step that is run right inside another one, but not in a try slot: a nested step that is to
give an input, or a step of a list that the signal has opened. -/
inductive Inside (m : Machine) (a b : Start) : Prop
  | input {f : Frame} {block : Block} (layers : a.layers = b.layers + 1)
    (nested : b.nested = true)
    (announced : m.announce a.nested a.step a.fresh = (.done (), f))
    (known : m.blocks.lookup a.step.type = some block)
    (asks : Asks (a.inner m) block a.step (inputNames block a.step) f b.step b.before) :
    Inside m a b
  | body {s : Signal} {f : Frame} {k i : Nat} {steps : List Step} {c : Context}
    (layers : a.layers = b.layers + 1) (nested : b.nested = false)
    (answered : m.consult (a.inner m) a.nested a.step a.fresh = (.done (.signal s), f))
    (opened : Opens (a.inner m) f (s.work a.step) k steps c)
    (kept : (s.work a.step).tries k = false)
    (started : StartsAt (a.inner m false) steps c i b.step b.before) : Inside m a b

/-- A step that is run inside another one at any depth, with no try slot in between. -/
def Reaches (m : Machine) : Start → Start → Prop := Relation.ReflTransGen m.Inside

variable {m : Machine} {a b : Start}

/-- A step whose evaluation has no value is interrupted. -/
lemma Start.interrupted_of
    (h : ∀ v f, m.evaluate (a.inner m) a.nested a.step a.fresh ≠ (.done v, f)) :
    a.Interrupted m := by
  intro r c hrun
  obtain ⟨r₀, c₁, h₁, h₂⟩ := Action.bind_done hrun
  obtain ⟨o, f, he, hc, -⟩ := conclude_done h₁
  obtain ⟨w, rfl⟩ := report_done h₂
  cases hc with
  | value v => exact absurd he (h v f)
  | failure hs => cases hs <;> rfl

lemma Start.Interrupted.interrupts (h : b.Interrupted m) (layers : a.layers = b.layers + 1) :
    Interrupts (a.inner m b.nested b.step) b.before := by
  rwa [Start.inner, layers]

/-- The block of a step does not answer where a nested step interrupts its inputs. -/
lemma Asks.not_answered {block : Block} (h : b.Interrupted m) (layers : a.layers = b.layers + 1)
    (nested : b.nested = true) (announced : m.announce a.nested a.step a.fresh = (.done (), f))
    (known : m.blocks.lookup a.step.type = some block)
    (asks : Asks (a.inner m) block a.step (inputNames block a.step) f b.step b.before)
    {answer : Answer} {f' : Frame} :
    m.consult (a.inner m) a.nested a.step a.fresh ≠ (.done answer, f') := by
  intro hdone
  rw [consult, Action.bind_of_done announced] at hdone
  obtain ⟨p, f₁, hprepare, -⟩ := Action.bind_done hdone
  simp only [prepare, known] at hprepare
  obtain ⟨vs, f₂, hresolve, -⟩ := Action.bind_done hprepare
  refine asks.not_done ?_ hresolve
  rw [← nested]
  exact h.interrupts layers

/-- A list of steps halts with a step that is interrupted. -/
lemma StartsAt.halts {i : Nat} (h : b.Interrupted m) (layers : a.layers = b.layers + 1)
    (nested : b.nested = false)
    (started : StartsAt (a.inner m false) steps c i b.step b.before) :
    Halts (a.inner m) steps c := by
  intro rs c' hrun
  refine started.interrupted ?_ hrun
  rw [← nested]
  exact h.interrupts layers

/-- A step is interrupted by a step inside it that is. -/
lemma Inside.interrupted (h : m.Inside a b) (hb : b.Interrupted m) : a.Interrupted m := by
  have ha : (a.inner m).Yields StepResult.Accounts := m.runWith_accounts a.layers
  refine Start.interrupted_of fun v f hdone => ?_
  obtain ⟨answer, f₁, hconsult, hdone⟩ := Action.bind_done hdone
  cases h with
  | input layers nested announced known asks =>
    exact asks.not_answered hb layers nested announced known hconsult
  | body layers nested answered opened kept started =>
    rw [answered] at hconsult
    cases hconsult
    rw [respond, perform_eq] at hdone
    exact opened.not_done ha kept (started.halts hb layers nested) hdone

/-- **What interrupts a step interrupts every step that it is run in**, up to the next try slot. -/
theorem Reaches.interrupted (h : m.Reaches a b) (hb : b.Interrupted m) : a.Interrupted m := by
  induction h using Relation.ReflTransGen.head_induction_on with
  | refl => exact hb
  | head hab _ ih => exact hab.interrupted ih

end Machine

end BlockSuite
