import BlockSuite.Proofs.Machine.Simulation

/-!
Hard and soft assertions. The machine itself does not look at the mode of assertions. So a step is
run alike in both modes if the blocks that are asked for it, and for the steps inside it, are blind
to the mode there. Only an assertion that is found false is not.
-/

namespace BlockSuite

open BlockSuite.Action (BlindAt Congruent Keeps Meets blindAt_iff)
open BlockSuite.Context (Likeness)

/-- A context with hard or soft assertions. -/
def Context.inMode (c : Context) (soft : Bool) : Context := { c with soft }

/-- Two contexts that differ in nothing but the mode of assertions, which is the given one in the
second. -/
def Context.ModeChanged (soft : Bool) (c d : Context) : Prop := d = c.inMode soft

lemma Context.modeChanged_likeness (soft : Bool) : Likeness (ModeChanged soft) where
  trial := by rintro c _ rfl; exact ⟨rfl, rfl, rfl⟩
  values := by rintro c _ rfl _; rfl
  collected := by rintro c _ rfl; rfl
  depth := by rintro c _ rfl; rfl
  cancelled := by rintro c _ rfl; rfl
  level := by rintro c _ rfl; rfl
  logged := by rintro c _ rfl _ _; rfl
  bound := by rintro c _ rfl _ _; rfl
  defined := by rintro c _ rfl _ _; rfl
  entered := by rintro c _ rfl _; rfl
  left := by rintro b _ c _ rfl rfl; rfl
  opened := by rintro c _ rfl; rfl
  closed := by rintro b _ c _ rfl rfl _; rfl

/-- Behind a context the mode of assertions is the same, and what was collected is kept. -/
structure Context.Accrues (c c' : Context) : Prop where
  mode : c'.soft = c.soft
  kept : c.softErrors.length ≤ c'.softErrors.length

namespace Aloof

variable {α : Type} {x : Run α}

lemma blindAt (hx : Aloof x) (soft : Bool) (c : Context) : BlindAt (·.inMode soft) x c := by
  rcases hxc : x c with ⟨o, c'⟩
  have h : x (c.inMode soft) = (o, c'.withAssertions soft c.softErrors) :=
    (hx soft c.softErrors c).run hxc
  rw [← (hx.same hxc).2] at h
  exact .of_run hxc h

lemma congruent (hx : Aloof x) (soft : Bool) : Congruent (Context.ModeChanged soft) x := by
  rintro c _ rfl
  exact blindAt_iff.mp (hx.blindAt soft c)

lemma keeps (hx : Aloof x) : Keeps Context.Accrues x := by
  intro c o c' h _
  obtain ⟨hmode, hkept⟩ := hx.same h
  exact ⟨hmode, by simp [hkept]⟩

end Aloof

namespace Machine

open BlockSuite.Frame (inContext note)
open BlockSuite.Context (Accrues ModeChanged)

variable {m : Machine} {run : Runner} {step : Step} {steps : List Step} {f f' : Frame}
  {c c' : Context} {soft : Bool}

/-! ### What watches a machine -/

/-- What watches a machine has nothing to do with assertions: its hooks around steps and its
artifact hook. -/
structure Unconcerned (m : Machine) : Prop where
  beforeStep : ∀ h ∈ m.hooks, ∀ f, h.beforeStep = some f → ∀ step, Aloof (f step)
  afterStep : ∀ h ∈ m.hooks, ∀ f, h.afterStep = some f → ∀ step r, Aloof (f step r)
  artifact : ∀ hook, m.artifact = some hook → ∀ step f, Aloof (hook step f)

namespace Unconcerned

variable (hm : m.Unconcerned)
include hm

lemma watchedEvenly (soft : Bool) : m.WatchedEvenly (ModeChanged soft) where
  beforeStep h hh f hf step := (hm.beforeStep h hh f hf step).congruent soft
  afterStep h hh f hf step r := (hm.afterStep h hh f hf step r).congruent soft
  artifact hook hk step f := (hm.artifact hook hk step f).congruent soft

lemma watched : m.Watched Accrues where
  beforeStep h hh f hf step := (hm.beforeStep h hh f hf step).keeps
  afterStep h hh f hf step r := (hm.afterStep h hh f hf step r).keeps
  artifact hook hk step f := (hm.artifact hook hk step f).keeps

end Unconcerned

/-! ### Steps inside steps -/

/-- Where the block of a step is asked, it is blind to the mode. -/
def Start.Indifferent (m : Machine) (soft : Bool) (a : Start) : Prop :=
  ∀ f block params f', m.announce a.nested a.step a.fresh = (.done (), f) →
    m.prepare (a.inner m) a.step f = (.done (block, params), f') →
      BlindAt (·.inMode soft) (block.executor params) f'.context

/-- A step is run alike in both modes. -/
abbrev Start.AlikeInModes (m : Machine) (soft : Bool) (layers : Nat) (nested : Bool) (x : Step)
    (c : Context) : Prop :=
  RunsAlike (ModeChanged soft) Eq (m.runWith layers) (m.runWith layers) nested x c

/-- A step is run alike in both modes if its block is blind to the mode and the steps right inside
it are run alike. -/
lemma Start.alike_of_contains (hm : m.Unconcerned) {a : Start} (ha : a.Indifferent m soft)
    (h : ∀ b, m.Contains a b → Start.AlikeInModes m soft a.layers b.nested b.step b.before) :
    Start.AlikeInModes m soft (a.layers + 1) a.nested a.step a.before := by
  refine (hm.watchedEvenly soft).runs_alike (Context.modeChanged_likeness soft)
    (fun f block params f' announced prepared => ?_) h
  rintro _ rfl -
  exact (blindAt_iff.mp (ha f block params f' announced prepared)).mono fun a _ heq =>
    heq ▸ .refl a

/-- **A list is run alike in both modes** if all blocks that are asked for it are blind to the mode:
those of its steps and those of the steps inside them, at any depth. -/
theorem runList_alike (hm : m.Unconcerned) {layers : Nat}
    (h : ∀ a, m.RunsFor layers steps c a → a.Indifferent m soft) :
    BlindAt (·.inMode soft) (runList (m.runWith layers false) steps) c := by
  have hlist : ListsAlike (ModeChanged soft) Eq (m.runWith layers) (m.runWith layers) steps c :=
    listsAlike (fun _ _ h => congrArg StepResult.shell h) fun _ _ _ started =>
      started.of_inside (P := Start.AlikeInModes m soft)
        (fun _ ha hb => Start.alike_of_contains hm ha hb) (fun _ _ _ _ hd => .exhaust hd) h
  rw [blindAt_iff]
  exact (hlist _ rfl).mono fun _ _ hrs => List.forall₂_eq_eq_eq ▸ hrs

end Machine

end BlockSuite
