import BlockSuite.Proofs.Alike
import BlockSuite.Proofs.Machine.Simulation

/-!
Steps in related contexts. If the blocks of a machine and what watches it make no difference between
related contexts, then no step that it runs does: in related contexts it ends with the same result,
and leaves related contexts. This goes for contexts that are alike, if blocks and what watches the
machine are impartial.
-/

namespace BlockSuite

open BlockSuite.Action (Agree Congruent)
open BlockSuite.Context (Likeness)

/-- The blocks of a machine and what watches it make no difference between related contexts. -/
structure Machine.Even (m : Machine) (S : Context → Context → Prop) : Prop
    extends m.WatchedEvenly S where
  executor : ∀ type block, m.blocks.lookup type = some block → ∀ params c d, S c d →
    c.currentStep = d.currentStep →
      Agree S Answer.Alike (block.executor params) c (block.executor params) d

/-- The block of a machine, its hooks around steps and its artifact hook are impartial. -/
structure Machine.Impartial (m : Machine) : Prop where
  executor : ∀ type block, m.blocks.lookup type = some block → block.Impartial
  beforeStep : ∀ h ∈ m.hooks, ∀ f, h.beforeStep = some f → ∀ step, BlockSuite.Impartial (f step)
  afterStep : ∀ h ∈ m.hooks, ∀ f, h.afterStep = some f → ∀ step r, BlockSuite.Impartial (f step r)
  artifact : ∀ hook, m.artifact = some hook → ∀ step f, BlockSuite.Impartial (hook step f)

namespace Machine

variable {m : Machine} {run : Runner}

namespace Even

variable {S : Context → Context → Prop} (hm : m.Even S) (hS : Likeness S)
include hm hS

/-- **A machine runs every step alike in related contexts**, if its blocks and what watches it make
no difference between them. -/
theorem runWith (layers : Nat) (nested : Bool) (step : Step) :
    Congruent S (m.runWith layers nested step) := by
  let P (n : Nat) (nested : Bool) (x : Step) (c : Context) : Prop :=
    RunsAlike S Eq (m.runWith n) (m.runWith n) nested x c
  have hinward (a : Start) (_ : True)
      (hinner : ∀ b, m.Contains a b → P a.layers b.nested b.step b.before) :
      P (a.layers + 1) a.nested a.step a.before := by
    refine hm.toWatchedEvenly.runs_alike hS
      (fun f block params f' _ prepared d h hstep => ?_) hinner
    exact hm.executor _ _ (prepare_lookup prepared) params _ _ h hstep
  intro c
  cases layers with
  | zero => exact fun _ h => .exhaust h
  | succ n =>
    exact Start.of_inside (P := P) hinward ⟨n, nested, step, c⟩ fun _ _ => trivial

lemma runList (layers : Nat) (steps : List Step) :
    Congruent S (Machine.runList (m.runWith layers false) steps) := fun c d h => by
  have hlists : ListsAlike S Eq (m.runWith layers) (m.runWith layers) steps c :=
    listsAlike (fun _ _ h => congrArg StepResult.shell h) fun _ x cx _ =>
      hm.runWith hS layers false x cx
  exact (hlists d h).mono fun _ _ hrs => List.forall₂_eq_eq_eq ▸ hrs

end Even

/-- Whatever runs steps is impartial. -/
def Runner.Impartial (run : Runner) : Prop :=
  ∀ nested step, BlockSuite.Impartial (run nested step)

lemma Runner.Impartial.lists (hrun : Runner.Impartial run) (steps : List Step) (c : Context) :
    ListsAlike Context.Alike Eq run run steps c :=
  listsAlike (fun _ _ h => congrArg StepResult.shell h) fun _ x cx _ => hrun false x cx

namespace Impartial

variable (hm : m.Impartial)
include hm

lemma even : m.Even Context.Alike where
  beforeStep := hm.beforeStep
  afterStep := hm.afterStep
  artifact := hm.artifact
  executor := hm.executor

/-- An impartial machine runs every step alike in contexts that are alike. -/
lemma runWith (layers : Nat) : Runner.Impartial (m.runWith layers) :=
  hm.even.runWith Context.Alike.likeness layers

end Impartial

end Machine

end BlockSuite
