import BlockSuite.Proofs.Log
import BlockSuite.Proofs.Machine.Layer

/-!
What a machine keeps, and how it fails. A contract on contexts that the machine's own writes and
faults meet is met by everything that is done on behalf of a step, as long as the steps inside it
meet it. So a relation of contexts that all executors and hooks respect relates the contexts before
and after every step and every list of steps that ends, however deep steps are nested.
-/

namespace BlockSuite.Machine

open BlockSuite.Frame (inContext note)
open BlockSuite.Action (Keeps Meets Contract)

/-- A contract that is met by what is logged, and by what may go wrong then. -/
structure JournalFree (K : Contract Context) : Prop where
  refl : ∀ c, K.keeps c c
  trans : ∀ c c' c'', K.keeps c c' → K.keeps c' c'' → K.keeps c c''
  records : ∀ c rs, K.keeps c (c.withRecords rs)
  fault : ∀ f, K.fails (.ofFault f)

/-- A contract that is met by what a machine does itself: it writes the journal, bindings, the
current step and the procedures, it opens frames and closes them, and it raises errors with
texts. -/
structure Harmless (K : Contract Context) : Prop extends JournalFree K where
  bindings : ∀ c b, K.keeps c { c with bindings := b }
  currentStep : ∀ c step, K.keeps c { c with currentStep := step }
  procedures : ∀ c p, K.keeps c { c with shared := { c.shared with procedures := p } }
  frame : ∀ c c', K.keeps (openFrame c) c' → K.keeps c { c' with callDepth := c'.callDepth - 1 }
  error : ∀ reason message, reason.isRuntime = true → K.fails (.raised (.of reason message))

/-- What is attached to a machine keeps a relation: the executors of its blocks, its hooks around
steps and its artifact hook. -/
structure Respects (m : Machine) (R : Context → Context → Prop) : Prop where
  executor : ∀ type block, m.blocks.lookup type = some block →
    ∀ params, Keeps R (block.executor params)
  beforeStep : ∀ h ∈ m.hooks, ∀ f, h.beforeStep = some f → ∀ step, Keeps R (f step)
  afterStep : ∀ h ∈ m.hooks, ∀ f, h.afterStep = some f → ∀ step r, Keeps R (f step r)
  artifact : ∀ hook, m.artifact = some hook → ∀ step f, Keeps R (hook step f)

/-- What watches a machine keeps a relation: its hooks around steps and its artifact hook. -/
structure Watched (m : Machine) (R : Context → Context → Prop) : Prop where
  beforeStep : ∀ h ∈ m.hooks, ∀ f, h.beforeStep = some f → ∀ step, Keeps R (f step)
  afterStep : ∀ h ∈ m.hooks, ∀ f, h.afterStep = some f → ∀ step r, Keeps R (f step r)
  artifact : ∀ hook, m.artifact = some hook → ∀ step f, Keeps R (hook step f)

/-- What is shown the results of a machine keeps a relation: its hooks behind steps and its artifact
hook. -/
structure Shown (m : Machine) (R : Context → Context → Prop) : Prop where
  afterStep : ∀ h ∈ m.hooks, ∀ f, h.afterStep = some f → ∀ step r, Keeps R (f step r)
  artifact : ∀ hook, m.artifact = some hook → ∀ step f, Keeps R (hook step f)

/-- A contract on the contexts of frames. -/
def inFrame (K : Contract Context) : Contract Frame :=
  ⟨fun f f' => K.keeps f.context f'.context, K.fails⟩

/-- A result that fails or skips has a failure that a contract allows. -/
def Bears (K : Contract Context) (r : StepResult) : Prop :=
  r.breaks = true → ∀ f, r.failure = some f → K.fails f

variable {m : Machine} {K : Contract Context} {run : Runner} {step : Step} {α β : Type}
  {P : α → Prop} {Q : β → Prop}

lemma Respects.mono {R S : Context → Context → Prop} (hm : m.Respects R)
    (h : ∀ c c', R c c' → S c c') : m.Respects S where
  executor type block hb params s o t hx ho := h _ _ (hm.executor type block hb params s o t hx ho)
  beforeStep k hk f hf step s o t hx ho := h _ _ (hm.beforeStep k hk f hf step s o t hx ho)
  afterStep k hk f hf step r s o t hx ho := h _ _ (hm.afterStep k hk f hf step r s o t hx ho)
  artifact hook hk step f s o t hx ho := h _ _ (hm.artifact hook hk step f s o t hx ho)

lemma Respects.watched {R : Context → Context → Prop} (hm : m.Respects R) : m.Watched R :=
  ⟨hm.beforeStep, hm.afterStep, hm.artifact⟩

lemma Watched.shown {R : Context → Context → Prop} (hm : m.Watched R) : m.Shown R :=
  ⟨hm.afterStep, hm.artifact⟩

lemma inContext_meets {x : Run α} (hx : Meets K x P) : Meets (inFrame K) (inContext x) P := by
  intro f
  rcases hxc : x f.context with ⟨a | e | _, c⟩ <;> rw [Frame.inContext_run hxc]
  · exact hx.done hxc
  · exact hx.failed hxc
  · trivial

/-- A contract that only asks for a relation of states allows all failures. -/
lemma bears_keeping {R : Context → Context → Prop} {x : Run StepResult} (h : Keeps R x) :
    Meets (.keeping R) x (Bears (.keeping R)) :=
  h.meets.mono fun _ _ _ _ _ _ _ _ => trivial

lemma prepare_lookup {f f' : Frame} {p : Block × Dict Value}
    (h : m.prepare run step f = (.done p, f')) : m.blocks.lookup step.type = some p.1 := by
  rcases hb : m.blocks.lookup step.type with _ | block
  · simp only [prepare, hb] at h
    cases (Prod.mk.inj h).1
  · simp only [prepare, hb] at h
    obtain ⟨params, f₁, -, h⟩ := Action.bind_done h
    cases (Prod.mk.inj h).1
    rfl

lemma artifactHookFor_eq {r : StepResult} {hook : ArtifactHook}
    (h : m.artifactHookFor step r = some hook) : m.artifact = some hook := by
  unfold artifactHookFor at h
  split at h
  · exact h
  · cases h

/-! ### Actions on the context -/

namespace JournalFree

variable (hK : JournalFree K)
include hK

lemma pure (a : α) : Meets K (Pure.pure a : Run α) :=
  .of_done fun c => ⟨a, c, rfl, hK.refl c, trivial⟩

lemma bind {x : Run α} {f : α → Run β} (hx : Meets K x P) (hf : ∀ a, P a → Meets K (f a) Q) :
    Meets K (x >>= f) Q := .bind hK.trans hx hf

lemma compute (e : Except Fault α) : Meets K (Action.compute e : Run α) := by
  intro c
  cases e with
  | ok a => exact ⟨hK.refl c, trivial⟩
  | error f => exact ⟨hK.refl c, hK.fault f⟩

lemma fill (v : Value) : Meets K (Context.fill v) := .get fun _ => hK.compute _

lemma logUnder (head : Except Fault String) (level : Level) (template : String)
    (arguments : List Value) (data : Value) :
    Meets K (Context.logUnder head level template arguments data) := by
  refine .get fun c => ?_
  split
  · refine hK.bind (hK.compute _) fun text _ => .modify fun c => ?_
    rw [Context.onJournal_log]
    exact hK.records c _
  · exact hK.pure _

lemma log (level : Level) (template : String) (arguments : List Value) (data : Value) :
    Meets K (Context.log level template arguments data) :=
  .get fun _ => hK.logUnder _ _ _ _ _

lemma fillArguments (args : Dict Value) : Meets K (fillArguments args) := by
  induction args with
  | nil => exact hK.pure _
  | cons e rest ih =>
    exact hK.bind (hK.fill _) fun v _ => hK.bind ih fun _ _ => hK.pure _

lemma callBindings (name : String) (args : Dict Value) : Meets K (callBindings name args) :=
  hK.bind (hK.fillArguments args) fun _ _ => hK.bind (hK.log _ _ _ _) fun _ _ => hK.pure _

/-- The arguments of a frame are only looked up. -/
lemma work_args {s : Signal} {args : Run (Dict Value)} {body : List Step} {expectReturn : Bool}
    (h : s.work step = .frame args body expectReturn) : Meets K args := by
  obtain ⟨bindings, rfl⟩ | ⟨name, given, rfl⟩ := Signal.work_args h
  · exact hK.pure _
  · exact hK.callBindings name given

lemma runAll {hooks : List Hooks} {event : Hooks → Option α} {call : α → Run Unit}
    (h : ∀ k ∈ hooks, ∀ f, event k = some f → Meets K (call f)) :
    Meets K (Hooks.runAll hooks fun k => (event k).map call) :=
  Hooks.runAll_meets hK.refl hK.trans h

lemma chain {step : Step → Run StepResult} {P : StepResult → Prop}
    (hrun : ∀ s, Meets K (step s) P) (steps : List Step) :
    Meets K (runList step steps) fun rs => ∀ r ∈ rs, P r := by
  induction steps with
  | nil => exact .of_done fun c => ⟨[], c, rfl, hK.refl c, by simp⟩
  | cons s rest ih =>
    rw [runList_cons]
    refine hK.bind (hrun s) fun r hr => ?_
    split
    · exact .of_done fun c => ⟨[r], c, rfl, hK.refl c, by simpa using hr⟩
    · refine hK.bind ih fun rs hrs => .of_done fun c => ⟨r :: rs, c, rfl, hK.refl c, ?_⟩
      intro x hx
      rcases List.mem_cons.mp hx with rfl | hx
      · exact hr
      · exact hrs x hx

end JournalFree

namespace Harmless

variable (hK : Harmless K)
include hK

lemma setVariable (name : String) (v : Value) : Meets K (Context.setVariable name v) :=
  hK.bind (.modify fun c => hK.bindings c _) fun _ _ => hK.log _ _ _ _

lemma bindEach (bindings : Dict Value) : Meets K (bindEach bindings) :=
  .each hK.refl hK.trans fun e _ => hK.setVariable e.1 e.2

lemma bindItem (binding : String) (indexBinding : Option String) (index : Nat) (v : Value) :
    Meets K (bindItem binding indexBinding index v) := by
  refine hK.bind (hK.setVariable _ _) fun _ _ => ?_
  split
  · exact hK.setVariable _ _
  · exact hK.pure _

lemma bindCaught (errorBinding : Option String) (r : StepResult) :
    Meets K (bindCaught errorBinding r) := by
  refine hK.bind (hK.log _ _ _ _) fun _ _ => ?_
  split
  · exact hK.setVariable _ _
  · exact hK.pure _

lemma defineLogged (name : String) (p : Procedure) : Meets K (defineLogged name p) :=
  hK.bind (.modify fun c => hK.procedures c _) fun _ _ => hK.log _ _ _ _

lemma ensureRunning : Meets K Context.ensureRunning := by
  refine .get fun c => ?_
  split
  · exact fun c => ⟨hK.refl c, hK.error _ _ rfl⟩
  · exact hK.pure _

/-- What a pass begins with is the machine's own doing. -/
lemma work_starts {s : Signal} {starts : List (Run Unit)} {steps : List Step}
    (h : s.work step = .passes starts steps) : ∀ x ∈ starts, Meets K x := by
  intro x hx
  obtain rfl | ⟨_, _, _, _, rfl⟩ | ⟨_, rfl⟩ := Signal.mem_starts h hx
  · exact hK.pure ()
  · exact hK.bindItem _ _ _ _
  · exact hK.bindEach _

/-! ### Actions on a frame -/

lemma inFrame_done {x : Frame.Act α}
    (h : ∀ f, ∃ a f', x f = (.done a, f') ∧ f'.context = f.context) : Meets (inFrame K) x := by
  refine .of_done fun f => ?_
  obtain ⟨a, f', hx, hc⟩ := h f
  refine ⟨a, f', hx, ?_, trivial⟩
  change K.keeps f.context f'.context
  rw [hc]
  exact hK.refl _

lemma inFrame_pure (a : α) : Meets (inFrame K) (Pure.pure a : Frame.Act α) :=
  hK.inFrame_done fun f => ⟨a, f, rfl, rfl⟩

lemma inFrame_fail {e : Failure} (he : K.fails e) :
    Meets (inFrame K) (Action.fail e : Frame.Act α) P :=
  fun f => ⟨hK.refl f.context, he⟩

lemma inFrame_bind {x : Frame.Act α} {f : α → Frame.Act β} (hx : Meets (inFrame K) x P)
    (hf : ∀ a, P a → Meets (inFrame K) (f a) Q) : Meets (inFrame K) (x >>= f) Q :=
  .bind (fun _ _ _ => hK.trans _ _ _) hx hf

lemma note (change : StepResult → StepResult) : Meets (inFrame K) (note change) :=
  hK.inFrame_done fun _ => ⟨_, _, rfl, rfl⟩

lemma raiseFor {rs : List StepResult} (h : ∀ r ∈ rs, Bears K r) :
    Meets (inFrame K) (Frame.raiseFor rs) := by
  unfold Frame.raiseFor
  split
  · next e he =>
    obtain ⟨r, hr, he⟩ := List.exists_of_findSome?_eq_some he
    refine hK.inFrame_fail ?_
    split at he
    · next hb => exact h r hr hb e he
    · cases he
  · exact hK.inFrame_pure _

lemma adopt {rs : List StepResult} (h : ∀ r ∈ rs, Bears K r) : Meets (inFrame K) (Frame.adopt rs) :=
  hK.inFrame_bind (hK.note _) fun _ _ => hK.inFrame_bind (hK.raiseFor h) fun _ _ => hK.note _

lemma closeFrame {c c' : Context} (h : K.keeps (openFrame c) c') (before : Dict Value)
    (names : List String) : K.keeps c (closeFrame before names c') :=
  hK.trans _ _ _ (hK.frame c c' h) (hK.bindings _ _)

section Run

variable (hrun : ∀ nested s, Meets K (run nested s) (Bears K))
include hrun

lemma runBody (steps : List Step) : Meets (inFrame K) (runBody run steps) :=
  hK.inFrame_bind (inContext_meets (hK.chain (hrun false) steps)) fun _ hrs => hK.adopt hrs

lemma runPasses {starts : List (Run Unit)} (hs : ∀ x ∈ starts, Meets K x) (steps : List Step) :
    Meets (inFrame K) (runPasses (Machine.runBody run steps) starts) := by
  induction starts with
  | nil => exact hK.inFrame_pure _
  | cons start rest ih =>
    refine hK.inFrame_bind (inContext_meets (hs start List.mem_cons_self)) fun _ _ => ?_
    refine hK.inFrame_bind (hK.runBody hrun steps) fun _ _ => ?_
    refine hK.inFrame_bind (hK.inFrame_done fun f => ⟨_, f, hasReturned_run f, rfl⟩) fun b _ => ?_
    split
    · exact ih fun x hx => hs x (List.mem_cons_of_mem _ hx)
    · exact hK.inFrame_pure _

lemma runTrial (steps handler : List Step) (errorBinding : Option String) :
    Meets (inFrame K) (runTrial run steps handler errorBinding) := by
  refine hK.inFrame_bind (inContext_meets (hK.chain (hrun false) steps)) fun rs hrs => ?_
  cases rs.find? (·.isFatal) with
  | none => exact hK.adopt hrs
  | some r =>
    refine hK.inFrame_bind (hK.note _) fun _ _ => ?_
    exact hK.inFrame_bind (inContext_meets (hK.bindCaught _ _)) fun _ _ => hK.runBody hrun handler

lemma runFrame (steps : List Step) (expectReturn : Bool) (bindings : Dict Value) :
    Meets (inFrame K) (runFrame run steps expectReturn bindings) := by
  intro f
  have hbody := hK.chain (hrun false) steps
  rcases h : Machine.runFrame run steps expectReturn bindings f with ⟨o, f'⟩
  cases runFrame_cases h with
  | unbound binds hb =>
    cases hb with
    | failed e => exact (hK.bindEach bindings).failed binds
    | exhausted => trivial
  | unfinished binds body => trivial
  | failed binds body =>
    have hc := ((hK.bindEach bindings).done binds).1
    obtain ⟨hb, he⟩ := hbody.failed body
    exact ⟨hK.trans _ _ _ hc (hK.closeFrame hb _ _), he⟩
  | @ended c c' rs _ _ binds body raises =>
    have hc := ((hK.bindEach bindings).done binds).1
    obtain ⟨hb, hrs⟩ := hbody.done body
    have hclosed := hK.trans _ _ _ hc (hK.closeFrame hb f.context.bindings bindings.keys)
    have hraise := hK.inFrame_bind (hK.raiseFor hrs) fun _ _ =>
      hK.inFrame_pure (frameOutput expectReturn rs)
    cases o with
    | done v => exact ⟨hK.trans _ _ _ hclosed (hraise.done raises).1, trivial⟩
    | failed e =>
      obtain ⟨hk, he⟩ := hraise.failed raises
      exact ⟨hK.trans _ _ _ hclosed hk, he⟩
    | exhausted => trivial

lemma perform (step : Step) (s : Signal) : Meets (inFrame K) (perform run step s) := by
  have hlast : Meets (inFrame K) bodyOutput :=
    hK.inFrame_done fun f => ⟨_, f, bodyOutput_run f, rfl⟩
  rw [perform_eq]
  cases hw : s.work step with
  | passes starts steps =>
    exact hK.inFrame_bind (hK.runPasses hrun (hK.work_starts hw) steps) fun _ _ => hlast
  | trial steps handler errorBinding =>
    exact hK.inFrame_bind (hK.runTrial hrun steps handler errorBinding) fun _ _ => hlast
  | frame args steps expectReturn =>
    exact hK.inFrame_bind (inContext_meets (hK.work_args hw)) fun bindings _ =>
      hK.runFrame hrun steps expectReturn bindings
  | leave v =>
    refine .get fun f => ?_
    split
    · exact hK.inFrame_bind (inContext_meets (hK.log _ _ _ _)) fun _ _ => hK.inFrame_pure v
    · exact hK.inFrame_bind (hK.note _) fun _ _ => hK.inFrame_pure v
  | define name procedure =>
    exact hK.inFrame_bind (inContext_meets (hK.defineLogged _ _)) fun _ _ => hK.inFrame_pure _

lemma resolveInput (b : Block) (step : Step) (name : String) :
    Meets (inFrame K) (resolveInput run b step name) := by
  unfold Machine.resolveInput
  split
  · refine hK.inFrame_bind (inContext_meets (hrun _ _)) fun r hr => ?_
    refine hK.inFrame_bind (hK.note _) fun _ _ => ?_
    split
    · next hb =>
      refine hK.inFrame_fail ?_
      cases hf : r.failure with
      | none => exact hK.error _ _ rfl
      | some e => exact hr hb e hf
    · exact hK.inFrame_pure _
  · exact inContext_meets (hK.fill _)
  · split
    · exact hK.inFrame_pure _
    · split
      · exact hK.inFrame_fail (hK.error _ _ rfl)
      · exact inContext_meets (hK.fill _)

lemma resolveAll (b : Block) (step : Step) (names : List String) :
    Meets (inFrame K) (resolveAll run b step names) := by
  induction names with
  | nil => exact hK.inFrame_pure _
  | cons name rest ih =>
    refine hK.inFrame_bind (hK.resolveInput hrun b step name) fun v _ => ?_
    exact hK.inFrame_bind ih fun _ _ => hK.inFrame_pure _

lemma prepare (step : Step) : Meets (inFrame K) (m.prepare run step) := by
  unfold Machine.prepare
  split
  · exact hK.inFrame_fail (hK.error _ _ rfl)
  · refine hK.inFrame_bind (hK.resolveAll hrun _ step _) fun params _ => ?_
    refine hK.inFrame_bind (inContext_meets (.modify fun c => ?_)) fun _ _ => hK.inFrame_pure _
    exact hK.currentStep c _

end Run

end Harmless

/-! ### What the hooks and executors take part in -/

section Report

variable (hK : JournalFree K)
include hK

lemma JournalFree.attachArtifact
    (hm : ∀ hook, m.artifact = some hook → ∀ step f, Keeps K.keeps (hook step f)) (step : Step)
    (r : StepResult) : Meets K (m.attachArtifact step r) := by
  unfold Machine.attachArtifact
  split
  · next hook hk =>
    refine hK.bind (hm hook (artifactHookFor_eq hk) step r.failure).attempt fun e _ => ?_
    split
    · exact hK.pure _
    · exact hK.bind (hK.log _ _ _ _) fun _ _ => hK.pure _
  · exact hK.pure _

lemma JournalFree.observe
    (hm : ∀ h ∈ m.hooks, ∀ f, h.afterStep = some f → ∀ step r, Keeps K.keeps (f step r))
    (nested : Bool) (step : Step) (r : StepResult) : Meets K (m.observe nested step r) := by
  unfold Machine.observe
  split
  · exact hK.pure _
  · have hall : Meets (.keeping K.keeps)
        (Hooks.runAll m.hooks fun h => h.afterStep.map fun f => f step r) :=
      Hooks.runAll_meets hK.refl hK.trans fun k hk f hf => (hm k hk f hf step r).meets
    have hkeeps : Keeps K.keeps _ := hall.keeps
    refine hK.bind hkeeps.attempt fun e _ => ?_
    split
    · exact hK.pure _
    · exact hK.log _ _ _ _

/-- Showing a result to the hooks only fails for what is written into the journal about it. -/
lemma JournalFree.report (hm : m.Shown K.keeps) (nested : Bool) (step : Step) (r : StepResult) :
    Meets K (m.report nested step r) :=
  hK.bind (hK.attachArtifact hm.artifact step r) fun r' _ =>
    hK.bind (hK.observe hm.afterStep nested step r') fun _ _ => hK.pure _

end Report

section Keeping

variable {R : Context → Context → Prop} (hR : Harmless (.keeping R))
include hR

lemma announce_keeps
    (hm : ∀ h ∈ m.hooks, ∀ f, h.beforeStep = some f → ∀ step, Keeps R (f step)) (nested : Bool)
    (step : Step) :
    Meets (inFrame (.keeping R)) (m.announce nested step) := by
  refine hR.inFrame_bind (inContext_meets hR.ensureRunning) fun _ _ => ?_
  split
  · exact inContext_meets (hR.runAll fun k hk f hf => (hm k hk f hf step).meets)
  · exact hR.inFrame_pure _

lemma invoke_keeps {block : Block} {params : Dict Value} (h : Keeps R (block.executor params)) :
    Meets (inFrame (.keeping R)) (invoke block params) := by
  have hmark (n : Nat) : Meets (inFrame (.keeping R)) (markSoft n) := by
    refine hR.inFrame_done fun f => ?_
    obtain ⟨r, hr⟩ := markSoft_run n f
    exact ⟨(), _, hr, rfl⟩
  refine .get fun f => hR.inFrame_bind (inContext_meets h.meets) fun answer _ => ?_
  exact hR.inFrame_bind (hmark _) fun _ _ => hR.inFrame_pure _

lemma prepare_keeps (hrun : ∀ nested s, Keeps R (run nested s)) (step : Step) :
    Meets (inFrame (.keeping R)) (m.prepare run step) :=
  hR.prepare (fun nested s => bears_keeping (hrun nested s)) step

lemma respond_keeps (hrun : ∀ nested s, Keeps R (run nested s)) (step : Step) (answer : Answer) :
    Meets (inFrame (.keeping R)) (respond run step answer) := by
  cases answer with
  | value v => exact hR.inFrame_pure v
  | signal s => exact hR.perform (fun nested s => bears_keeping (hrun nested s)) step s

variable (hm : m.Respects R) (hrun : ∀ nested s, Keeps R (run nested s))
include hm hrun

lemma consult_keeps (nested : Bool) (step : Step) :
    Meets (inFrame (.keeping R)) (m.consult run nested step) := by
  refine hR.inFrame_bind (announce_keeps hR hm.beforeStep nested step) fun _ _ => ?_
  have hprep := prepare_keeps (m := m) hR hrun step
  refine hR.inFrame_bind (P := fun p => m.blocks.lookup step.type = some p.1)
    (hprep.mono fun _ _ _ h _ => prepare_lookup h) fun p hp => ?_
  exact invoke_keeps hR (hm.executor step.type p.1 hp p.2)

lemma evaluate_keeps (nested : Bool) (step : Step) :
    Meets (inFrame (.keeping R)) (m.evaluate run nested step) :=
  hR.inFrame_bind (consult_keeps hR hm hrun nested step) fun answer _ =>
    respond_keeps hR hrun step answer

lemma conclude_keeps (nested : Bool) (step : Step) :
    Meets (.keeping R) (m.conclude run nested step) := by
  have heval := evaluate_keeps hR hm hrun nested step
  intro c
  rcases h : m.conclude run nested step c with ⟨o, c'⟩
  cases conclude_cases h with
  | value ran => exact ⟨hR.trans _ _ _ (heval.done ran).1 (hR.currentStep _ _), trivial⟩
  | settled ran record => exact ⟨hR.trans _ _ _ (heval.failed ran).1 (hR.currentStep _ _), trivial⟩
  | unsettled ran record =>
    exact ⟨hR.trans _ _ _ (heval.failed ran).1 (hR.currentStep _ _), trivial⟩
  | unfinished ran => trivial

omit hrun in
/-- **What the machine and all that is attached to it keep, every step keeps**, however deep steps
are nested. -/
theorem runWith_keeps (n : Nat) (nested : Bool) (step : Step) :
    Keeps R (m.runWith n nested step) := by
  induction n generalizing nested step with
  | zero =>
    intro c o c' h ho
    obtain ⟨rfl, -⟩ := Prod.mk.inj h
    exact absurd rfl ho
  | succ n ih =>
    have hlayer : Meets (.keeping R) (m.runLayer (m.runWith n) nested step) :=
      hR.bind (conclude_keeps hR hm (fun _ _ => ih _ _) nested step) fun r _ =>
        hR.report hm.watched.shown nested step r
    exact hlayer.keeps

end Keeping

/-! ### Machines of a few blocks -/

/-- A machine of blocks without inputs, given by what they do. -/
def ofExecutors (executors : Dict (Run Answer)) : Machine where
  blocks := [executors.map fun e => (e.1, { type := e.1, executor := fun _ => e.2 })]

lemma ofExecutors_lookup {executors : Dict (Run Answer)} {type : String} {block : Block}
    (h : (ofExecutors executors).blocks.lookup type = some block) :
    ∃ e ∈ executors, block.executor = fun _ => e.2 := by
  obtain ⟨d, hd, hentry⟩ := Layers.mem_of_lookup h
  rw [List.mem_singleton.mp hd] at hentry
  obtain ⟨e, he, heq⟩ := List.mem_map.mp hentry
  cases heq
  exact ⟨e, he, rfl⟩

lemma ofExecutors_respects {R : Context → Context → Prop} {executors : Dict (Run Answer)}
    (h : ∀ e ∈ executors, Keeps R e.2) : (ofExecutors executors).Respects R where
  executor type block hb params := by
    obtain ⟨e, he, hexec⟩ := ofExecutors_lookup hb
    rw [hexec]
    exact h e he
  beforeStep k hk := by cases hk
  afterStep k hk := by cases hk
  artifact hook hk := by cases hk

/-- A context whose journal keeps nothing but what is critical. -/
def silent : Context := { shared := { journal := { level := .critical } } }

end BlockSuite.Machine
