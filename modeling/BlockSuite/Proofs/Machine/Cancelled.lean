import BlockSuite.Proofs.Machine.Capture
import BlockSuite.Proofs.Machine.Contained

/-!
What a request to stop comes to. A step that is started behind the request is refused: nothing is
done for it but that its failed result is shown to what watches the machine. So behind the request
an executor is only invoked for a step that was started before, while its start was being announced
or its inputs were being evaluated. A list of steps gets no further than to the first step that is
refused, and where the request is not taken back, so does every list that is opened or resumed
behind it.
-/

namespace BlockSuite

/-- A request to stop is not taken back. -/
def Context.Stands (c c' : Context) : Prop :=
  c.shared.cancelled = true → c'.shared.cancelled = true

namespace Machine

open BlockSuite.Frame (inContext note)
open BlockSuite.Action (Keeps Meets)
open BlockSuite.Context (Stands Journaled)

variable {m : Machine} {run : Runner} {layers : Nat} {nested : Bool} {step : Step}
  {steps : List Step} {c c' : Context} {f f' : Frame}

lemma stands_harmless : Harmless (.keeping Stands) where
  refl _ h := h
  trans _ _ _ h h' hc := h' (h hc)
  records _ _ h := h
  fault _ := trivial
  bindings _ _ h := h
  currentStep _ _ h := h
  procedures _ _ h := h
  frame _ _ h hc := h hc
  error _ _ _ := trivial

lemma journaled_journalFree : JournalFree (.keeping Journaled) where
  refl := Journaled.refl
  trans _ _ _ := Journaled.trans
  records := Context.journaled_withRecords
  fault _ := trivial

/-! ### Steps that are refused -/

/-- The result of a step that is refused. -/
def refusal (c : Context) (step : Step) : StepResult :=
  failedRecord (.blank step)
    (BlockError.cancelled.at_
      { stepId := some (.text step.id)
        stepType := some (.text step.type)
        testName := some (.ofText? c.testName)
        row := some c.rowValue })
    ⟨"Execution cancelled", none, some "cancelled"⟩

lemma settled_cancelled (c : Context) (step : Step) :
    settled c step (.blank step) (.raised .cancelled) = .ok (refusal c step) := rfl

lemma conclude_cancelled (h : c.shared.cancelled = true) (run : Runner) (nested : Bool)
    (step : Step) : m.conclude run nested step c = (.done (refusal c step), c) := by
  have hevaluate : m.evaluate run nested step ⟨c, .blank step⟩ =
      (.failed (.raised .cancelled), ⟨c, .blank step⟩) := by
    have hannounce : m.announce nested step ⟨c, .blank step⟩ =
        (.failed (.raised .cancelled), ⟨c, .blank step⟩) := announce_cancelled h nested
    rw [evaluate, consult]
    exact Action.bind_of_failed (Action.bind_of_failed hannounce _) _
  rw [conclude_of_failed hevaluate, settled_cancelled]
  rfl

/-- **A step that is refused is only shown to what watches the machine.** -/
theorem runWith_cancelled (h : c.shared.cancelled = true) (layers : Nat) (nested : Bool)
    (step : Step) :
    m.runWith (layers + 1) nested step c = m.report nested step (refusal c step) c :=
  Action.bind_of_done (conclude_cancelled h _ _ _) _

/-- What is shown the results of a machine comes to its end. -/
structure Prompt (m : Machine) : Prop where
  afterStep : ∀ h ∈ m.hooks, ∀ f, h.afterStep = some f → ∀ step r, Action.Ends (f step r)
  artifact : ∀ hook, m.artifact = some hook → ∀ step f, Action.Ends (hook step f)

/-- A result is shown to the end. -/
lemma Prompt.report_ends (hm : m.Prompt) (nested : Bool) (r : StepResult) :
    Action.Ends (m.report nested step r) := by
  have hattach : Action.Ends (m.attachArtifact step r) := by
    unfold attachArtifact
    split
    · next hook hk =>
      have hhook : Action.Ends (hook step r.failure) :=
        hm.artifact hook (artifactHookFor_eq hk) step r.failure
      refine hhook.attempt.bind fun e => ?_
      split
      · exact .pure _
      · exact Context.log_ends.bind fun _ => .pure _
    · exact .pure _
  have hobserve (r : StepResult) : Action.Ends (m.observe nested step r) := by
    unfold observe
    split
    · exact .pure _
    · have hhooks : Action.Ends (Hooks.runAll m.hooks fun h => h.afterStep.map fun f => f step r) :=
        Hooks.runAll_ends fun k hk f hf => hm.afterStep k hk f hf step r
      refine hhooks.attempt.bind fun e => ?_
      split
      · exact .pure _
      · exact Context.log_ends
  exact hattach.bind fun r' => (hobserve r').bind fun _ => .pure _

/-- A result is shown to the end, unless it is lost. -/
lemma Prompt.report (hm : m.Prompt) (r : StepResult) :
    (∃ r' c', m.report nested step r c = (.done r', c')) ∨ m.Unlogged nested step r c := by
  rcases h : m.report nested step r c with ⟨r' | e | _, c'⟩
  · exact .inl ⟨r', c', rfl⟩
  · exact .inr (report_failed_iff.mp ⟨e, c', h⟩)
  · exact absurd (by rw [h]) (hm.report_ends nested r c)

/-- A step that is refused: whatever its block, its inputs and its slots, its failed result is
shown, which changes nothing but the journal if those who see it write nothing else, and is returned
with the artifact, or lost. -/
structure Refused (m : Machine) (layers : Nat) (nested : Bool) (step : Step) (c : Context) :
    Prop where
  shown : m.runWith (layers + 1) nested step c = m.report nested step (refusal c step) c
  result : ∀ r c', m.runWith (layers + 1) nested step c = (.done r, c') →
    ∃ v, r = { refusal c step with artifact := v }
  returns : m.Prompt → (∃ r c', m.runWith (layers + 1) nested step c = (.done r, c')) ∨
    m.Unlogged nested step (refusal c step) c
  lost : (∃ e c', m.runWith (layers + 1) nested step c = (.failed e, c')) ↔
    m.Unlogged nested step (refusal c step) c
  journaled : m.Shown Journaled → ∀ o c', m.runWith (layers + 1) nested step c = (o, c') →
    o ≠ .exhausted → c.Journaled c'

lemma Refused.of_cancelled (h : c.shared.cancelled = true) :
    m.Refused layers nested step c := by
  have hshown := runWith_cancelled (m := m) h layers nested step
  refine ⟨hshown, fun r c' hr => ?_, fun hp => ?_, ?_, fun hm o c' ho hne => ?_⟩
  · rw [hshown] at hr
    exact report_done hr
  · rw [hshown]
    exact hp.report _
  · rw [hshown]
    exact report_failed_iff
  · rw [hshown] at ho
    exact (journaled_journalFree.report hm nested step _).keeps _ _ _ ho hne

lemma refusal_stops (c : Context) (step : Step) (v : Value) :
    StepResult.stops { refusal c step with artifact := v } = true := rfl

/-! ### What is invoked -/

/-- The executor of a step is invoked: the step has been announced, its block was found and its
inputs have their values. -/
def Start.Invokes (m : Machine) (a : Start) (block : Block) (params : Dict Value) (c : Context) :
    Prop :=
  ∃ f f', m.announce a.nested a.step a.fresh = (.done (), f) ∧
    m.prepare (a.inner m) a.step f = (.done (block, params), f') ∧ f'.context = c

/-- The run is asked to stop when a step has been started: by a hook that sees the start, or in a
nested step that was started before the request and is to give an input. -/
inductive Start.Overtaken (m : Machine) (a : Start) : Prop
  | hook {c : Context} (listed : a.nested = false)
    (ran : Hooks.runAll m.hooks (fun h => h.beforeStep.map fun f => f a.step) a.before =
      (.done (), c))
    (asked : c.shared.cancelled = true) : Start.Overtaken m a
  | input {b : Start} (inside : m.Contains a b) (nested : b.nested = true)
    (before : b.before.shared.cancelled = false)
    (asked : (m.runWith (b.layers + 1) true b.step b.before).2.shared.cancelled = true) :
    Start.Overtaken m a

/-- Behind the announcement of a step the context is what its hooks have left. -/
lemma announce_hooks (h : m.announce nested step f = (.done (), f')) :
    f'.context = f.context ∨ nested = false ∧
      Hooks.runAll m.hooks (fun h => h.beforeStep.map fun x => x step) f.context =
        (.done (), f'.context) := by
  have hrunning := ensureRunning_of_running (running_of_announce h)
  rw [announce, Action.bind_of_done (Frame.inContext_run hrunning)] at h
  cases nested with
  | true =>
    cases h
    exact .inl rfl
  | false => exact .inr ⟨rfl, (Frame.inContext_eq h).1⟩

lemma resolveInput_nested {b : Block} {name : String} {x : Step}
    (h : Dict.get? step.params name = some (.nested x)) (f : Frame) :
    (resolveInput run b step name f).2.context = (run true x f.context).2 := by
  rcases hx : run true x f.context with ⟨r | e | _, c⟩ <;>
    simp only [resolveInput, h] <;>
    have hin := Frame.inContext_run hx
  · rw [Action.bind_of_done hin, Action.bind_of_done (Frame.note_run _ _)]
    split <;> rfl
  · rw [Action.bind_of_failed hin]
  · rw [Action.bind_of_exhausted hin]

/-- If the run is asked to stop while inputs are evaluated, it is in one of the nested steps. -/
lemma resolveAll_asked {b : Block} {names : List String} {o : Outcome (Dict Value)}
    (h : resolveAll run b step names f = (o, f')) (before : f.context.shared.cancelled = false)
    (asked : f'.context.shared.cancelled = true) :
    ∃ x cx, Asks run b step names f x cx ∧ cx.shared.cancelled = false ∧
      (run true x cx).2.shared.cancelled = true := by
  induction names generalizing f f' o with
  | nil =>
    cases h
    rw [before] at asked
    cases asked
  | cons name rest ih =>
    have hhead {o : Outcome Value} {f₁ : Frame} (h : resolveInput run b step name f = (o, f₁))
        (asked : f₁.context.shared.cancelled = true) :
        ∃ x cx, Asks run b step (name :: rest) f x cx ∧ cx.shared.cancelled = false ∧
          (run true x cx).2.shared.cancelled = true := by
      by_cases hx : ∃ x, Dict.get? step.params name = some (.nested x)
      · obtain ⟨x, hx⟩ := hx
        refine ⟨x, f.context, .here hx, before, ?_⟩
        rw [← resolveInput_nested (b := b) hx f, h]
        exact asked
      · have hsame : (resolveInput run b step name f).2 = f :=
          resolveInput_same (fun x h => hx ⟨x, h⟩) f
        rw [h] at hsame
        dsimp only at hsame
        rw [hsame, before] at asked
        cases asked
    rcases Action.bind_cases h with ⟨v, f₁, h₁, h⟩ | ⟨o', h₁, -⟩
    · obtain ⟨o', h, -⟩ := Action.bind_valued (fun _ _ => ⟨_, rfl⟩) h
      cases hc : f₁.context.shared.cancelled with
      | true => exact hhead h₁ hc
      | false =>
        obtain ⟨x, cx, asks, hx⟩ := ih h hc asked
        exact ⟨x, cx, .later h₁ asks, hx⟩
    · exact hhead h₁ asked

/-- No step is run inside a step that is refused. -/
lemma not_contains_of_cancelled {a b : Start} (h : a.before.shared.cancelled = true) :
    ¬m.Contains a b := by
  intro hab
  cases hab with
  | input layers nested announced =>
    have hrunning := running_of_announce announced
    rw [show a.fresh.context = a.before from rfl, h] at hrunning
    cases hrunning
  | body layers nested answered =>
    obtain ⟨_, f, announced, -⟩ := Action.bind_done answered
    have hrunning := running_of_announce announced
    rw [show a.fresh.context = a.before from rfl, h] at hrunning
    cases hrunning

/-- **An executor that is invoked behind the request belongs to a step that was started before.** -/
lemma Start.Invokes.overtaken {a : Start} {block : Block} {params : Dict Value}
    (h : a.Invokes m block params c) :
    a.before.shared.cancelled = false ∧ (c.shared.cancelled = true → a.Overtaken m) := by
  obtain ⟨f, f', announced, prepared, rfl⟩ := h
  refine ⟨running_of_announce announced, fun asked => ?_⟩
  -- Either the request has come up while the start was announced, or it comes up in the inputs.
  cases hf : f.context.shared.cancelled with
  | true =>
    rcases announce_hooks announced with hsame | ⟨listed, ran⟩
    · rw [hsame, running_of_announce announced] at hf
      cases hf
    · exact .hook listed ran hf
  | false =>
    have known := prepare_lookup prepared
    simp only [prepare, known] at prepared
    obtain ⟨vs, f₁, resolved, prepared⟩ := Action.bind_done prepared
    cases prepared
    obtain ⟨x, cx, asks, before, after⟩ := resolveAll_asked resolved hf asked
    obtain ⟨n, nested, step, c⟩ := a
    cases n with
    | zero =>
      -- The lowest layer runs no nested step.
      change cx.shared.cancelled = true at after
      rw [before] at after
      cases after
    | succ n =>
      have hinside : m.Contains ⟨n + 1, nested, step, c⟩ ⟨n, true, x, cx⟩ :=
        .input rfl rfl announced known asks
      exact .input hinside rfl before after

/-! ### Lists behind the request -/

/-- A list gets no further than to a step that is refused. -/
lemma StartsAt.le_of_cancelled {i j : Nat} {x y : Step} {cx cy : Context}
    (h : StartsAt (m.runWith layers false) steps c i x cx) (asked : cx.shared.cancelled = true)
    (h' : StartsAt (m.runWith layers false) steps c j y cy) : j ≤ i := by
  induction h generalizing j with
  | here step rest c =>
    cases h' with
    | here => exact Nat.le_refl _
    | later head hr next =>
      cases layers with
      | zero => cases head
      | succ n =>
        obtain ⟨v, rfl⟩ := (Refused.of_cancelled asked).result _ _ head
        rw [refusal_stops] at hr
        cases hr
  | later head hr next ih =>
    cases h' with
    | here => exact Nat.zero_le _
    | later head' hr' next' =>
      rw [head] at head'
      cases head'
      exact Nat.succ_le_succ (ih asked next')

/-- Of a list that begins behind the request, the first step is refused and no other is started. -/
lemma RunsFor.first_of_cancelled {b : Start} (asked : c.shared.cancelled = true)
    (h : m.RunsFor layers steps c b) : b.before = c ∧ ∃ rest, steps = b.step :: rest := by
  obtain ⟨a, i, -, -, started, hab⟩ := h
  have ha : a.before = c ∧ ∃ rest, steps = a.step :: rest := by
    cases steps with
    | nil => cases started
    | cons x rest =>
      have hi := (StartsAt.here x rest c).le_of_cancelled asked started
      cases started with
      | here => exact ⟨rfl, rest, rfl⟩
      | later => cases hi
  rcases Relation.ReflTransGen.cases_head hab with rfl | ⟨x, hx, -⟩
  · exact ha
  · exact absurd hx (not_contains_of_cancelled (by rw [ha.1, asked]))

/-! ### Where the request stands -/

/-- The lists that some work opens hand on the request to stop: if it stands when the work begins,
or comes up in one of the lists, every list that is opened behind it begins with it. -/
structure HandsOn (run : Runner) (f : Frame) (w : Work) : Prop where
  begins : f.context.shared.cancelled = true → ∀ k xs c, Opens run f w k xs c →
    c.shared.cancelled = true
  behind : ∀ k xs c o c' k' ys d, Opens run f w k xs c →
    runList (run false) xs c = (o, c') → c'.shared.cancelled = true →
    Opens run f w k' ys d → k < k' → d.shared.cancelled = true

section Standing

variable (hrun : ∀ nested s, Keeps Stands (run nested s))
include hrun

lemma StartsAt.stands {i j : Nat} {x y : Step} {cx cy : Context} {o : Outcome StepResult}
    (h : StartsAt (run false) steps c i x cx) (hx : run false x cx = (o, c'))
    (asked : c'.shared.cancelled = true) (h' : StartsAt (run false) steps c j y cy) (hij : i < j) :
    cy.shared.cancelled = true := by
  induction h generalizing j with
  | here step rest c =>
    cases h' with
    | here => cases hij
    | later head hr next =>
      rw [hx] at head
      cases head
      exact next.keeps stands_harmless hrun asked
  | later head hr next ih =>
    cases h' with
    | here => cases hij
    | later head' hr' next' =>
      rw [head] at head'
      cases head'
      exact ih hx next' (Nat.lt_of_succ_lt_succ hij)

omit hrun in
lemma runBody_context {o : Outcome (List StepResult)}
    (h : runList (run false) steps f.context = (o, c')) :
    (runBody run steps f).2.context = c' := by
  have hadopt (rs : List StepResult) (f : Frame) : (Frame.adopt rs f).2.context = f.context := by
    unfold Frame.adopt
    rw [Action.bind_of_done (Frame.note_run _ f)]
    unfold Frame.raiseFor
    split <;> rfl
  cases o with
  | done rs => rw [runBody, Action.bind_of_done (Frame.inContext_run h), hadopt]
  | failed e => rw [runBody, Action.bind_of_failed (Frame.inContext_run h)]
  | exhausted => rw [runBody, Action.bind_of_exhausted (Frame.inContext_run h)]

lemma Pass.stands {starts : List (Run Unit)} (hs : ∀ x ∈ starts, Meets (.keeping Stands) x)
    {k k' : Nat} {d : Context} {o : Outcome (List StepResult)}
    (h : Pass run steps starts f k c) (hl : runList (run false) steps c = (o, c'))
    (asked : c'.shared.cancelled = true) (h' : Pass run steps starts f k' d) (hk : k < k') :
    d.shared.cancelled = true := by
  induction h generalizing k' with
  | @here start rest f f₁ begins =>
    cases h' with
    | here => cases hk
    | @later _ _ _ f₁' f₂ _ _ begins' body stays next =>
      rw [begins] at begins'
      cases begins'
      have hcontext := runBody_context hl
      rw [body] at hcontext
      rw [← hcontext] at asked
      exact next.keeps stands_harmless hrun (fun x hx => hs x (List.mem_cons_of_mem _ hx)) asked
  | later begins body stays next ih =>
    cases h' with
    | here => cases hk
    | later begins' body' stays' next' =>
      rw [begins] at begins'
      cases begins'
      rw [body] at body'
      cases body'
      exact ih (fun x hx => hs x (List.mem_cons_of_mem _ hx)) hl next' (Nat.lt_of_succ_lt_succ hk)

lemma handsOn (s : Signal) (f : Frame) : HandsOn run f (s.work step) := by
  refine ⟨fun asked k xs c opened => ?_, fun k xs c o c' k' ys d opened hl asked opened' hk => ?_⟩
  · exact opened.keeps stands_harmless hrun (fun _ h => h) asked
  -- Only passes and a trial open more lists than one.
  · generalize hw : s.work step = w at opened opened'
    cases opened with
    | pass hp =>
      cases opened' with
      | pass hp' => exact hp.stands hrun (stands_harmless.work_starts hw) hl asked hp' hk
    | attempt =>
      cases opened' with
      | attempt => cases hk
      | handler attempt fails begins =>
        rw [hl] at attempt
        cases attempt
        exact ((stands_harmless.bindCaught _ _).done begins).1 asked
    | handler =>
      cases opened' with
      | attempt => cases hk
      | handler => exact absurd hk (Nat.lt_irrefl 1)
    | frame =>
      cases opened' with
      | frame => cases hk

end Standing

/-- **A request to stop stops everything that is not yet started.** A step that is started behind it
is refused, whatever it is. An executor is only invoked for a step that was started before, while
its start was announced or its inputs were evaluated. A list of steps that is begun behind it has
its first step refused, one that is resumed behind it the next one, and it starts no other. Where
the request is not taken back it also stands, once it has come up, at the start of every later step
of a list and of every list that is opened later by the work of a step. -/
theorem cancelled_stops (m : Machine) (layers : Nat) :
    (∀ nested step c, c.shared.cancelled = true → m.Refused layers nested step c) ∧
    (∀ (a : Start) block params (c : Context), a.Invokes m block params c →
      a.before.shared.cancelled = false ∧ (c.shared.cancelled = true → a.Overtaken m)) ∧
    (∀ a b : Start, a.before.shared.cancelled = true → ¬m.Contains a b) ∧
    (∀ steps (c : Context) b, c.shared.cancelled = true → m.RunsFor layers steps c b →
      b.before = c ∧ ∃ rest, steps = b.step :: rest) ∧
    (∀ steps c i x cx j y cy, StartsAt (m.runWith layers false) steps c i x cx →
      cx.shared.cancelled = true → StartsAt (m.runWith layers false) steps c j y cy → j ≤ i) ∧
    (m.Respects Stands →
      (∀ steps c i x cx o c' j y cy, StartsAt (m.runWith layers false) steps c i x cx →
        m.runWith layers false x cx = (o, c') → c'.shared.cancelled = true →
        StartsAt (m.runWith layers false) steps c j y cy → i < j → cy.shared.cancelled = true) ∧
      ∀ (s : Signal) (step : Step) (f : Frame), HandsOn (m.runWith layers) f (s.work step)) := by
  refine ⟨fun _ _ _ h => .of_cancelled h, fun _ _ _ _ h => h.overtaken,
    fun _ _ h => not_contains_of_cancelled h, fun _ _ _ h hb => hb.first_of_cancelled h,
    fun _ _ _ _ _ _ _ _ h hc h' => h.le_of_cancelled hc h', fun hm => ?_⟩
  have hrun (nested : Bool) (s : Step) : Keeps Stands (m.runWith layers nested s) :=
    runWith_keeps stands_harmless hm layers nested s
  exact ⟨fun _ _ _ _ _ _ _ _ _ _ h hx hc h' hij => h.stands hrun hx hc h' hij,
    fun s step f => handsOn hrun s f⟩

/-! ### A block that asks for the run to stop -/

/-- A machine with groups, and with a block that asks for the run to stop. -/
def closing : Machine := ofExecutors
  [("group", return .signal (.branch "DO")),
    ("close", do
      Context.abort
      return .value .null)]

/-- A step that asks for the run to stop. -/
def close : Step := ⟨"close", "close", [], []⟩

/-- A step one of whose inputs asks for the run to stop. -/
def closeTwice : Step := ⟨"twice", "close", [("FIRST", .nested close)], []⟩

lemma closing_respects : closing.Respects Stands := by
  refine ofExecutors_respects fun e he => ?_
  obtain rfl | rfl : e = _ ∨ e = _ := by simpa using he
  · intro c o c' h _ asked
    cases h
    exact asked
  · intro c o c' h _ asked
    cases h
    rfl

/-- The run of a test that is asked to stop. -/
def closed : Context := { silent with shared := { silent.shared with cancelled := true } }

theorem cancelled_stops_closing :
    (∃ r c', closing.runWith 2 false close closed = (.done r, c') ∧
      ∃ v, r = { refusal closed close with artifact := v }) ∧
    (∀ b, closing.RunsFor 2 [close, closeTwice] closed b →
      b.before = closed ∧ ∃ rest, [close, closeTwice] = b.step :: rest) ∧
    (∃ block params c, Start.Invokes closing ⟨1, false, closeTwice, silent⟩ block params c ∧
      c.shared.cancelled = true ∧ Start.Overtaken closing ⟨1, false, closeTwice, silent⟩) ∧
    closing.Respects Stands ∧
    ∃ c, StartsAt (closing.runWith 2 false) [close, close] silent 1 close c ∧
      c.shared.cancelled = true := by
  obtain ⟨hrefused, hinvokes, -, hlists, -, hstands⟩ := cancelled_stops closing 2
  obtain ⟨hsteps, -⟩ := hstands closing_respects
  refine ⟨?_, fun b hb => hlists _ _ b rfl hb, ?_, closing_respects, ?_⟩
  · obtain ⟨r, c', h⟩ := Action.exists_done (x := closing.runWith 2 false close) (s := closed)
      (by decide +kernel)
    exact ⟨r, c', h, ((cancelled_stops closing 1).1 false close closed rfl).result r c' h⟩
  · have hinvoked : Start.Invokes closing ⟨1, false, closeTwice, silent⟩ _ _ _ :=
      ⟨_, _, rfl, rfl, rfl⟩
    exact ⟨_, _, _, hinvoked, rfl, (hinvokes _ _ _ _ hinvoked).2 rfl⟩
  · obtain ⟨r, c, hfirst, hstops⟩ := Action.exists_done_eq (x := closing.runWith 2 false close)
      (s := silent) (g := StepResult.stops) (b := false) (by decide +kernel)
    have hasked : (closing.runWith 2 false close silent).2.shared.cancelled = true := by
      decide +kernel
    rw [hfirst] at hasked
    have hnext : StartsAt (closing.runWith 2 false) [close, close] silent 1 close c :=
      .later hfirst hstops (.here _ _ _)
    exact ⟨c, hnext,
      hsteps _ _ _ _ _ _ _ _ _ _ (.here _ _ _) hfirst hasked hnext (by decide)⟩

/-- The machine with a hook that fails on being shown a result. -/
def watchedClosing : Machine :=
  { closing with
    hooks := [{ afterStep := some fun _ _ => Action.fail (.raised (.leaf "blind")) }] }

/-- The run of a test with a percent sign in its name that is asked to stop, and of which errors are
logged. -/
def halfClosed : Context :=
  { testName := some "50% done", shared := { cancelled := true, journal := { level := .error } } }

/-- Behind the percent sign the failure of the hook cannot be logged: a step that is started behind
the request to stop fails, and is not returned as refused. -/
theorem halfClosed_loses_refusal : halfClosed.shared.cancelled = true ∧
    ∃ e c', watchedClosing.runWith 1 false close halfClosed = (.failed e, c') :=
  ⟨rfl, Action.exists_failed (by decide +kernel)⟩

end Machine

end BlockSuite
