import BlockSuite.Proofs.Machine.Activation
import BlockSuite.Proofs.Machine.Keeps

/-!
Loops as lists of copies of their bodies. A loop runs the copies one after the other up to the
first result that ends the list, and writes what a copy is about right before it starts it. So a
counted loop does what the copies of its slot would do in one list. Only where a step of a later
copy does not come to a result is there a difference: the loop has put the copies before on record,
and the list has nothing to show.
-/

namespace BlockSuite.Machine

open BlockSuite.Frame (inContext note)

variable {run : Runner} {steps : List Step} {starts : List (Run Unit)} {f : Frame} {c : Context}
  {rs rs' : List StepResult}

/-! ### Lists of copies -/

/-- A list runs its second part unless its first part has ended it. -/
lemma runList_append_eq (run : Step → Run StepResult) (xs ys : List Step) :
    runList run (xs ++ ys) = (do
      let rs ← runList run xs
      if rs.any (·.stops) then return rs
      return rs ++ (← runList run ys)) := by
  induction xs with
  | nil => simp
  | cons x xs ih =>
    simp only [List.cons_append, runList_cons, ih, bind_assoc]
    congr 1
    funext r
    cases hr : r.stops with
    | true => simp [hr]
    | false =>
      simp only [Bool.false_eq_true, if_false, bind_assoc]
      congr 1
      funext rs
      simp only [pure_bind, List.any_cons, hr, Bool.false_or]
      cases rs.any (·.stops) <;> simp

/-- Runs a copy of a list of steps, behind an action of its own. -/
def runCopy (run : Step → Run StepResult) (steps : List Step) (start : Run Unit) :
    Run (List StepResult) := do
  start
  runList run steps

/-- Runs copies of a list of steps up to the first result that ends the list. -/
def runCopies (run : Step → Run StepResult) (steps : List Step) :
    List (Run Unit) → Run (List StepResult)
  | [] => return []
  | start :: rest => do
    let rs ← runCopy run steps start
    if rs.any (·.stops) then return rs
    return rs ++ (← runCopies run steps rest)

/-- Copies with nothing in between are one list. -/
lemma runCopies_replicate (run : Step → Run StepResult) (steps : List Step) (n : Nat) :
    runCopies run steps (List.replicate n (pure ())) =
      runList run (List.replicate n steps).flatten := by
  induction n with
  | zero => rfl
  | succ n ih =>
    simp only [List.replicate_succ, List.flatten_cons, runCopies, runCopy, runList_append_eq, ih,
      pure_bind]

lemma calm_iff : Calm rs ↔ rs.any (·.stops) = false := by
  simp [Calm]

/-- Behind a copy whose results nothing stops the next one is started. -/
lemma runCopies_calm {run : Step → Run StepResult} {start : Run Unit} {rest : List (Run Unit)}
    {c₁ : Context} (h : runCopy run steps start c = (.done rs, c₁)) (calm : Calm rs) :
    runCopies run steps (start :: rest) c =
      (do return rs ++ (← runCopies run steps rest) : Run (List StepResult)) c₁ := by
  rw [runCopies, Action.bind_of_done h, calm_iff.mp calm]
  rfl

/-- Behind a copy that ends the list nothing is started. -/
lemma runCopies_of_stops {run : Step → Run StepResult} {start : Run Unit} {c₁ : Context}
    (h : runCopy run steps start c = (.done rs, c₁)) (stops : rs.any (·.stops) = true)
    (rest : List (Run Unit)) : runCopies run steps (start :: rest) c = (.done rs, c₁) := by
  rw [runCopies, Action.bind_of_done h, if_pos stops]
  rfl

/-! ### Copies that do not come to their results -/

/-- How copies fail: one of them does, behind copies that have come to results which nothing
stops. -/
structure BreaksOff (run : Step → Run StepResult) (steps : List Step) (starts : List (Run Unit))
    (c : Context) (kept : List StepResult) (e : Failure) (c' : Context) : Prop where
  calm : Calm kept
  copy : ∃ before start after c₁, starts = before ++ start :: after ∧
    runCopies run steps before c = (.done kept, c₁) ∧ runCopy run steps start c₁ = (.failed e, c')

lemma BreaksOff.here {run : Step → Run StepResult} {start : Run Unit} {rest : List (Run Unit)}
    {e : Failure} {c' : Context} (h : runCopy run steps start c = (.failed e, c')) :
    BreaksOff run steps (start :: rest) c [] e c' :=
  ⟨.nil, [], start, rest, c, rfl, rfl, h⟩

/-- A copy that comes to results which nothing stops can be put before copies that fail. -/
lemma BreaksOff.cons {run : Step → Run StepResult} {start : Run Unit} {e : Failure}
    {c₁ c' : Context} (ran : runCopy run steps start c = (.done rs, c₁)) (calm : Calm rs)
    (h : BreaksOff run steps starts c₁ rs' e c') :
    BreaksOff run steps (start :: starts) c (rs ++ rs') e c' := by
  obtain ⟨calm', before, start', after, c₂, rfl, hbefore, hcopy⟩ := h
  refine ⟨fun r hr => (List.mem_append.mp hr).elim (calm r) (calm' r),
    start :: before, start', after, c₂, rfl, ?_, hcopy⟩
  rw [runCopies_calm ran calm, Action.bind_of_done hbefore]
  rfl

/-! ### A loop and the list of its copies -/

/-- A record with more children. -/
def withChildren (r : StepResult) (rs : List StepResult) : StepResult :=
  { r with children := r.children ++ rs }

@[simp] lemma withChildren_nil (r : StepResult) : withChildren r [] = r := by
  cases r
  simp [withChildren]

@[simp] lemma withChildren_withChildren (r : StepResult) (rs rs' : List StepResult) :
    withChildren (withChildren r rs) rs' = withChildren r (rs ++ rs') := by
  simp [withChildren]

/-- Results that nothing stops can be adopted before others. -/
lemma adopt_append (h : Calm rs) (rs' : List StepResult) (f : Frame) :
    Frame.adopt (rs ++ rs') f =
      Frame.adopt rs' { f with result := withChildren f.result rs } := by
  have hraise (g : Frame) : Frame.raiseFor (rs ++ rs') g = Frame.raiseFor rs' g := by
    simp only [Frame.raiseFor, List.findSome?_append, findSome?_calm h.breaks, Option.none_or]
  have htake (r : StepResult) : takeOver (rs ++ rs') r = takeOver rs' r := by
    have hcalm := takeOver_calm h.returned r
    simp only [takeOver] at hcalm
    simp only [takeOver, List.foldl_append, hcalm]
  rw [adopt_run, adopt_run, withChildren, List.append_assoc]
  simp only [Action.bind_run, hraise, Frame.note_run, htake]

lemma adopt_calm (h : Calm rs) (f : Frame) :
    Frame.adopt rs f = (.done (), { f with result := withChildren f.result rs }) := by
  rw [adopt_run, Action.bind_of_done (raiseFor_calm h.breaks _), Frame.note_run,
    takeOver_calm h.returned]
  rfl

/-- Where a step goes on behind results that end their list, it has left a procedure. -/
lemma Adopted.left_of_stops {r r' : StepResult} (h : Adopted rs r (.done ()) r')
    (stops : rs.any (·.stops) = true) : r'.returned = true := by
  cases h with
  | calm hc =>
    rw [calm_iff.mp hc] at stops
    cases stops
  | left => rfl

/-- How a loop compares with the list of its copies. Where these come to their results, the loop
puts them on record together. Else it fails as they do, with the copies on record that have come to
their results. -/
inductive Unrolls (run : Runner) (steps : List Step) (starts : List (Run Unit)) (f : Frame) :
    Outcome Unit → Frame → Prop
  | adopted {rs : List StepResult} {c : Context} {o : Outcome Unit} {f' : Frame}
    (ran : runCopies (run false) steps starts f.context = (.done rs, c))
    (adopts : Frame.adopt rs { f with context := c } = (o, f')) : Unrolls run steps starts f o f'
  | broken {kept : List StepResult} {e : Failure} {c : Context}
    (ran : runCopies (run false) steps starts f.context = (.failed e, c))
    (off : BreaksOff (run false) steps starts f.context kept e c) :
    Unrolls run steps starts f (.failed e) ⟨c, withChildren f.result kept⟩
  | unfinished {kept : List StepResult} {c : Context}
    (ran : runCopies (run false) steps starts f.context = (.exhausted, c)) :
    Unrolls run steps starts f .exhausted ⟨c, withChildren f.result kept⟩

namespace Unrolls

variable {start : Run Unit} {rest : List (Run Unit)}

/-- A copy that comes to results which nothing stops can be put before a loop. -/
lemma cons {c₁ : Context} (ran : runCopy (run false) steps start f.context = (.done rs, c₁))
    (calm : Calm rs) {o : Outcome Unit} {f' : Frame}
    (h : Unrolls run steps rest ⟨c₁, withChildren f.result rs⟩ o f') :
    Unrolls run steps (start :: rest) f o f' := by
  have hcopies : runCopies (run false) steps (start :: rest) f.context = _ :=
    runCopies_calm ran calm
  cases h with
  | @adopted rs' c _ _ hrest adopts =>
    refine .adopted (hcopies.trans (Action.bind_of_done hrest _)) ?_
    rw [adopt_append calm]
    exact adopts
  | broken hrest off =>
    rw [withChildren_withChildren]
    exact .broken (hcopies.trans (Action.bind_of_failed hrest _)) (off.cons ran calm)
  | unfinished hrest =>
    rw [withChildren_withChildren]
    exact .unfinished (hcopies.trans (Action.bind_of_exhausted hrest _))

/-- A first copy that ends the list ends the loop. -/
lemma of_stops (ha : run.Yields StepResult.Accounts)
    (ran : runCopy (run false) steps start f.context = (.done rs, c))
    (stops : rs.any (·.stops) = true) {o : Outcome Unit} {f' : Frame}
    (h : (do
      Frame.adopt rs
      if !(← hasReturned) then runPasses (runBody run steps) rest : Frame.Act Unit)
        { f with context := c } = (o, f')) :
    Unrolls run steps (start :: rest) f o f' := by
  obtain ⟨_, c₁, -, hlist⟩ := Action.bind_done ran
  refine .adopted (runCopies_of_stops ran stops rest) ?_
  rcases Action.bind_cases h with ⟨_, f₁, hadopt, h⟩ | ⟨o₁, hadopt, hb⟩
  · obtain ⟨-, had⟩ := adopt_cases (ended_of_runList hlist) (forall_runList ha hlist) hadopt
    rw [Action.bind_of_done (hasReturned_run f₁), had.left_of_stops stops] at h
    exact hadopt.trans h
  · rw [hadopt]
    cases hb <;> rfl

end Unrolls

lemma inContext_bind {α β : Type} (x : Run α) (g : α → Run β) :
    inContext (x >>= g) = (do inContext (g (← inContext x)) : Frame.Act β) := by
  funext f
  rcases hx : x f.context with ⟨a | e | _, c⟩
  · rw [Action.bind_of_done (Frame.inContext_run hx)]
    simp only [inContext, Action.zoom, Action.bind_of_done hx]
  · rw [Action.bind_of_failed (Frame.inContext_run hx)]
    exact Frame.inContext_run (Action.bind_of_failed hx _)
  · rw [Action.bind_of_exhausted (Frame.inContext_run hx)]
    exact Frame.inContext_run (Action.bind_of_exhausted hx _)

lemma runPasses_cons (run : Runner) (steps : List Step) (start : Run Unit)
    (rest : List (Run Unit)) :
    runPasses (runBody run steps) (start :: rest) = (do
      let rs ← inContext (runCopy (run false) steps start)
      Frame.adopt rs
      if !(← hasReturned) then runPasses (runBody run steps) rest) := by
  simp only [runCopy, inContext_bind, bind_assoc]
  simp only [runPasses, runBody, bind_assoc]

/-- **A loop runs its copies** one after the other. -/
theorem runPasses_unrolls (ha : run.Yields StepResult.Accounts) (hf : f.result.returned = false)
    {o : Outcome Unit} {f' : Frame} (h : runPasses (runBody run steps) starts f = (o, f')) :
    Unrolls run steps starts f o f' := by
  induction starts generalizing f with
  | nil =>
    obtain ⟨rfl, rfl⟩ := Prod.mk.inj h
    exact .adopted rfl ((adopt_calm .nil _).trans (by rw [withChildren_nil]))
  | cons start rest ih =>
    rw [runPasses_cons] at h
    rcases hran : runCopy (run false) steps start f.context with ⟨rs | e | _, c⟩
    · rw [Action.bind_of_done (Frame.inContext_run hran)] at h
      rcases hstops : rs.any (·.stops) with _ | _
      · have hcalm : Calm rs := calm_iff.mpr hstops
        rw [Action.bind_of_done (adopt_calm hcalm _), Action.bind_of_done (hasReturned_run _)] at h
        have hr : (withChildren f.result rs).returned = false := hf
        rw [hr] at h
        exact .cons hran hcalm (ih hr h)
      · exact .of_stops ha hran hstops h
    · rw [Action.bind_of_failed (Frame.inContext_run hran)] at h
      obtain ⟨rfl, rfl⟩ := Prod.mk.inj h
      have hoff : BreaksOff (run false) steps (start :: rest) f.context [] e c := .here hran
      have hbroken := Unrolls.broken (Action.bind_of_failed hran _) hoff
      rwa [withChildren_nil] at hbroken
    · rw [Action.bind_of_exhausted (Frame.inContext_run hran)] at h
      obtain ⟨rfl, rfl⟩ := Prod.mk.inj h
      have hunfinished : Unrolls run steps (start :: rest) f .exhausted
          ⟨c, withChildren f.result []⟩ := .unfinished (Action.bind_of_exhausted hran _)
      rwa [withChildren_nil] at hunfinished

/-! ### Steps whose blocks ask for loops -/

/-- Runs copies of a list of steps as the body of a step. -/
def runAsList (run : Runner) (steps : List Step) (starts : List (Run Unit)) : Frame.Act Value := do
  Frame.adopt (← inContext (runCopies (run false) steps starts))
  bodyOutput

/-- An expansion runs its steps as one list. -/
lemma respond_copies (run : Runner) (step : Step) (steps : List Step) (n : Nat) :
    respond run step (.signal (.expand (List.replicate n steps).flatten none false [])) =
      runAsList run steps (List.replicate n (pure ())) := by
  have hbind : bindEach [] = pure () := rfl
  rw [runAsList, runCopies_replicate, respond, perform_eq, Signal.work, carryOut,
    runPasses_singleton, hbind, inContext_pure, pure_bind, runBody, bind_assoc]

/-- What could be done in place of what a signal asks for: the copies of a slot could be run as one
list, and the try slot of a step in which no step fails could be run by itself. -/
inductive Unrolling (run : Runner) (step : Step) (c : Context) : Signal → Frame.Act Value → Prop
  | counted (times : Nat) (slot : String) : Unrolling run step c (.countedLoop times slot)
      (respond run step
        (.signal (.expand (List.replicate times (step.slot slot)).flatten none false [])))
  | branch (slot : String) : Unrolling run step c (.branch slot)
      (respond run step (.signal (.expand (step.slot slot) none false [])))
  | collection (items : List Value) (binding slot : String) (indexBinding : Option String) :
    Unrolling run step c (.collectionLoop items binding slot indexBinding)
      (runAsList run (step.slot slot) (items.mapIdx (bindItem binding indexBinding)))
  | trial {trySlot : String} (catchSlot : String) (errorBinding : Option String)
    (fine : ∀ rs c', runList (run false) (step.slot trySlot) c = (.done rs, c') →
      rs.find? (·.isFatal) = none) :
    Unrolling run step c (.tryCatch trySlot catchSlot errorBinding)
      (respond run step (.signal (.branch trySlot)))

/-- A trial in which no step fails is its try slot. -/
lemma runTrial_fine {tries handler : List Step} {errorBinding : Option String}
    (fine : ∀ rs c', runList (run false) tries f.context = (.done rs, c') →
      rs.find? (·.isFatal) = none) :
    runTrial run tries handler errorBinding f = runBody run tries f := by
  rcases hran : runList (run false) tries f.context with ⟨rs | e | _, c⟩
  · have hbody : runBody run tries f = Frame.adopt rs { f with context := c } :=
      Action.bind_of_done (Frame.inContext_run hran) _
    rw [runTrial, Action.bind_of_done (Frame.inContext_run hran), fine rs c hran, hbody]
  · rw [runTrial, runBody, Action.bind_of_failed (Frame.inContext_run hran)]
    exact (Action.bind_of_failed (Frame.inContext_run hran) _).symm
  · rw [runTrial, runBody, Action.bind_of_exhausted (Frame.inContext_run hran)]
    exact (Action.bind_of_exhausted (Frame.inContext_run hran) _).symm

/-- What is done either is done by passes over the same copies, or is what the signal does. -/
lemma Unrolling.cases {step : Step} {s : Signal} {act : Frame.Act Value}
    (h : Unrolling run step f.context s act) :
    (∃ starts steps, s.work step = .passes starts steps ∧ act = runAsList run steps starts) ∨
      perform run step s f = act f := by
  cases h with
  | counted times slot => exact .inl ⟨_, _, rfl, respond_copies run step _ times⟩
  | branch slot =>
    refine .inl ⟨_, _, rfl, ?_⟩
    have h := respond_copies run step (step.slot slot) 1
    rwa [List.replicate_one, List.flatten_singleton, List.replicate_one] at h
  | collection items binding slot indexBinding => exact .inl ⟨_, _, rfl, rfl⟩
  | trial catchSlot errorBinding fine =>
    refine .inr ?_
    rw [perform_eq]
    simp only [Signal.work, carryOut, respond, perform, Action.bind_run, runTrial_fine fine]

/-! ### Up to the result of the step -/

/-- Brings a step to its result that is evaluated in some way. -/
def concludeWith (step : Step) (evaluation : Frame.Act Value) : Run StepResult := do
  let previous := (← Action.get).currentStep
  let (outcome, r) ← Frame.enter (.blank step) evaluation
  let c ← Action.get
  Action.modify fun c => { c with currentStep := previous }
  match outcome with
  | .ok v => return { r with output := v }
  | .error f => Action.lift (settled c step r f)

/-- Evaluates a step with something else in place of what its block asks for. -/
def evaluateAs (m : Machine) (run : Runner) (nested : Bool) (step : Step) (act : Frame.Act Value) :
    Frame.Act Value := do
  let _ ← m.consult run nested step
  act

lemma conclude_eq (m : Machine) (run : Runner) (nested : Bool) (step : Step) :
    m.conclude run nested step = concludeWith step (m.evaluate run nested step) := rfl

/-- A failure settles a record with more children in the same way. -/
lemma settled_withChildren (c : Context) (step : Step) (r : StepResult) (e : Failure)
    (rs : List StepResult) :
    settled c step (withChildren r rs) e = (withChildren · rs) <$> settled c step r e := by
  rw [settled_inShell c step (withChildren r rs), settled_inShell c step r, Functor.map_map]
  rfl

section Conclude

variable {step : Step} {x y : Frame.Act Value}

lemma concludeWith_congr (h : x ⟨c, .blank step⟩ = y ⟨c, .blank step⟩) :
    concludeWith step x c = concludeWith step y c := by
  simp only [concludeWith, Action.bind_run, Action.get_run, Frame.enter, h]

/-- The record of an evaluation that stays unfinished does not count. -/
lemma concludeWith_unfinished {f : Frame} {r : StepResult}
    (hx : x ⟨c, .blank step⟩ = (.exhausted, { f with result := r }))
    (hy : y ⟨c, .blank step⟩ = (.exhausted, f)) :
    concludeWith step x c = concludeWith step y c := by
  simp only [concludeWith, Action.bind_run, Action.get_run, Frame.enter, hx, hy]

/-- What is on record besides when an evaluation fails stays in the result. -/
lemma concludeWith_failed {f : Frame} {e : Failure}
    (hx : x ⟨c, .blank step⟩ = (.failed e, { f with result := withChildren f.result rs }))
    (hy : y ⟨c, .blank step⟩ = (.failed e, f)) :
    concludeWith step x c = ((withChildren · rs) <$> concludeWith step y) c := by
  have hrun {z : Frame.Act Value} {f : Frame} (h : z ⟨c, .blank step⟩ = (.failed e, f)) :
      concludeWith step z c = Action.lift (settled f.context step f.result e)
        { f.context with currentStep := c.currentStep } := by
    simp only [concludeWith, Action.bind_run, Action.get_run, Frame.enter, h, Action.modify_run]
  rw [hrun hx, map_eq_pure_bind, Action.bind_run, hrun hy]
  simp only [settled_withChildren]
  cases settled f.context step f.result e <;> rfl

end Conclude

/-! ### Steps whose blocks ask for loops -/

section Steps

variable {m : Machine} {n : Nat} {nested : Bool} {step : Step} {s : Signal} {act : Frame.Act Value}

/-- The results of the copies that some work has come to before one of them has failed. -/
def Stays (run : Runner) (w : Work) (c : Context) (kept : List StepResult) : Prop :=
  ∃ starts steps e c', w = .passes starts steps ∧ BreaksOff (run false) steps starts c kept e c'

/-- **Loops and branches are their unrolling.** A step whose block asks for a loop comes to the
result, in the context, of a step that runs the copies of the slot as one list; a branch is the
case of one copy, and so is a trial in which no step fails. Only where a copy does not come to its
results are those of the copies before it on record besides. -/
theorem loops_unroll
    (asks : m.consult (m.runWith n) nested step ⟨c, .blank step⟩ = (.done (.signal s), f))
    (unrolls : Unrolling (m.runWith n) step f.context s act) :
    ∃ kept, (kept = [] ∨ Stays (m.runWith n) (s.work step) f.context kept) ∧
      m.runWith (n + 1) nested step c =
        (do
          let r ← concludeWith step (m.evaluateAs (m.runWith n) nested step act)
          m.report nested step (withChildren r kept) : Run StepResult) c := by
  have ha := m.runWith_accounts n
  have hx : m.evaluate (m.runWith n) nested step ⟨c, .blank step⟩ =
      carryOut (m.runWith n) (s.work step) f := by
    rw [evaluate, Action.bind_of_done asks, respond, perform_eq]
  have hy : m.evaluateAs (m.runWith n) nested step act ⟨c, .blank step⟩ = act f :=
    Action.bind_of_done asks _
  suffices h : ∃ kept, (kept = [] ∨ Stays (m.runWith n) (s.work step) f.context kept) ∧
      concludeWith step (m.evaluate (m.runWith n) nested step) c = ((withChildren · kept) <$>
        concludeWith step (m.evaluateAs (m.runWith n) nested step act)) c by
    obtain ⟨kept, hkept, h⟩ := h
    refine ⟨kept, hkept, ?_⟩
    rw [runWith, runLayer, conclude_eq, Action.bind_run, h, map_eq_pure_bind, ← Action.bind_run,
      bind_assoc]
    rfl
  -- Where nothing stays on record besides, the step is concluded alike.
  have halike (h : concludeWith step (m.evaluate (m.runWith n) nested step) c =
      concludeWith step (m.evaluateAs (m.runWith n) nested step act) c) :
      ∃ kept, (kept = [] ∨ Stays (m.runWith n) (s.work step) f.context kept) ∧
        concludeWith step (m.evaluate (m.runWith n) nested step) c = ((withChildren · kept) <$>
          concludeWith step (m.evaluateAs (m.runWith n) nested step act)) c :=
    ⟨[], .inl rfl, by simpa only [withChildren_nil, id_map'] using h⟩
  rcases unrolls.cases with ⟨starts, steps, hwork, rfl⟩ | hsame
  swap
  · exact halike (concludeWith_congr (by rw [hx, hy, ← hsame, perform_eq]))
  have hreturned : f.result.returned = false := (consult_consulted ha ha asks).returned
  rcases hpasses : runPasses (runBody (m.runWith n) steps) starts f with ⟨o, f'⟩
  rw [hwork, carryOut] at hx
  cases runPasses_unrolls ha hreturned hpasses with
  | @adopted rs c' _ _ ran adopts =>
    refine halike (concludeWith_congr ?_)
    rw [hx, hy, runAsList, Action.bind_of_done (Frame.inContext_run ran)]
    simp only [Action.bind_run, hpasses, adopts]
  | @broken kept e c' ran off =>
    rw [Action.bind_of_failed hpasses] at hx
    have hlist : runAsList (m.runWith n) steps starts f = (.failed e, { f with context := c' }) :=
      Action.bind_of_failed (Frame.inContext_run ran) _
    refine ⟨kept, .inr ⟨starts, steps, e, c', hwork, off⟩, ?_⟩
    exact concludeWith_failed hx (hy.trans hlist)
  | @unfinished kept c' ran =>
    rw [Action.bind_of_exhausted hpasses] at hx
    have hlist : runAsList (m.runWith n) steps starts f =
        (.exhausted, { f with context := c' }) :=
      Action.bind_of_exhausted (Frame.inContext_run ran) _
    exact halike (concludeWith_unfinished hx (hy.trans hlist))

end Steps

/-- A machine with a block that repeats steps and one that can be run once only: it remembers that
it has been run, and then skips for a reason that cannot be recorded. -/
def repeating : Machine :=
  ofExecutors
    [("repeat", return .signal (.countedLoop 2 "DO")),
      ("once", fun c =>
        if c.bindings.has "seen" then (.failed (.skip (.int 5)), c)
        else (.done (.value .null), { c with bindings := c.bindings.set "seen" .null }))]

/-- A step that repeats another one. -/
def again : Step := ⟨"outer", "repeat", [], [("DO", [⟨"inner", "once", [], []⟩])]⟩

/-- The copies of the step that is repeated. -/
def unrolled : Frame.Act Value :=
  respond (repeating.runWith 1) again
    (.signal (.expand (List.replicate 2 (again.slot "DO")).flatten none false []))

theorem loops_unroll_again : ∃ kept, (kept = [] ∨
      Stays (repeating.runWith 1) (Signal.work again (.countedLoop 2 "DO"))
        { silent with currentStep := some again } kept) ∧
    repeating.runWith 2 false again silent =
      (do
        let r ← concludeWith again (repeating.evaluateAs (repeating.runWith 1) false again unrolled)
        repeating.report false again (withChildren r kept) : Run StepResult) silent := by
  have asks : repeating.consult (repeating.runWith 1) false again ⟨silent, .blank again⟩ =
      (.done (.signal (.countedLoop 2 "DO")),
        ⟨{ silent with currentStep := some again }, .blank again⟩) := rfl
  exact loops_unroll asks (.counted 2 "DO")

/-- A loop keeps the copy that has come to its result before the second one does not; the list of
both copies has nothing to keep. -/
theorem again_keeps_copy : ∃ r c r' c',
    repeating.conclude (repeating.runWith 1) false again silent = (.done r, c) ∧
    concludeWith again (repeating.evaluateAs (repeating.runWith 1) false again unrolled) silent =
      (.done r', c') ∧ r.children.length = 1 ∧ r'.children.length = 0 := by
  obtain ⟨r, c, h, hr⟩ := Action.exists_done_eq (s := silent) (b := 1)
    (x := repeating.conclude (repeating.runWith 1) false again)
    (g := (·.children.length)) (by decide +kernel)
  obtain ⟨r', c', h', hr'⟩ := Action.exists_done_eq (s := silent) (b := 0)
    (x := concludeWith again (repeating.evaluateAs (repeating.runWith 1) false again unrolled))
    (g := (·.children.length)) (by decide +kernel)
  exact ⟨r, c, r', c', h, h', hr, hr'⟩

end BlockSuite.Machine
