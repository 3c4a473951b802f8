import BlockSuite.Proofs.Action

/-!
What the control signals come down to. Branches, loops and expansions without a frame all run one
list of steps in a number of passes, each behind an action that binds what the pass is about; the
passes end early where one leaves a procedure. Beside them there are trials, frames, and the two
signals that run no steps. Whatever holds of the five kinds of work holds of all signals.
-/

namespace BlockSuite

namespace Frame

variable {α : Type}

lemma inContext_run {x : Run α} {f : Frame} {o : Outcome α} {c : Context}
    (h : x f.context = (o, c)) : inContext x f = (o, { f with context := c }) := by
  simp only [inContext, Action.zoom, h]

lemma inContext_eq {x : Run α} {f f' : Frame} {o : Outcome α} (h : inContext x f = (o, f')) :
    x f.context = (o, f'.context) ∧ f'.result = f.result := by
  rcases hx : x f.context with ⟨o', c⟩
  rw [inContext_run hx] at h
  obtain ⟨rfl, rfl⟩ := Prod.mk.inj h
  exact ⟨rfl, rfl⟩

lemma note_run (change : StepResult → StepResult) (f : Frame) :
    note change f = (.done ⟨⟩, { f with result := change f.result }) := rfl

end Frame

/-- What performing a signal comes down to. -/
inductive Work where
  /-- Run steps once behind each of some actions, until a pass leaves a procedure. -/
  | passes (starts : List (Run Unit)) (steps : List Step)
  /-- Run steps, and others should they fail. -/
  | trial (steps handler : List Step) (errorBinding : Option String)
  /-- Run steps in a frame of their own. -/
  | frame (bindings : Run (Dict Value)) (steps : List Step) (expectReturn : Bool)
  /-- Leave the nearest frame with a value. -/
  | leave (v : Value)
  /-- Define a procedure. -/
  | define (name : String) (procedure : Procedure)

/-- The work that a step's block asks for with a signal. -/
def Signal.work (step : Step) : Signal → Work
  | branch slot => .passes [pure ()] (step.slot slot)
  | countedLoop times slot => .passes (List.replicate times (pure ())) (step.slot slot)
  | collectionLoop items binding slot indexBinding =>
    .passes (items.mapIdx (Machine.bindItem binding indexBinding)) (step.slot slot)
  | tryCatch trySlot catchSlot errorBinding =>
    .trial (step.slot trySlot) (step.slot catchSlot) errorBinding
  | expand steps _ true bindings => .frame (pure bindings) steps true
  | expand steps _ false bindings => .passes [Machine.bindEach bindings] steps
  | call name args procedure expectReturn =>
    .frame (Machine.callBindings name args) procedure.steps expectReturn
  | leave v => .leave v
  | define name params description returnType slot =>
    .define name (Signal.procedure step name params description returnType slot)

/-- Whether some work is a frame, and then whether a value is expected of it. -/
def Work.expects : Work → Option Bool
  | .frame _ _ expectReturn => some expectReturn
  | _ => none

section Signal

variable {step : Step} {s : Signal} {steps : List Step}

/-- What a pass begins with binds the names that the pass is about, if there are any. -/
lemma Signal.mem_starts {starts : List (Run Unit)} (h : s.work step = .passes starts steps)
    {x : Run Unit} (hx : x ∈ starts) : x = pure () ∨
      (∃ binding indexBinding i v, x = Machine.bindItem binding indexBinding i v) ∨
        ∃ bindings, x = Machine.bindEach bindings := by
  cases s with
  | branch slot =>
    cases h
    exact .inl (List.mem_singleton.mp hx)
  | countedLoop times slot =>
    cases h
    exact .inl (List.eq_of_mem_replicate hx)
  | collectionLoop items binding slot indexBinding =>
    cases h
    obtain ⟨i, hi, rfl⟩ := List.mem_mapIdx.mp hx
    exact .inr (.inl ⟨binding, indexBinding, i, _, rfl⟩)
  | expand steps name frame bindings =>
    cases frame with
    | false =>
      cases h
      exact .inr (.inr ⟨bindings, List.mem_singleton.mp hx⟩)
    | true => cases h
  | _ => cases h

/-- The arguments of a frame are given, or filled in for a call. -/
lemma Signal.work_args {args : Run (Dict Value)} {expectReturn : Bool}
    (h : s.work step = .frame args steps expectReturn) :
    (∃ bindings, args = pure bindings) ∨ ∃ name given, args = Machine.callBindings name given := by
  cases s with
  | expand steps name frame bindings =>
    cases frame with
    | false => cases h
    | true =>
      cases h
      exact .inl ⟨bindings, rfl⟩
  | call name given procedure expectReturn =>
    cases h
    exact .inr ⟨name, given, rfl⟩
  | _ => cases h

end Signal

namespace Machine

open BlockSuite.Frame (inContext note)

/-- Runs a body behind each of some actions, or until it leaves a procedure. -/
def runPasses (body : Frame.Act Unit) : List (Run Unit) → Frame.Act Unit
  | [] => return ()
  | start :: rest => do
    inContext start
    body
    if !(← hasReturned) then runPasses body rest

/-- Runs steps, and others should they fail. -/
def runTrial (run : Runner) (steps handler : List Step) (errorBinding : Option String) :
    Frame.Act Unit := do
  let attempt ← inContext (runList (run false) steps)
  match attempt.find? (·.isFatal) with
  | none => Frame.adopt attempt
  | some r =>
    note fun outer => { outer with children := outer.children ++ attempt }
    inContext (bindCaught errorBinding r)
    runBody run handler

/-- Evaluates the arguments of a frame and binds them. -/
def bindArguments (args : Run (Dict Value)) : Run (Dict Value) := do
  let bindings ← args
  bindEach bindings
  return bindings

lemma bindArguments_done {args : Run (Dict Value)} {bindings : Dict Value} {c c₁ c₂ : Context}
    (given : args c = (.done bindings, c₁)) (bound : bindEach bindings c₁ = (.done (), c₂)) :
    bindArguments args c = (.done bindings, c₂) := by
  rw [bindArguments, Action.bind_of_done given, Action.bind_of_done bound]
  rfl

/-- Does some work. -/
def carryOut (run : Runner) : Work → Frame.Act Value
  | .passes starts steps => do
    runPasses (runBody run steps) starts
    bodyOutput
  | .trial steps handler errorBinding => do
    runTrial run steps handler errorBinding
    bodyOutput
  | .frame bindings steps expectReturn => do
    runFrame run steps expectReturn (← inContext bindings)
  | .leave v => do
    if (← Action.get).context.callDepth = 0 then inContext warnStray
    else note fun r => { r with returned := true }
    return v
  | .define name procedure => do
    inContext (defineLogged name procedure)
    return .null

lemma inContext_pure {α : Type} (a : α) : inContext (pure a : Run α) = pure a := rfl

section Leave

variable {run : Runner} {v : Value} {f : Frame}

/-- A step that leaves an open frame is marked. -/
lemma carryOut_leave (h : f.context.callDepth ≠ 0) : carryOut run (.leave v) f =
    (.done v, { f with result := { f.result with returned := true } }) := by
  rw [carryOut, Action.bind_of_done (Action.get_run f), if_neg h]
  rfl

/-- Where no frame is open there is a warning, and nothing to leave. -/
lemma carryOut_leave_stray (h : f.context.callDepth = 0) : carryOut run (.leave v) f =
    (do
      inContext warnStray
      return v : Frame.Act Value) f := by
  rw [carryOut, Action.bind_of_done (Action.get_run f), if_pos h]

end Leave

lemma runPasses_singleton (body : Frame.Act Unit) (start : Run Unit) :
    runPasses body [start] = (do inContext start; body) := by
  have h : (do if !(← hasReturned) then runPasses body [] : Frame.Act Unit) = pure () := by
    funext f
    show (if (!f.result.returned) = true then pure () else pure () : Frame.Act Unit) f = _
    split <;> rfl
  show (do inContext start; body; if !(← hasReturned) then runPasses body []) = _
  rw [h]
  simp

lemma runTimes_eq (body : Frame.Act Unit) (n : Nat) :
    runTimes body n = runPasses body (List.replicate n (pure ())) := by
  induction n with
  | zero => rfl
  | succ n ih =>
    simp only [runTimes, List.replicate_succ, runPasses, inContext_pure, pure_bind, ih]

lemma runItems_eq (bind : Nat → Value → Run Unit) (body : Frame.Act Unit) (index : Nat)
    (items : List Value) :
    runItems bind body index items =
      runPasses body (items.mapIdx fun i v => bind (index + i) v) := by
  induction items generalizing index with
  | nil => rfl
  | cons v rest ih =>
    simp only [runItems, List.mapIdx_cons, runPasses, ih, Nat.add_zero]
    simp only [Nat.add_right_comm, Nat.add_assoc]

/-- **Performing a signal is doing the work it comes down to.** -/
theorem perform_eq (run : Runner) (step : Step) (s : Signal) :
    perform run step s = carryOut run (s.work step) := by
  cases s with
  | branch slot =>
    simp only [perform, Signal.work, carryOut, runPasses_singleton, inContext_pure, pure_bind]
  | countedLoop times slot => simp only [perform, Signal.work, carryOut, runTimes_eq]
  | collectionLoop items binding slot indexBinding =>
    simp only [perform, Signal.work, carryOut, runItems_eq, Nat.zero_add]
  | tryCatch trySlot catchSlot errorBinding =>
    simp only [perform, Signal.work, carryOut, runTrial, bind_assoc]
    congr 1
    funext attempt
    cases attempt.find? (·.isFatal) <;> simp only [bind_assoc]
  | expand steps name frame bindings =>
    cases frame with
    | false =>
      show (do inContext (bindEach bindings); runBody run steps; bodyOutput) =
        (do runPasses (runBody run steps) [bindEach bindings]; bodyOutput)
      rw [runPasses_singleton, bind_assoc]
    | true => rfl
  | call name args procedure expectReturn => rfl
  | leave v => rfl
  | define name params description returnType slot => rfl

end Machine

end BlockSuite
