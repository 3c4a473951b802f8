import BlockSuite.Environment

/-!
The machine that runs steps. A step is run by resolving its inputs, which runs nested steps, by
having the executor of its block answer, and by doing what a control signal asks for. All this
happens in a frame, the context together with the result under construction, so what was
observed before a failure stays in the result.

A list of steps ends with the first one that fails, skips or leaves a procedure. A failure passes
through the steps around it until one catches it; what reaches the top is a result, not a failure.

Running is layered: the steps inside a step are run by the layer below, and the lowest layer
stays unfinished.
-/

namespace BlockSuite

/-- A machine: the blocks it knows and what observes it. -/
structure Machine where
  blocks : Layers Block
  hooks : List Hooks := []
  artifact : Option ArtifactHook := none
deriving Inhabited

/-- The machine of an environment. -/
def Environment.machine (e : Environment) : Machine := ⟨e.blocks, e.hooks, e.artifact⟩

/-- The state of a step that is being run. -/
structure Frame where
  context : Context
  result : StepResult
deriving Inhabited

/-- How steps are run: those in a list, or nested ones that give a value. -/
abbrev Runner := Bool → Step → Run StepResult

namespace Frame

/-- An action on a frame. -/
abbrev Act (α : Type) := Action Frame α

/-- An action on the context of a frame. -/
def inContext {α : Type} (x : Run α) : Act α :=
  Action.zoom Frame.context (fun f c => { f with context := c }) x

/-- Changes the result. -/
def note (change : StepResult → StepResult) : Act Unit :=
  Action.modify fun f => { f with result := change f.result }

/-- Runs an action in a frame of its own. Its failure comes with the result so far. -/
def enter {α : Type} (r : StepResult) (x : Act α) : Run (Except Failure α × StepResult) := fun c =>
  match x ⟨c, r⟩ with
  | (.done a, f) => (.done (.ok a, f.result), f.context)
  | (.failed e, f) => (.done (.error e, f.result), f.context)
  | (.exhausted, f) => (.exhausted, f.context)

/-- Fails as the first of some results that fails or skips, if any does. -/
def raiseFor (children : List StepResult) : Act Unit :=
  match children.findSome? fun r => if r.isFatal || r.isSkipped then r.failure else none with
  | some e => Action.fail e
  | none => Action.pure ()

/-- Takes the results of steps run on behalf of this one, with their failure or departure. -/
def adopt (children : List StepResult) : Act Unit := do
  note fun r => { r with children := r.children ++ children }
  raiseFor children
  note fun r => children.foldl (fun r child =>
    if child.returned then { r with returned := true, output := child.output } else r) r

end Frame

namespace Machine

open BlockSuite.Frame (inContext note)

/-- Runs a list of steps up to the first one that ends it. -/
def runList (run : Step → Run StepResult) : List Step → Run (List StepResult)
  | [] => return []
  | step :: rest => do
    let r ← run step
    if r.stops then return [r]
    return r :: (← runList run rest)

/-- The error of an input that is absent. -/
def missingInput (step : Step) (name : String) : BlockError :=
  .of .unresolved ("Missing required input " ++ Quoted.ofText name ++ " of " ++
    Quoted.ofText step.type)

/-- The inputs that a block declares, by name. -/
def declared (b : Block) : Dict InputSpec := Dict.ofPairs (b.parameters.map fun i => (i.name, i))

/-- The names of the inputs of a step: those declared, then those that only the step has. -/
def inputNames (b : Block) (step : Step) : List String :=
  Dict.keys (declared b) ++
    (Dict.keys step.params).filter fun name =>
      !(declared b).has name && !b.slotNames.contains name

/-- The value of an input. -/
def resolveInput (run : Runner) (b : Block) (step : Step) (name : String) : Frame.Act Value :=
  match Dict.get? step.params name with
  | some (.nested inner) => do
    let r ← inContext (run true inner)
    note fun outer => { outer with inputs := Dict.set outer.inputs name r }
    if r.isFatal || r.isSkipped then
      Action.fail (r.failure.getD
        (.raised (.of .unresolved ("Input " ++ Quoted.ofText name ++ " failed"))))
    return r.output
  | some (.literal v) => inContext (Context.fill v)
  | none =>
    match (declared b).get? name with
    | none => return .null
    | some i =>
      if i.required && i.default == .null then Action.fail (.raised (missingInput step name))
      else inContext (Context.fill i.default)

/-- The values of inputs in order. -/
def resolveAll (run : Runner) (b : Block) (step : Step) : List String → Frame.Act (Dict Value)
  | [] => return []
  | name :: rest => do
    let v ← resolveInput run b step name
    return (name, v) :: (← resolveAll run b step rest)

/-- Runs steps on behalf of a step. -/
def runBody (run : Runner) (steps : List Step) : Frame.Act Unit := do
  Frame.adopt (← inContext (runList (run false) steps))

/-- The output that the body of a step has left. -/
def bodyOutput : Frame.Act Value := Action.gets (·.result.output)

/-- Whether the body of a step has left a procedure. -/
def hasReturned : Frame.Act Bool := Action.gets (·.result.returned)

/-- Runs a body a number of times, or until it leaves a procedure. -/
def runTimes (body : Frame.Act Unit) : Nat → Frame.Act Unit
  | 0 => return ()
  | n + 1 => do
    body
    if !(← hasReturned) then runTimes body n

/-- Runs a body for each item from a position on, or until it leaves a procedure. -/
def runItems (bind : Nat → Value → Run Unit) (body : Frame.Act Unit) (index : Nat) :
    List Value → Frame.Act Unit
  | [] => return ()
  | v :: rest => do
    inContext (bind index v)
    body
    if !(← hasReturned) then runItems bind body (index + 1) rest

/-- Binds variables one by one. -/
def bindEach (bindings : Dict Value) : Run Unit :=
  Action.each (fun e => Context.setVariable e.1 e.2) bindings

/-- The variables as they were before some names were bound. -/
def restored (before : Dict Value) (names : List String) (after : Dict Value) : Dict Value :=
  names.foldl (fun d name =>
    match before.get? name with
    | some v => d.set name v
    | none => d.erase name) after

/-- A context inside a frame that was opened in it. -/
def openFrame (c : Context) : Context := { c with callDepth := c.callDepth + 1 }

/-- The context around a frame that is closed, from the context inside. The names that the frame has
bound are what they were before. -/
def closeFrame (before : Dict Value) (names : List String) (c : Context) : Context :=
  { c with
    callDepth := c.callDepth - 1
    bindings := restored before names c.bindings }

/-- What a frame gives for the results of its body: the value that it was left with, if one is
expected. -/
def frameOutput (expectReturn : Bool) (children : List StepResult) : Value :=
  match children.find? (·.returned) with
  | some r => if expectReturn then r.output else .null
  | none => .null

/-- Runs the body of a procedure. Its parameters are bound while it runs, and then are what they
were. -/
def runFrame (run : Runner) (steps : List Step) (expectReturn : Bool) (bindings : Dict Value) :
    Frame.Act Value := do
  let before := (← Action.get).context.bindings
  inContext (bindEach bindings)
  inContext (Action.modify openFrame)
  let outcome ← Action.attempt (inContext (runList (run false) steps))
  inContext (Action.modify (closeFrame before bindings.keys))
  let children ← Action.lift outcome
  note fun r => { r with children := r.children ++ children }
  Frame.raiseFor children
  return frameOutput expectReturn children

/-- Fills the placeholders in the arguments of a call. -/
def fillArguments : Dict Value → Run (Dict Value)
  | [] => return []
  | (name, v) :: rest => do
    let v ← Context.fill v
    return (name, v) :: (← fillArguments rest)

/-- Whether a name was given that is not empty. -/
def isNamed : Option String → Option String
  | some name => if name.isEmpty then none else some name
  | none => none

/-- What a failed step says. -/
def failureMessage (r : StepResult) : Option String := r.error.map (·.message)

/-- Binds the item that a loop has come to, and its position where that has a name. -/
def bindItem (binding : String) (indexBinding : Option String) (index : Nat) (v : Value) :
    Run Unit := do
  Context.setVariable binding v
  match isNamed indexBinding with
  | some name => Context.setVariable name (.int index)
  | none => return ()

/-- Logs a failure that is caught, and binds what it says where that has a name. -/
def bindCaught (errorBinding : Option String) (r : StepResult) : Run Unit := do
  Context.log .info "Caught failure of step %s: %s"
    [.text r.stepId, .text ((failureMessage r).getD "unknown error")]
  match isNamed errorBinding with
  | some name => Context.setVariable name (.ofText? (failureMessage r))
  | none => return ()

/-- The bindings of a call, which is logged. -/
def callBindings (name : String) (args : Dict Value) : Run (Dict Value) := do
  let bindings ← fillArguments args
  Context.log .info "Calling procedure %s" [.text name]
  return bindings

/-- Logs that a step leaves a procedure where none is open. -/
def warnStray : Run Unit :=
  Context.log .warning "Procedure return outside of a procedure call is ignored" []

/-- Defines a procedure, which is logged. -/
def defineLogged (name : String) (procedure : Procedure) : Run Unit := do
  Context.defineProcedure name procedure
  Context.log .debug "Defined procedure %s(%s)"
    [.text name, .text (", ".intercalate procedure.paramNames)]

/-- Does what a block asks for. -/
def perform (run : Runner) (step : Step) : Signal → Frame.Act Value
  | .branch slot => do
    runBody run (step.slot slot)
    bodyOutput
  | .countedLoop times slot => do
    runTimes (runBody run (step.slot slot)) times
    bodyOutput
  | .collectionLoop items binding slot indexBinding => do
    runItems (bindItem binding indexBinding) (runBody run (step.slot slot)) 0 items
    bodyOutput
  | .tryCatch trySlot catchSlot errorBinding => do
    let attempt ← inContext (runList (run false) (step.slot trySlot))
    match attempt.find? (·.isFatal) with
    | none => Frame.adopt attempt
    | some r =>
      note fun outer => { outer with children := outer.children ++ attempt }
      inContext (bindCaught errorBinding r)
      runBody run (step.slot catchSlot)
    bodyOutput
  | .expand steps _ frame bindings => do
    if frame then runFrame run steps true bindings
    else
      inContext (bindEach bindings)
      runBody run steps
      bodyOutput
  | .call name args procedure expectReturn => do
    let bindings ← inContext (callBindings name args)
    runFrame run procedure.steps expectReturn bindings
  | .leave v => do
    if (← Action.get).context.callDepth = 0 then inContext warnStray
    else note fun r => { r with returned := true }
    return v
  | .define name params description returnType slot => do
    inContext
      (defineLogged name (Signal.procedure step name params description returnType slot))
    return .null

/-- Marks the result where an assertion failed and was collected. -/
def markSoft (before : Nat) : Frame.Act Unit := do
  let errors := (← Action.get).context.softErrors
  if before < errors.length then
    note fun r =>
      { r with
        status := .failed
        soft := true
        error := errors.getLast?.map fun e => ⟨e.message, none, some "soft_assertion"⟩ }

/-- Announces a step: it does not start once the run is asked to stop, and hooks see the start of a
step of a list. -/
def announce (m : Machine) (nested : Bool) (step : Step) : Frame.Act Unit := do
  inContext Context.ensureRunning
  if !nested then
    inContext (Hooks.runAll m.hooks fun h => h.beforeStep.map fun f => f step)

/-- Finds the block of a step and the values of its inputs. From then on the step is the current
one. -/
def prepare (m : Machine) (run : Runner) (step : Step) : Frame.Act (Block × Dict Value) := do
  match m.blocks.lookup step.type with
  | none => Action.fail (.raised (.unknownBlock step.type))
  | some block =>
    let params ← resolveAll run block step (inputNames block step)
    inContext (Action.modify fun c => { c with currentStep := some step })
    return (block, params)

/-- Has a block answer, and marks the result where an assertion was collected meanwhile. -/
def invoke (block : Block) (params : Dict Value) : Frame.Act Answer := do
  let collected := (← Action.get).context.softErrors.length
  let answer ← inContext (block.executor params)
  markSoft collected
  return answer

/-- Runs a step up to the answer of its block. -/
def consult (m : Machine) (run : Runner) (nested : Bool) (step : Step) : Frame.Act Answer := do
  m.announce nested step
  let (block, params) ← m.prepare run step
  invoke block params

/-- Gives the value a block has answered with, or does what it asks for. -/
def respond (run : Runner) (step : Step) : Answer → Frame.Act Value
  | .value v => return v
  | .signal signal => perform run step signal

/-- Runs a step up to its value. -/
def evaluate (m : Machine) (run : Runner) (nested : Bool) (step : Step) : Frame.Act Value := do
  respond run step (← m.consult run nested step)

/-- The failed result of an error that is placed at the step. -/
def failedWith (c : Context) (step : Step) (e : BlockError) (r : StepResult) :
    Except Failure StepResult := do
  let e := e.at_
    { stepId := some (.text step.id)
      stepType := some (.text step.type)
      testName := some (.ofText? c.testName)
      row := some c.rowValue }
  let info ← (Failure.raised e).info
  return { r with
    status := .failed
    soft := false
    error := some info
    failure := some (.raised e) }

/-- The result of a step that ended in a failure. -/
def settled (c : Context) (step : Step) (r : StepResult) (f : Failure) :
    Except Failure StepResult :=
  match f with
  | .skip reason => do
    let message ← Failure.recordText "ErrorInfo" reason
    return { r with
      status := .skipped
      error := some ⟨message, none, some "skipped"⟩
      failure := some f }
  | .raised e =>
    if e.reason.isRuntime then failedWith c step e r
    else do failedWith c step (← f.wrapped) r
  | f => do failedWith c step (← f.wrapped) r

/-- The artifact hook, where the step of a result has failed and its block asks for it. -/
def artifactHookFor (m : Machine) (step : Step) (r : StepResult) : Option ArtifactHook :=
  if r.isFatal && (m.blocks.lookup step.type).any (·.snapshot) then m.artifact else none

/-- Lets the artifact hook document a failed step. -/
def attachArtifact (m : Machine) (step : Step) (r : StepResult) : Run StepResult :=
  match m.artifactHookFor step r with
  | some hook => do
    match ← Action.attempt (hook step r.failure) with
    | .ok v => return { r with artifact := v }
    | .error _ =>
      Context.log .error "Failed to capture artifact for step %s" [.text step.id]
      return r
  | none => return r

/-- Lets the hooks see the result of a step of a list; what they fail with is logged. -/
def observe (m : Machine) (nested : Bool) (step : Step) (r : StepResult) : Run Unit :=
  if nested then return ()
  else do
    match ← Action.attempt (Hooks.runAll m.hooks fun h => h.afterStep.map fun f => f step r) with
    | .ok _ => return ()
    | .error _ => Context.log .error "Hook after_step failed for step %s" [.text step.id]

/-- Runs a step up to its result. -/
def conclude (m : Machine) (run : Runner) (nested : Bool) (step : Step) : Run StepResult := do
  let previous := (← Action.get).currentStep
  let (outcome, r) ← Frame.enter (.blank step) (m.evaluate run nested step)
  let c ← Action.get
  Action.modify fun c => { c with currentStep := previous }
  match outcome with
  | .ok v => return { r with output := v }
  | .error f => Action.lift (settled c step r f)

/-- Shows the result of a step to what observes the machine. -/
def report (m : Machine) (nested : Bool) (step : Step) (r : StepResult) : Run StepResult := do
  let r ← m.attachArtifact step r
  m.observe nested step r
  return r

/-- Runs a step whose inner steps are run by another layer. -/
def runLayer (m : Machine) (run : Runner) (nested : Bool) (step : Step) : Run StepResult := do
  m.report nested step (← m.conclude run nested step)

/-- Runs a step with a number of layers. -/
def runWith (m : Machine) : Nat → Runner
  | 0 => fun _ _ => Action.exhaust
  | n + 1 => m.runLayer (runWith m n)

/-- How deep steps may be nested, the calls of procedures included. -/
def maxDepth : Nat := 10000

/-- Runs a step. -/
def runStep (m : Machine) (step : Step) : Run StepResult := m.runWith maxDepth false step

/-- Runs a list of steps. -/
def runSteps (m : Machine) (steps : List Step) : Run (List StepResult) := runList m.runStep steps

/-- Evaluates a step for its output; its failure is that of the evaluation. -/
def output (m : Machine) (step : Step) : Run Value := do
  let r ← m.runWith maxDepth true step
  match (if r.isFatal || r.isSkipped then r.failure else none) with
  | some f => Action.fail f
  | none => return r.output

/-- The inputs of a step as its block would be given them. -/
def params (m : Machine) (step : Step) (block : Block) : Run (Dict Value) := do
  let (outcome, _) ← Frame.enter (.blank step)
    (resolveAll (m.runWith maxDepth) block step (inputNames block step))
  Action.lift outcome

@[simp] theorem runList_nil (run : Step → Run StepResult) : runList run [] = pure [] := rfl

theorem runList_cons (run : Step → Run StepResult) (step : Step) (rest : List Step) :
    runList run (step :: rest) = (do
      let r ← run step
      if r.stops then return [r]
      return r :: (← runList run rest)) := rfl

@[simp] theorem runTimes_zero (body : Frame.Act Unit) : runTimes body 0 = pure () := rfl

end Machine

end BlockSuite
