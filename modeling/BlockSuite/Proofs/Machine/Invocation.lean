import BlockSuite.Proofs.Machine.Alike
import BlockSuite.Proofs.Machine.Call

/-!
The ways to invoke a procedure: by its own block, by a call, and by a call after the procedure was
defined by a step. They bind the same values to the parameters and run the same body, so they come to
the same end and leave the same variables, wherever the record of a call can be written.
-/

namespace BlockSuite

open BlockSuite.Action (Agree)

/-- The inputs of a step are literals. -/
def Step.Holds (step : Step) (values : Dict Value) : Prop :=
  ∀ name, Dict.get? step.params name = (Dict.get? values name).map .literal

lemma Step.holds_of_params {step : Step} {values : Dict Value}
    (h : step.params = values.map fun e => (e.1, .literal e.2)) : step.Holds values := by
  have hget (values : Dict Value) (name : String) :
      Dict.get? (values.map fun e => (e.1, Input.literal e.2)) name =
        (values.get? name).map .literal := by
    induction values with
    | nil => rfl
    | cons e rest ih =>
      rw [List.map_cons, Dict.get?_cons, Dict.get?_cons]
      split
      · rfl
      · exact ih
  exact fun name => h ▸ hget values name

/-- The parameters of a procedure with the values that are given for them. -/
def Procedure.assigned (p : Procedure) (given : String → Value) : Dict Value :=
  p.params.map fun q => (q.name, given q.name)

/-- What is written about a call can be written, where it is kept: that the procedure is called, and
the values that are bound. -/
structure Context.Tells (c : Context) (values : Dict Value) : Prop where
  call : c.shared.journal.keeps .info = true → c.Loggable
  shown : c.shared.journal.keeps .debug = true → ∀ e ∈ values, e.2.quoted.isOk = true

lemma Context.Tells.alike {c d : Context} {values : Dict Value} (h : c.Tells values)
    (halike : c.Alike d) : d.Tells values := by
  have hloggable (hc : c.Loggable) : d.Loggable := by
    rw [Loggable, ← halike.marks]
    exact hc
  exact ⟨fun hkeeps => hloggable (h.call (halike.keeps _ ▸ hkeeps)),
    fun hkeeps => h.shown (halike.keeps _ ▸ hkeeps)⟩

lemma Context.Tells.of_defining {c : Context} {name : String} {p : Procedure} {values : Dict Value}
    (h : (c.defining name p).Tells values) : c.Tells values :=
  ⟨fun hkeeps => (h.call hkeeps).congr ⟨rfl, rfl⟩, h.shown⟩

/-- A frame in which a step is the current one. -/
def Frame.onStep (f : Frame) (step : Step) : Frame :=
  { f with context := { f.context with currentStep := some step } }

/-- What steps come to is the same: what was run on their behalf and how it ended. -/
structure StepResult.Same (r r' : StepResult) : Prop where
  children : r.children = r'.children
  status : r.status = r'.status
  soft : r.soft = r'.soft
  error : r.error = r'.error
  output : r.output = r'.output
  returned : r.returned = r'.returned

namespace StepResult.Same

variable {r r' : StepResult}

lemma withChildren (h : r.Same r') (rs : List StepResult) :
    Same { r with children := r.children ++ rs } { r' with children := r'.children ++ rs } :=
  { h with children := congrArg (· ++ rs) h.children }

lemma withOutput (h : r.Same r') (v : Value) :
    Same { r with output := v } { r' with output := v } :=
  { h with output := rfl }

end StepResult.Same

namespace Machine

open BlockSuite.Frame (inContext note)

variable {m : Machine} {run : Runner} {step step' : Step} {b : Block} {f g : Frame} {c d : Context}
  {nested nested' : Bool} {values : Dict Value}

/-! ### Steps that hold literals -/

/-- What an input comes to: the literal that the step holds, or the default of the block. -/
def literalOf (b : Block) (values : Dict Value) (name : String) : Value :=
  (values.get? name).getD ((((declared b).get? name).map (·.default)).getD .null)

/-- A block has what it needs: no placeholder is in the literals of its step nor in its defaults, and
the inputs that it requires are there. -/
structure Suits (b : Block) (values : Dict Value) : Prop where
  plain : ∀ e ∈ values, Template.isPlain e.2 = true
  defaults : ∀ i ∈ b.parameters, Template.isPlain i.default = true
  required : ∀ i ∈ b.parameters, i.required = true → values.get? i.name ≠ none

lemma mem_declared {name : String} {i : InputSpec} (h : (declared b).get? name = some i) :
    i ∈ b.parameters ∧ i.name = name := by
  have hmem : (name, i) ∈ b.parameters.map fun i => (i.name, i) := by
    simpa using Dict.mem_update (Dict.mem_of_get? h)
  obtain ⟨j, hj, heq⟩ := List.mem_map.mp hmem
  cases heq
  exact ⟨hj, rfl⟩

lemma sourceOf_holds (h : step.Holds values) (hb : Suits b values) (name : String) :
    sourceOf b step name = .plain (literalOf b values name) := by
  rw [sourceOf, h name, literalOf]
  cases hv : values.get? name with
  | some v => rfl
  | none =>
    cases hi : (declared b).get? name with
    | none => rfl
    | some i =>
      obtain ⟨hmem, rfl⟩ := mem_declared hi
      have hoptional : i.required = false := by
        by_contra hrequired
        exact hb.required i hmem (by simpa using hrequired) hv
      simp [hoptional]

lemma literalOf_plain (hb : Suits b values) (name : String) :
    Template.isPlain (literalOf b values name) = true := by
  rw [literalOf]
  cases hv : values.get? name with
  | some v => exact hb.plain _ (Dict.mem_of_get? hv)
  | none =>
    cases hi : (declared b).get? name with
    | none => rfl
    | some i => exact hb.defaults i (mem_declared hi).1

/-- Literals come to themselves. -/
lemma resolveAll_holds (h : step.Holds values) (hb : Suits b values) (run : Runner)
    (names : List String) (f : Frame) : resolveAll run b step names f =
      (.done (names.map fun name => (name, literalOf b values name)), f) := by
  induction names with
  | nil => rfl
  | cons name rest ih =>
    have hfill : Context.fill (literalOf b values name) f.context =
        (.done (literalOf b values name), f.context) := by
      rw [fill_run, Template.fillValue_plain _ _ (literalOf_plain hb name)]
    have hinput : resolveInput run b step name f = (.done (literalOf b values name), f) := by
      rw [resolveInput_eq, sourceOf_holds h hb]
      exact Frame.inContext_run hfill
    rw [resolveAll, Action.bind_of_done hinput, Action.bind_of_done ih]
    rfl

/-- A block is given the literals that its step holds. -/
lemma prepare_holds (hm : m.blocks.lookup step.type = some b) (h : step.Holds values)
    (hb : Suits b values) (run : Runner) (f : Frame) : ∃ params,
      m.prepare run step f = (.done (b, params), f.onStep step) ∧
      ∀ i ∈ b.parameters, params.get? i.name = some (literalOf b values i.name) := by
  refine ⟨(inputNames b step).map fun name => (name, literalOf b values name), ?_, ?_⟩
  · rw [prepare, hm]
    exact Action.bind_of_done (resolveAll_holds h hb run _ f) _
  · intro i hi
    have hmem : i.name ∈ inputNames b step := by
      rw [inputNames_eq, inputOrder, List.mem_append, List.mem_eraseDups]
      exact .inl (List.mem_map.mpr ⟨i, hi, rfl⟩)
    generalize inputNames b step = names at hmem
    induction names with
    | nil => cases hmem
    | cons name rest ih =>
      rw [List.map_cons, Dict.get?_cons]
      split
      · next heq => rw [heq]
      · next hne => exact ih ((List.mem_cons.mp hmem).resolve_left fun heq => hne heq.symm)

/-! ### What watches a step -/

/-- What sees the start and the result of a step comes to its end and leaves no trace. -/
structure Unmoved (m : Machine) (step : Step) : Prop where
  beforeStep : ∀ h ∈ m.hooks, ∀ k, h.beforeStep = some k → ∀ c, ∃ c',
    k step c = (.done (), c') ∧ Context.Alike c c'
  afterStep : ∀ h ∈ m.hooks, ∀ k, h.afterStep = some k → ∀ r c, ∃ c',
    k step r c = (.done (), c') ∧ Context.Alike c c'

lemma runAll_unmoved {α : Type} {hooks : List Hooks} {event : Hooks → Option α}
    (call : α → Run Unit) (h : ∀ k ∈ hooks, ∀ f, event k = some f → ∀ c, ∃ c',
      call f c = (.done (), c') ∧ Context.Alike c c') (c : Context) :
    ∃ c', Hooks.runAll hooks (fun k => (event k).map call) c = (.done (), c') ∧ c.Alike c' := by
  have hall : ∀ x ∈ hooks.filterMap (fun k => (event k).map call), ∀ c, ∃ c',
      x c = (.done (), c') ∧ Context.Alike c c' := by
    intro x hx
    obtain ⟨k, hk, f, hf, rfl⟩ := Hooks.mem_calls hx
    exact h k hk f hf
  unfold Hooks.runAll
  generalize hooks.filterMap (fun k => (event k).map call) = xs at hall
  induction xs generalizing c with
  | nil => exact ⟨c, rfl, .refl c⟩
  | cons x rest ih =>
    obtain ⟨c₁, hx, hc₁⟩ := hall x List.mem_cons_self c
    obtain ⟨c₂, hrest, hc₂⟩ := ih c₁ fun y hy => hall y (List.mem_cons_of_mem _ hy)
    exact ⟨c₂, (Action.bind_of_done hx _).trans hrest, hc₁.trans hc₂⟩

namespace Unmoved

/-- A step begins without a trace, unless the run is asked to stop. -/
lemma begins (hstep : m.Unmoved step) (nested : Bool) (hrunning : c.shared.cancelled = false) :
    ∃ c₀, m.Begins nested step c c₀ ∧ c.Alike c₀ := by
  cases nested with
  | true => exact ⟨c, ⟨hrunning, rfl⟩, .refl c⟩
  | false =>
    obtain ⟨c₀, hrun, hc₀⟩ := runAll_unmoved (fun k : Step → Run Unit => k step)
      hstep.beforeStep c
    exact ⟨c₀, ⟨hrunning, hrun⟩, hc₀⟩

/-- The result of a step is shown without a trace, if its block asks for no artifact. -/
lemma report (hstep : m.Unmoved step) (hb : m.blocks.lookup step.type = some b)
    (hsnapshot : b.snapshot = false) (nested : Bool) (r : StepResult) (c : Context) :
    ∃ c', m.report nested step r c = (.done r, c') ∧ c.Alike c' := by
  have hattach : m.attachArtifact step r c = (.done r, c) := by
    have hnone : m.artifactHookFor step r = none := by
      simp [artifactHookFor, hb, hsnapshot]
    rw [attachArtifact, hnone]
    rfl
  have hobserve : ∃ c', m.observe nested step r c = (.done (), c') ∧ c.Alike c' := by
    unfold Machine.observe
    split
    · exact ⟨c, rfl, .refl c⟩
    · obtain ⟨c', hrun, hc'⟩ := runAll_unmoved (fun k : Step → StepResult → Run Unit => k step r)
        (fun k hk w hw => hstep.afterStep k hk w hw r) c
      exact ⟨c', Action.bind_of_done (Action.attempt_of_done hrun) _, hc'⟩
  obtain ⟨c', hobserve, hc'⟩ := hobserve
  refine ⟨c', ?_, hc'⟩
  rw [Machine.report, Action.bind_of_done hattach, Action.bind_of_done hobserve]
  rfl

end Unmoved

/-! ### The steps that invoke a procedure -/

/-- Values for the parameters of a procedure that declares no defaults. They are not null and hold no
placeholder, and the fields of the procedure's block have distinct names. -/
structure Assigns (p : Procedure) (given : String → Value) : Prop where
  bare : ∀ q ∈ p.params, q.default = .null
  distinct : (p.params.map fun q => Text.upper q.name).Nodup
  present : ∀ q ∈ p.params, given q.name ≠ .null
  plain : ∀ q ∈ p.params, Template.isPlain (given q.name) = true

/-- A step runs the block of a procedure and holds the values in its fields. -/
structure Customs (m : Machine) (p : Procedure) (given : String → Value) (step : Step) : Prop where
  block : ∃ category, m.blocks.lookup step.type = some (p.block category)
  fields : step.Holds (p.params.map fun q => (Text.upper q.name, given q.name))
  unmoved : m.Unmoved step

/-- A step calls a procedure for its value and holds the values in a mapping by parameter. -/
structure CallsFor (m : Machine) (p : Procedure) (given : String → Value) (step : Step) : Prop where
  block : m.blocks.lookup step.type = some Library.callForValue
  plainName : Template.isPlain (.text p.name) = true
  inputs : ∃ args : Dict Value, args.keys.Nodup ∧
    (∀ name, args.get? name = (p.assigned given).get? name) ∧
    step.Holds [("NAME", .text p.name), ("ARGS", .record args)]
  unmoved : m.Unmoved step

variable {p p' : Procedure} {given : String → Value}

namespace Assigns

lemma nodup_names (h : Assigns p given) : (Dict.keys (p.assigned given)).Nodup := by
  have hmap : p.params.map (fun q => Text.upper q.name) =
      (Dict.keys (p.assigned given)).map Text.upper := by
    simp [Procedure.assigned, Dict.keys]
  have hdistinct := h.distinct
  rw [hmap] at hdistinct
  exact hdistinct.of_map _

lemma plain_assigned (h : Assigns p given) :
    ∀ e ∈ p.assigned given, Template.isPlain e.2 = true := by
  intro e he
  obtain ⟨q, hq, rfl⟩ := List.mem_map.mp he
  exact h.plain q hq

lemma plain_of_get? (h : Assigns p given) {d : Dict Value} (hd : d.keys.Nodup)
    (hget : ∀ name, d.get? name = (p.assigned given).get? name) :
    ∀ e ∈ d, Template.isPlain e.2 = true := by
  intro e he
  have hmem := Dict.get?_of_mem hd he
  rw [hget] at hmem
  exact h.plain_assigned _ (Dict.mem_of_get? hmem)

end Assigns

/-- What comes behind the announcement of a step. -/
def proceed (m : Machine) (run : Runner) (step : Step) : Frame.Act Value := do
  let (block, params) ← m.prepare run step
  respond run step (← invoke block params)

lemma evaluate_eq (m : Machine) (run : Runner) (nested : Bool) (step : Step) :
    m.evaluate run nested step = (do m.announce nested step; m.proceed run step) := by
  rw [evaluate, consult, proceed]
  simp only [bind_assoc]

/-- A step proceeds with what its block asks for. -/
lemma proceed_of_answer {params : Dict Value} {answer : Answer}
    (hprepare : m.prepare run step f = (.done (b, params), f.onStep step))
    (hanswer : b.executor params (f.onStep step).context =
      (.done answer, (f.onStep step).context)) :
    m.proceed run step f = respond run step answer (f.onStep step) :=
  (Action.bind_of_done hprepare _).trans (Action.bind_of_done (invoke_same hanswer) _)

lemma block_parameters (p : Procedure) (category : String) :
    (p.block category).parameters = p.params.map fun q =>
      { name := Text.upper q.name, kind := .field, fieldType := some "text", default := q.default } := by
  refine List.filter_eq_self.mpr fun i hi => ?_
  obtain ⟨q, -, rfl⟩ := List.mem_map.mp hi
  rfl

/-- The block of a procedure runs its body in a frame over the values in its fields. -/
lemma proceed_custom (h : Assigns p given) (hstep : Customs m p given step) (run : Runner)
    (f : Frame) : m.proceed run step f =
      runFrame run p.steps true (Dict.ofPairs (p.assigned given)) (f.onStep step) := by
  obtain ⟨category, hblock⟩ := hstep.block
  let values : Dict Value := p.params.map fun q => (Text.upper q.name, given q.name)
  have hparameter {i : InputSpec} (hi : i ∈ (p.block category).parameters) :
      i.required = false ∧ Template.isPlain i.default = true := by
    rw [block_parameters] at hi
    obtain ⟨q, hq, rfl⟩ := List.mem_map.mp hi
    exact ⟨rfl, by rw [h.bare q hq]; rfl⟩
  have hsuits : Suits (p.block category) values := by
    refine ⟨fun e he => ?_, fun i hi => (hparameter hi).2, fun i hi hrequired => ?_⟩
    · obtain ⟨q, hq, rfl⟩ := List.mem_map.mp he
      exact h.plain q hq
    · rw [(hparameter hi).1] at hrequired
      cases hrequired
  obtain ⟨params, hprepare, hparams⟩ := prepare_holds hblock hstep.fields hsuits run f
  -- No value is null, so no field falls back to the default.
  have hfield (q : Param) (hq : q ∈ p.params) :
      Procedure.fieldValue params q = given q.name := by
    have hkeys : Dict.keys values = p.params.map fun q => Text.upper q.name := by
      simp [values, Dict.keys]
    have hvalue : values.get? (Text.upper q.name) = some (given q.name) :=
      Dict.get?_of_mem (hkeys ▸ h.distinct) (List.mem_map.mpr ⟨q, hq, rfl⟩)
    have hparam := hparams _ (block_parameters p category ▸ List.mem_map.mpr ⟨q, hq, rfl⟩)
    rw [literalOf, hvalue] at hparam
    rw [Procedure.fieldValue, hparam]
    cases hgiven : given q.name with
    | null => exact absurd hgiven (h.present q hq)
    | _ => rfl
  have hexpansion : p.expansion params =
      .expand p.steps (some p.name) true (Dict.ofPairs (p.assigned given)) := by
    rw [Procedure.expansion, Procedure.assigned,
      List.map_congr_left fun q hq => by rw [hfield q hq]]
  have hanswer : (p.block category).executor params (f.onStep step).context =
      (.done (.signal (p.expansion params)), (f.onStep step).context) := rfl
  rw [proceed_of_answer hprepare hanswer, respond, perform_eq, hexpansion]
  rfl

lemma callForValue_suits {args : Dict Value} (hname : Template.isPlain (.text p.name) = true)
    (hargs : ∀ e ∈ args, Template.isPlain e.2 = true) :
    Suits Library.callForValue [("NAME", .text p.name), ("ARGS", .record args)] where
  plain e he := by
    rcases List.mem_cons.mp he with rfl | he
    · exact hname
    · rw [List.mem_singleton.mp he]
      exact Template.isPlain_record hargs
  defaults i hi := by
    change i ∈ Library.callInputs at hi
    rcases List.mem_cons.mp hi with rfl | hi
    · rfl
    · rw [List.mem_singleton.mp hi]
      decide +kernel
  required i hi hrequired := by
    change i ∈ Library.callInputs at hi
    rcases List.mem_cons.mp hi with rfl | hi
    · exact Option.some_ne_none _
    · rw [List.mem_singleton.mp hi] at hrequired
      cases hrequired

/-- A call asks for the body of the procedure, with the arguments that its step holds. -/
lemma proceed_asks (h : Assigns p given) (hstep : CallsFor m p given step) (run : Runner)
    (found : f.context.shared.procedures.lookup p.name = some p')
    (hface : p'.interface = p.interface) :
    ∃ args : Dict Value, args.keys.Nodup ∧
      (∀ name, args.get? name = (p.assigned given).get? name) ∧
      m.proceed run step f =
        respond run step (.signal (.call p.name args p' true)) (f.onStep step) := by
  obtain ⟨args, hnodup, hargs, hholds⟩ := hstep.inputs
  obtain ⟨params, hprepare, hparams⟩ := prepare_holds hstep.block hholds
    (callForValue_suits hstep.plainName (h.plain_of_get? hnodup hargs)) run f
  have hname : params.get? "NAME" = some (.text p.name) :=
    hparams (Library.textField "NAME" .null true) List.mem_cons_self
  have hinput : Library.input params "ARGS" = .record args := by
    have hget := hparams (Library.textField "ARGS" (.text ""))
      (List.mem_cons_of_mem _ List.mem_cons_self)
    change params.get? "ARGS" = some (.record args) at hget
    rw [Library.input, hget]
    rfl
  have hgiven : p'.arguments (Library.input params "ARGS") = .ok (Arguments.members args) := by
    have hbare : Arguments.bindFrom (Arguments.members args) [] p.params = Arguments.members args :=
      Arguments.bindFrom_bare h.bare
    rw [hinput, Procedure.arguments_congr hface]
    change Except.ok (Arguments.bindFrom (Arguments.members args) [] p.params) = _
    rw [hbare]
  have hexecutor := callWith_run (c := (f.onStep step).context) hname rfl found hgiven
    (Check.mapping_record args) true
  refine ⟨Dict.ofPairs args, Dict.nodup_keys_ofPairs args, fun name => ?_,
    proceed_of_answer hprepare hexecutor⟩
  rw [Dict.get?_ofPairs hnodup, hargs]

/-- A call runs the body of a procedure in a frame over its arguments, once the call is on record. -/
lemma proceed_call (h : Assigns p given) (hstep : CallsFor m p given step) (run : Runner)
    (found : f.context.shared.procedures.lookup p.name = some p')
    (hface : p'.interface = p.interface)
    (hc : f.context.shared.journal.keeps .info = true → f.context.Loggable) :
    ∃ (bindings : Dict Value) (records : List (Level × String)), bindings.keys.Nodup ∧
      (∀ name, bindings.get? name = (p.assigned given).get? name) ∧
      m.proceed run step f = runFrame run p.steps true bindings
        { f.onStep step with context := (f.onStep step).context.withRecords records } := by
  obtain ⟨args, hnodup, hargs, hproceed⟩ := proceed_asks h hstep run found hface
  -- No placeholder is in the arguments, so filling them once more leaves them as they are.
  obtain ⟨records, hcall⟩ := callBindings_exists (c := (f.onStep step).context)
    (fun hkeeps => (hc hkeeps).congr ⟨rfl, rfl⟩) p.name
    (fillArguments_plain (h.plain_of_get? hnodup hargs) _)
  refine ⟨args, records, hnodup, hargs, ?_⟩
  have hsteps : p'.steps = p.steps := congrArg (·.2.2) hface
  rw [hproceed, respond, perform_eq, ← hsteps]
  exact Action.bind_of_done (Frame.inContext_run hcall) _

/-! ### The step that defines a procedure -/

/-- A step defines a procedure: it holds the name and a list of the parameters, and its slot holds
the steps. -/
structure Defines (m : Machine) (p : Procedure) (step : Step) : Prop where
  block : m.blocks.lookup step.type = some Library.defineProcedure
  named : p.name ≠ ""
  plainName : Template.isPlain (.text p.name) = true
  inputs : ∃ list params, Param.ofText list = .ok params ∧
    params.map (·.name) = p.paramNames ∧ Template.isPlain (.text list) = true ∧
    step.Holds [("NAME", .text p.name), ("PARAMS", .text list)]
  body : step.slot Signal.bodySlot = p.steps
  unmoved : m.Unmoved step

/-- Every procedure whose parameters are named like variables can be defined by a step: the list is
written with the names of the parameters. -/
lemma Defines.of_names (hblock : m.blocks.lookup step.type = some Library.defineProcedure)
    (hnamed : p.name ≠ "") (hplain : Template.isPlain (.text p.name) = true)
    (hparams : ∀ q ∈ p.params, Name.isVariable q.name = true)
    (hholds : step.Holds [("NAME", .text p.name),
      ("PARAMS", .text (", ".intercalate p.paramNames))])
    (hbody : step.slot Signal.bodySlot = p.steps) (hstep : m.Unmoved step) : Defines m p step := by
  have hdollar {s : String} (hs : Name.isVariable s = true) : '$' ∉ s.toList :=
    Name.not_mem_of_isVariable hs (by decide) (by decide)
  have hnames : ∀ name ∈ p.paramNames, Name.isVariable name = true := by
    intro name hmem
    obtain ⟨q, hq, rfl⟩ := List.mem_map.mp hmem
    exact hparams q hq
  have hlist : '$' ∉ (", ".intercalate p.paramNames).toList := by
    rw [String.toList_intercalate]
    refine Text.not_mem_intercalate (by decide) fun ds hds => ?_
    obtain ⟨name, hmem, rfl⟩ := List.mem_map.mp hds
    exact hdollar (hnames name hmem)
  have hread : (p.paramNames.map Param.named).map (·.name) = p.paramNames := by
    rw [List.map_map]
    exact List.map_id _
  exact ⟨hblock, hnamed, hplain,
    ⟨_, _, Param.ofText_names hnames, hread, Template.isPlain_of_not_mem hlist, hholds⟩, hbody, hstep⟩

lemma defineProcedure_suits {list : String} (hname : Template.isPlain (.text p.name) = true)
    (hlist : Template.isPlain (.text list) = true) :
    Suits Library.defineProcedure [("NAME", .text p.name), ("PARAMS", .text list)] where
  plain e he := by
    rcases List.mem_cons.mp he with rfl | he
    · exact hname
    · rw [List.mem_singleton.mp he]
      exact hlist
  defaults i hi := by
    have hall : Library.defineProcedure.parameters.all (fun i => Template.isPlain i.default) = true := by
      decide +kernel
    exact List.all_eq_true.mp hall i hi
  required i hi hrequired := by
    have hall : Library.defineProcedure.parameters.all (fun i => !i.required || i.name == "NAME") =
        true := by decide +kernel
    have hname := List.all_eq_true.mp hall i hi
    rw [hrequired, Bool.not_true, Bool.false_or, beq_iff_eq] at hname
    rw [hname]
    exact Option.some_ne_none _

/-- The block that defines procedures asks for what its step holds. -/
lemma defineProcedure_run {given : Dict Value} {name list : String} {params : List Param}
    (hname : given.get? "NAME" = some (.text name)) (hnamed : name ≠ "")
    (hdescription : given.get? "DESCRIPTION" = some (.text ""))
    (hlist : given.get? "PARAMS" = some (.text list)) (hread : Param.ofText list = .ok params)
    (c : Context) : Library.defineProcedure.executor given c =
      (.done (.signal (.define name params none none Signal.bodySlot)), c) := by
  have htext {key text : String} (hget : given.get? key = some (.text text)) :
      Library.textOf (Library.orElse (Library.input given key) (.text "")) c = (.done text, c) := by
    have hvalue : Library.orElse (Library.input given key) (.text "") = .text text := by
      rw [Library.input, hget, Option.getD_some, Library.orElse]
      split
      · rfl
      · next hfalse =>
        have hempty : text.isEmpty = true := by simpa [Value.isTruthy] using hfalse
        rw [String.isEmpty_iff.mp hempty]
    rw [hvalue]
    rfl
  have hnonempty : Check.nonemptyText (.text name) = .ok name := by
    have hfull : name.isEmpty = false := by
      rw [← Bool.not_eq_true, String.isEmpty_iff]
      exact hnamed
    change (if name.isEmpty then _ else pure name : Except _ String) = _
    rw [hfull]
    rfl
  have hdeclared : Action.lift ((Param.ofText list).mapError .invalid) c = (.done params, c) := by
    rw [hread]
    rfl
  refine (Action.bind_of_done (needText_run hname rfl c) _).trans ?_
  refine (Action.bind_of_done (htext hdescription) _).trans ?_
  refine (Action.bind_of_done (htext hlist) _).trans ?_
  refine (Action.bind_of_done hdeclared _).trans ?_
  rw [hnonempty]
  rfl

/-- A procedure is defined, and a record is written about it. -/
lemma defineLogged_exists (hc : c.shared.journal.keeps .debug = true → c.Loggable) (name : String)
    (p : Procedure) : ∃ records,
      defineLogged name p c = (.done (), (c.defining name p).withRecords records) := by
  have hloggable (hkeeps : (c.defining name p).shared.journal.keeps .debug = true) :
      (c.defining name p).Loggable := (hc hkeeps).congr ⟨rfl, rfl⟩
  obtain ⟨c', hlog⟩ := Context.log_exists hloggable "Defined procedure %s(%s)"
    [.text name, .text (", ".intercalate p.paramNames)] rfl
  obtain ⟨records, rfl⟩ := Context.log_leaves hlog
  exact ⟨records, hlog⟩

/-- A step that defines a procedure does so, and gives nothing. -/
lemma proceed_define (hbare : ∀ q ∈ p.params, q.default = .null) (hstep : Defines m p step)
    (run : Runner) (hc : f.context.shared.journal.keeps .debug = true → f.context.Loggable) :
    ∃ c, m.proceed run step f = (.done .null, { f with context := c }) ∧
      (f.context.defining p.name p).Alike c := by
  obtain ⟨list, params, hread, hnames, hplain, hholds⟩ := hstep.inputs
  obtain ⟨given, hprepare, hgiven⟩ := prepare_holds hstep.block hholds
    (defineProcedure_suits hstep.plainName hplain) run f
  have hparameters : Library.defineProcedure.parameters =
      [Library.textField "NAME" .null true, Library.textField "DESCRIPTION" (.text ""),
        Library.textField "PARAMS" (.text "")] := rfl
  rw [hparameters] at hgiven
  have hname : given.get? "NAME" = some (.text p.name) := hgiven _ List.mem_cons_self
  have hdescription : given.get? "DESCRIPTION" = some (.text "") :=
    hgiven _ (List.mem_cons_of_mem _ List.mem_cons_self)
  have hlist : given.get? "PARAMS" = some (.text list) :=
    hgiven _ (List.mem_cons_of_mem _ (List.mem_cons_of_mem _ List.mem_cons_self))
  have hexecutor := defineProcedure_run hname hstep.named hdescription hlist hread
    (f.onStep step).context
  let defined : Procedure := Signal.procedure step p.name params none none Signal.bodySlot
  have hface : p.interface = defined.interface :=
    Procedure.interface_of_bare rfl hbare (Param.ofText_bare hread) hnames.symm hstep.body.symm
  obtain ⟨records, hdefine⟩ := defineLogged_exists (c := (f.onStep step).context)
    (fun hkeeps => (hc hkeeps).congr ⟨rfl, rfl⟩) p.name defined
  refine ⟨((f.onStep step).context.defining p.name defined).withRecords records, ?_, ?_⟩
  · rw [proceed_of_answer hprepare hexecutor, respond, perform_eq]
    exact Action.bind_of_done (Frame.inContext_run hdefine) _
  · have halike := (Context.Alike.refl f.context).defining p.name hface
    exact { halike with }

/-! ### The same end -/

/-- A failure is recorded alike for any two steps. -/
lemma settled_agrees {r r' : StepResult} (e : Failure) (hr : r.Same r') (h : c.Alike d)
    (c₀ d₀ : Context) :
    Agree Context.Alike StepResult.Same (Action.lift (settled c₀ step r e)) c
      (Action.lift (settled d₀ step' r' e)) d := by
  have hfailed (e : BlockError) :
      Agree Context.Alike StepResult.Same (Action.lift (failedWith c₀ step e r)) c
        (Action.lift (failedWith d₀ step' e r')) d := by
    rw [failedWith, failedWith, info_at, info_at]
    cases (Failure.raised e).info with
    | error x => exact .fail x h
    | ok info =>
      exact .pure (R := StepResult.Same) { hr with status := rfl, soft := rfl, error := rfl } h
  have hwrapped {e : Failure} (he : e.passes = false) :
      Agree Context.Alike StepResult.Same (Action.lift (settled c₀ step r e)) c
        (Action.lift (settled d₀ step' r' e)) d := by
    rw [settled_wrapped he, settled_wrapped he]
    cases e.wrapped with
    | error x => exact .fail x h
    | ok e => exact hfailed e
  cases hp : e.passes with
  | false => exact hwrapped hp
  | true =>
    cases e with
    | skip reason =>
      rw [settled_skip, settled_skip]
      cases Failure.recordText "ErrorInfo" reason with
      | error x => exact .fail x h
      | ok message =>
        exact .pure (R := StepResult.Same) { hr with status := rfl, error := rfl } h
    | raised e =>
      rw [settled_runtime hp, settled_runtime hp]
      exact hfailed e
    | fault kind argument => cases hp
    | invalid e => cases hp

/-- Frames over the same values bind them alike, where that can be written. -/
lemma bindEach_agrees {b b' : Dict Value} (h : c.Alike d) (hb : b.keys.Nodup)
    (hb' : b'.keys.Nodup) (hget : ∀ name, b.get? name = b'.get? name) (hc : c.Tells b) :
    Agree Context.Alike Eq (bindEach b) c (bindEach b') d := by
  have hd : d.Tells b' := by
    refine ⟨(hc.alike h).call, fun hkeeps e he => ?_⟩
    have hmem := Dict.get?_of_mem hb' he
    rw [← hget] at hmem
    exact (hc.alike h).shown hkeeps _ (Dict.mem_of_get? hmem)
  obtain ⟨c', hbinds⟩ := bindEach_exists (fun hkeeps => hc.call (Context.keeps_info hkeeps)) hc.shown
  obtain ⟨d', hbinds'⟩ := bindEach_exists (fun hkeeps => hd.call (Context.keeps_info hkeeps)) hd.shown
  obtain ⟨records, rfl⟩ := bindEach_leaves hbinds
  obtain ⟨records', rfl⟩ := bindEach_leaves hbinds'
  refine .of_run hbinds hbinds' (.done rfl) ((h.withBindings fun name => ?_).withRecords _ _)
  rw [Dict.get?_update hb, Dict.get?_update hb', hget, h.bindings]

/-- A procedure is run alike by its block and by a call. -/
lemma proceed_agrees (hrun : Runner.Impartial run) (h : Assigns p given)
    (hcustom : Customs m p given step) (hcall : CallsFor m p given step')
    (hfg : f.Beside Context.Alike StepResult.Same g)
    (found : (g.context.shared.procedures.lookup p.name).map Procedure.interface =
      some p.interface)
    (hf : f.context.Tells (p.assigned given)) :
    Agree (Frame.Beside Context.Alike StepResult.Same) Eq (m.proceed run step) f (m.proceed run step') g := by
  obtain ⟨p', hlookup, hface⟩ := Option.map_eq_some_iff.mp found
  obtain ⟨bindings, records, hnodup, hget, hproceed⟩ :=
    proceed_call h hcall run hlookup hface (hf.alike hfg.context).call
  have hassigned (name : String) :
      (Dict.ofPairs (p.assigned given)).get? name = bindings.get? name := by
    rw [Dict.get?_ofPairs h.nodup_names, hget]
  have hshown : f.context.Tells (Dict.ofPairs (p.assigned given)) :=
    ⟨hf.call, fun hkeeps e he => hf.shown hkeeps e (by simpa using Dict.mem_update he)⟩
  refine .congr (proceed_custom h hcustom run f) hproceed ?_
  have halike : Frame.Beside Context.Alike StepResult.Same (f.onStep step)
      { g.onStep step' with context := (g.onStep step').context.withRecords records } :=
    ⟨{ hfg.context with }, hfg.result⟩
  refine runFrame_agrees (Q := Eq) (fun _ _ h => congrArg StepResult.shell h) ?_
    (fun _ _ h => h.opened) (fun _ _ h => h.closed halike.context.bindings fun name => ?_) ?_
    (fun c _ => hrun.lists p.steps _) halike
  · rintro r r' rs rs' hr hrs
    rw [List.forall₂_eq_eq_eq] at hrs
    exact hrs ▸ hr.withChildren rs
  · rw [← not_iff_not, ← Dict.get?_eq_none_iff, ← Dict.get?_eq_none_iff, hassigned]
  · exact bindEach_agrees halike.context (Dict.nodup_keys_ofPairs _) hnodup hassigned
      ⟨fun hkeeps => (hshown.call hkeeps).congr ⟨rfl, rfl⟩, hshown.shown⟩

/-- **A procedure is run alike by its block and by a call**, in contexts that are alike. -/
lemma runWith_agrees (hm : m.Impartial) (layers : Nat) (h : Assigns p given)
    (hcustom : Customs m p given step) (hcall : CallsFor m p given step') (hcd : c.Alike d)
    (found : (c.shared.procedures.lookup p.name).map Procedure.interface = some p.interface)
    (hc : c.Tells (p.assigned given)) (nested nested' : Bool) :
    Agree Context.Alike StepResult.Same (m.runWith (layers + 1) nested step) c
      (m.runWith (layers + 1) nested' step') d := by
  have hevaluate : Agree (Frame.Beside Context.Alike StepResult.Same) Eq
      (m.evaluate (m.runWith layers) nested step) ⟨c, .blank step⟩
      (m.evaluate (m.runWith layers) nested' step') ⟨d, .blank step'⟩ := by
    rw [evaluate_eq, evaluate_eq]
    have hblank : StepResult.Same (.blank step) (.blank step') := ⟨rfl, rfl, rfl, rfl, rfl, rfl⟩
    cases hcancelled : c.shared.cancelled with
    | true =>
      -- A run that is asked to stop ends both steps before anything is prepared.
      exact .of_run (Action.bind_of_failed (announce_cancelled hcancelled nested) _)
        (Action.bind_of_failed (announce_cancelled (hcd.cancelled ▸ hcancelled) nested') _)
        (.failed _) ⟨hcd, hblank⟩
    | false =>
      obtain ⟨c₁, hbegins, hc₁⟩ := hcustom.unmoved.begins nested hcancelled
      obtain ⟨d₁, hbegins', hd₁⟩ := hcall.unmoved.begins nested' (hcd.cancelled ▸ hcancelled)
      refine .congr (Action.bind_of_done (hbegins.announce _) _)
        (Action.bind_of_done (hbegins'.announce _) _) ?_
      refine proceed_agrees (hm.runWith layers) h hcustom hcall
        ⟨hc₁.symm.trans (hcd.trans hd₁), hblank⟩ ?_ (hc.alike hc₁)
      exact (hcd.trans hd₁).procedures p.name ▸ found
  have hconclude := conclude_agrees (P := StepResult.Same) (fun _ _ h => h.withStep _ _) hevaluate
    (fun r r' v hr => hr.withOutput v)
    fun c d r r' e _ hr c' d' h' => settled_agrees e hr h' c d
  refine hconclude.bind fun r c' r' d' _ _ hr h' => ?_
  obtain ⟨category, hblock⟩ := hcustom.block
  obtain ⟨c'', hreport, hc'⟩ := hcustom.unmoved.report hblock rfl nested r c'
  obtain ⟨d'', hreport', hd'⟩ := hcall.unmoved.report hcall.block rfl nested' r' d'
  exact .of_run hreport hreport' (.done hr) (hc'.symm.trans (h'.trans hd'))

/-- A step that defines a procedure passes, and the procedure is defined behind it. -/
lemma define_passes (layers : Nat) (hbare : ∀ q ∈ p.params, q.default = .null)
    (hstep : Defines m p step) (hrunning : c.shared.cancelled = false)
    (hc : c.shared.journal.keeps .debug = true → c.Loggable) (nested : Bool) : ∃ r c',
      m.runWith (layers + 1) nested step c = (.done r, c') ∧ r.status = .passed ∧
      (c.defining p.name p).Alike c' := by
  obtain ⟨c₁, hbegins, hc₁⟩ := hstep.unmoved.begins nested hrunning
  have hloggable (hkeeps : c₁.shared.journal.keeps .debug = true) : c₁.Loggable := by
    rw [Context.Loggable, ← hc₁.marks]
    exact hc (hc₁.keeps _ ▸ hkeeps)
  obtain ⟨c₂, hproceed, hc₂⟩ :=
    proceed_define (f := ⟨c₁, .blank step⟩) hbare hstep (m.runWith layers) hloggable
  have hevaluate : m.evaluate (m.runWith layers) nested step ⟨c, .blank step⟩ =
      (.done .null, ⟨c₂, .blank step⟩) := by
    rw [evaluate_eq]
    exact (Action.bind_of_done (hbegins.announce _) _).trans hproceed
  obtain ⟨c₃, hreport, hc₃⟩ := hstep.unmoved.report hstep.block rfl nested
    { StepResult.blank step with output := .null } { c₂ with currentStep := c.currentStep }
  refine ⟨_, c₃, (Action.bind_of_done (conclude_of_done hevaluate) _).trans hreport, rfl, ?_⟩
  have hrestored : Context.Alike c₂ { c₂ with currentStep := c.currentStep } :=
    (Context.Alike.refl c₂).withStep _ _
  exact (hc₁.defining p.name rfl).trans (hc₂.trans (hrestored.trans hc₃))

/-- **A procedure does the same however it is invoked**: by its own block, by a call, and by a call
behind the step that defines it. These come to the same end, with the same results of the steps of
the body, and leave the same variables, in every context in which what is written about a call can be
written. -/
theorem procedures_are_invoked_alike (hm : m.Impartial) (layers : Nat) (h : Assigns p given)
    {custom call : Step} (hcustom : Customs m p given custom) (hcall : CallsFor m p given call)
    (found : c.shared.procedures.lookup p.name = some p) (hc : c.Tells (p.assigned given))
    (nested nested' : Bool) :
    Agree Context.Alike StepResult.Same (m.runWith (layers + 1) nested custom) c
      (m.runWith (layers + 1) nested' call) c ∧
    ∀ define d, Defines m p define → (d.defining p.name p).Alike c → d.shared.cancelled = false →
      ∃ r d', m.runWith (layers + 1) nested' define d = (.done r, d') ∧ r.status = .passed ∧
        Agree Context.Alike StepResult.Same (m.runWith (layers + 1) nested custom) c
          (m.runWith (layers + 1) nested' call) d' ∧
        Agree Context.Alike Eq (m.runWith (layers + 1) nested' call) c
          (m.runWith (layers + 1) nested' call) d' := by
  have hface : (c.shared.procedures.lookup p.name).map Procedure.interface = some p.interface := by
    rw [found]
    rfl
  refine ⟨runWith_agrees hm layers h hcustom hcall (.refl c) hface hc nested nested', ?_⟩
  intro define d hdefine hdc hrunning
  have hd : d.Tells (p.assigned given) := (hc.alike hdc.symm).of_defining
  obtain ⟨r, d', hrun, hpassed, halike⟩ := define_passes layers h.bare hdefine hrunning
    (fun hkeeps => hd.call (Context.keeps_info hkeeps)) nested'
  have hcd := hdc.symm.trans halike
  exact ⟨r, d', hrun, hpassed, runWith_agrees hm layers h hcustom hcall hcd hface hc nested nested',
    hm.runWith (layers + 1) nested' call c d' hcd⟩

/-- A procedure that gives its parameter back. -/
def echo : Procedure where
  name := "echo"
  description := none
  params := [.named "p"]
  returnType := none
  steps := [⟨"back", "procedure_return",
    [("VALUE", .nested ⟨"read", "procedure_get_param", [("NAME", .literal (.text "p"))], []⟩)], []⟩]

/-- A machine of the block of the procedure and those of the library. -/
def echoing : Machine :=
  { blocks := [(Name.customBlockType "echo", echo.block) ::
      Library.catalog.map fun b => (b.type, b)] }

lemma echoing_impartial : echoing.Impartial where
  executor type b hb := by
    obtain ⟨d, hd, hentry⟩ := Layers.mem_of_lookup hb
    rw [List.mem_singleton.mp hd] at hentry
    rcases List.mem_cons.mp hentry with heq | hmem
    · cases heq
      exact echo.block_impartial _
    · obtain ⟨b, hcatalog, heq⟩ := List.mem_map.mp hmem
      cases heq
      exact Library.catalog_impartial hcatalog
  beforeStep h hh := by cases hh
  afterStep h hh := by cases hh
  artifact hook hk := by cases hk

lemma echoing_unmoved (step : Step) : echoing.Unmoved step where
  beforeStep h hh := by cases hh
  afterStep h hh := by cases hh

/-- What the procedure is told. -/
def told : String → Value := fun _ => .text "hello"

lemma told_assigns : Assigns echo told where
  bare q hq := by rw [List.mem_singleton.mp hq]; rfl
  distinct := List.nodup_singleton _
  present q hq := by rintro ⟨⟩
  plain _ _ := Template.isPlain_of_not_mem (by decide)

/-- A step that runs the block of the procedure. -/
def echoBlock : Step := ⟨"block", "custom_echo", [("P", .literal (.text "hello"))], []⟩

/-- A step that calls the procedure. -/
def echoCall : Step :=
  ⟨"call", "procedure_call_with_return",
    [("NAME", .literal (.text "echo")), ("ARGS", .literal (.record [("p", .text "hello")]))], []⟩

/-- A step that defines the procedure. -/
def echoDefine : Step :=
  ⟨"define", "procedure_define",
    [("NAME", .literal (.text "echo")), ("PARAMS", .literal (.text "p"))], [("DO", echo.steps)]⟩

lemma echoBlock_customs : Customs echoing echo told echoBlock where
  block := ⟨_, rfl⟩
  fields := Step.holds_of_params rfl
  unmoved := echoing_unmoved _

lemma echoCall_calls : CallsFor echoing echo told echoCall where
  block := rfl
  plainName := by decide +kernel
  inputs := ⟨[("p", .text "hello")], by decide, fun _ => rfl, Step.holds_of_params rfl⟩
  unmoved := echoing_unmoved _

lemma echoDefine_defines : Defines echoing echo echoDefine := by
  refine .of_names rfl (by decide) (by decide +kernel) (fun q hq => ?_)
    (Step.holds_of_params rfl) rfl (echoing_unmoved _)
  rw [List.mem_singleton.mp hq]
  decide

/-- A test that is logged, before the procedure is defined. -/
def tested (name : String) : Context :=
  { testName := some name, shared := { journal := { level := .info } } }

theorem procedures_are_invoked_alike_sale :
    echoing.Impartial ∧ Assigns echo told ∧ Customs echoing echo told echoBlock ∧
    CallsFor echoing echo told echoCall ∧ Defines echoing echo echoDefine ∧
    ((tested "sale").defining "echo" echo).Tells (echo.assigned told) ∧ ∃ r c,
      echoing.runWith 3 false echoDefine (tested "sale") = (.done r, c) ∧ r.status = .passed ∧
      Agree Context.Alike StepResult.Same
        (echoing.runWith 3 false echoBlock) ((tested "sale").defining "echo" echo)
        (echoing.runWith 3 false echoCall) c := by
  have hloggable : (tested "sale").Loggable := ⟨"[sale] ", rfl, by decide⟩
  have htells : ((tested "sale").defining "echo" echo).Tells (echo.assigned told) :=
    ⟨fun _ => hloggable.congr ⟨rfl, rfl⟩, fun hkeeps => by cases hkeeps⟩
  obtain ⟨-, hdefined⟩ := procedures_are_invoked_alike echoing_impartial 2 told_assigns
    echoBlock_customs echoCall_calls (c := (tested "sale").defining "echo" echo) rfl htells
    false false
  obtain ⟨r, c, hrun, hpassed, hagree, -⟩ :=
    hdefined echoDefine (tested "sale") echoDefine_defines (.refl _) rfl
  exact ⟨echoing_impartial, told_assigns, echoBlock_customs, echoCall_calls, echoDefine_defines,
    htells, r, c, hrun, hpassed, hagree⟩

/-- With a percent sign in the name of the test a call cannot be logged: it fails, while the block of
the procedure passes. -/
theorem half_calls_fail : ∃ c, c = (tested "50% done").defining "echo" echo ∧
    Assigns echo told ∧ Customs echoing echo told echoBlock ∧ CallsFor echoing echo told echoCall ∧
    c.shared.procedures.lookup "echo" = some echo ∧ ∃ r r' c₁ c₂,
      echoing.runWith 3 false echoBlock c = (.done r, c₁) ∧ r.status = .passed ∧
      echoing.runWith 3 false echoCall c = (.done r', c₂) ∧ r'.status = .failed := by
  let c : Context := (tested "50% done").defining "echo" echo
  obtain ⟨r, c₁, hblock, hpassed⟩ := Action.exists_done_eq (s := c) (b := Status.passed)
    (x := echoing.runWith 3 false echoBlock) (g := (·.status)) (by decide +kernel)
  obtain ⟨r', c₂, hcall, hfailed⟩ := Action.exists_done_eq (s := c) (b := Status.failed)
    (x := echoing.runWith 3 false echoCall) (g := (·.status)) (by decide +kernel)
  exact ⟨c, rfl, told_assigns, echoBlock_customs, echoCall_calls, rfl, r, r', c₁, c₂, hblock,
    hpassed, hcall, hfailed⟩

end Machine

end BlockSuite
