import BlockSuite.Library.Calls
import BlockSuite.Proofs.Log
import BlockSuite.Proofs.Procedure
import BlockSuite.Proofs.Template
import BlockSuite.Proofs.Machine.Inputs

/-!
Calls of procedures. A call maps its arguments to the parameters, with defaults for those that it does
not supply, fills the placeholders in them in the variables of the caller, and binds them for the body.
-/

namespace BlockSuite

/-- The parameters of a procedure that a call does not supply. -/
def Procedure.Unsupplied (p : Procedure) (given : Value) (name : String) : Prop :=
  name ∈ p.paramNames ∧ ¬(Arguments.ofValue given).Supplies p name

/-- Two callers that differ only in variables of some names. -/
structure Context.AlikeBut (names : String → Prop) (c c' : Context) : Prop where
  row : c.row = c'.row
  bindings : ∀ name, ¬names name → c.bindings.get? name = c'.bindings.get? name

lemma Context.AlikeBut.binding {names : String → Prop} {c c' : Context} (h : c.AlikeBut names c')
    {name : String} (hname : ¬names name) : c.scopes.binding? name = c'.scopes.binding? name := by
  have hget := h.bindings name hname
  unfold Context.scopes
  rw [← h.row]
  cases c.row with
  | none => simp only [Scopes.binding?, List.findSome?_cons, hget]
  | some row => simp only [Scopes.binding?, List.findSome?_cons, hget]

/-- Whether a placeholder in some arguments leads to a variable of some names. -/
def Mentions (bound : List (Value × Value)) (names : String → Prop) : Prop :=
  ∃ path ∈ Template.pathsIn (.dict bound), ∃ p, Path.ofText path = .ok p ∧ names p.name

namespace Machine

open BlockSuite.Frame (inContext note)

variable {m : Machine} {run : Runner} {step : Step} {c c' : Context} {f f' : Frame}
  {name : String} {params : Dict Value} {procedure : Procedure}

/-! ### The arguments of a call -/

/-- The block that calls procedures, for their value or without. -/
def callBlock (expectReturn : Bool) : Block :=
  if expectReturn then Library.callForValue else Library.call

lemma callBlock_executor (expectReturn : Bool) :
    (callBlock expectReturn).executor = Library.callWith expectReturn := by
  cases expectReturn <;> rfl

lemma needText_run {key : String} {v : Value} (hv : params.get? key = some v)
    (hname : v.toText = .ok name) (c : Context) :
    Library.needText params key c = (.done name, c) := by
  have hneed : Library.need params key c = (.done v, c) := by rw [Library.need, hv]; rfl
  rw [Library.needText, Action.bind_of_done hneed, Library.textOf, Action.compute_run, hname]

lemma procedure_run (h : c.shared.procedures.lookup name = some procedure) :
    Context.procedure name c = (.done procedure, c) := by
  rw [Context.procedure, Action.bind_of_done (Action.get_run c), h]
  rfl

/-- What a call block asks for. -/
lemma callWith_run {v : Value} {bound : List (Value × Value)} {args : Dict Value}
    (hv : params.get? "NAME" = some v) (hname : v.toText = .ok name)
    (found : c.shared.procedures.lookup name = some procedure)
    (given : procedure.arguments (Library.input params "ARGS") = .ok bound)
    (read : Check.mapping Check.text Check.any (.dict bound) = .ok args) (expectReturn : Bool) :
    Library.callWith expectReturn params c =
      (.done (.signal (.call name args procedure expectReturn)), c) := by
  have hbound : Action.lift ((procedure.arguments (Library.input params "ARGS")).mapError .raised) c =
      (.done bound, c) := by
    rw [given]
    rfl
  rw [Library.callWith, Action.bind_of_done (needText_run hv hname c),
    Action.bind_of_done (procedure_run found), Action.bind_of_done hbound, read]
  rfl

/-- A block that collects nothing leaves the record alone. -/
lemma invoke_calm {block : Block} {answer : Answer}
    (h : block.executor params f.context = (.done answer, c'))
    (calm : c'.softErrors = f.context.softErrors) :
    invoke block params f = (.done answer, { f with context := c' }) := by
  have hmark : markSoft f.context.softErrors.length { f with context := c' } =
      (.done (), { f with context := c' }) := by
    change (if f.context.softErrors.length < c'.softErrors.length then _ else _ :
      Frame.Act Unit) _ = _
    rw [calm, if_neg (Nat.lt_irrefl _)]
    rfl
  rw [invoke, Action.bind_of_done (Action.get_run f), Action.bind_of_done (Frame.inContext_run h),
    Action.bind_of_done hmark]
  rfl

/-- A block that leaves the context alone leaves the record alone. -/
lemma invoke_same {block : Block} {answer : Answer}
    (h : block.executor params f.context = (.done answer, f.context)) :
    invoke block params f = (.done answer, f) := invoke_calm h rfl

/-! ### Binding arguments -/

/-- What becomes of a name when arguments are bound that are filled in some scopes. -/
def BoundIn (scopes : Scopes) (args before after : Dict Value) (name : String) : Prop :=
  match args.get? name with
  | some v => ∃ w, Template.fillValue scopes v = .ok w ∧ after.get? name = some w
  | none => after.get? name = before.get? name

lemma fill_done {v w : Value} (h : Context.fill v c = (.done w, c')) :
    c' = c ∧ Template.fillValue c.scopes v = .ok w := by
  rw [fill_run] at h
  cases hv : Template.fillValue c.scopes v with
  | ok w' =>
    rw [hv] at h
    cases h
    exact ⟨rfl, rfl⟩
  | error e =>
    rw [hv] at h
    cases h

lemma fillArguments_done {args bindings : Dict Value}
    (h : fillArguments args c = (.done bindings, c')) :
    c' = c ∧ bindings.keys = args.keys ∧ ∀ name, match args.get? name with
      | some v => ∃ w, Template.fillValue c.scopes v = .ok w ∧ bindings.get? name = some w
      | none => bindings.get? name = none := by
  induction args generalizing bindings c' with
  | nil =>
    cases h
    exact ⟨rfl, rfl, fun name => rfl⟩
  | cons e rest ih =>
    obtain ⟨key, v⟩ := e
    obtain ⟨w, c₁, hfill, hrest⟩ := Action.bind_done h
    obtain ⟨bindings', c₂, hrest, hlast⟩ := Action.bind_done hrest
    obtain ⟨rfl, hw⟩ := fill_done hfill
    obtain ⟨rfl, hkeys, hget⟩ := ih hrest
    cases hlast
    refine ⟨rfl, congrArg (key :: ·) hkeys, fun name => ?_⟩
    rw [Dict.get?_cons, Dict.get?_cons]
    by_cases hname : key = name
    · rw [if_pos hname, if_pos hname]
      exact ⟨w, hw, rfl⟩
    · rw [if_neg hname, if_neg hname]
      exact hget name

lemma bindEach_leaves {bindings : Dict Value} (h : bindEach bindings c = (.done (), c')) :
    ∃ records, c' = { c with bindings := c.bindings.update bindings }.withRecords records := by
  induction bindings generalizing c with
  | nil =>
    cases h
    exact ⟨c'.shared.journal.records, rfl⟩
  | cons e rest ih =>
    obtain ⟨_, c₁, hset, hrest⟩ := Action.bind_done h
    obtain ⟨records, rfl⟩ := Context.setVariable_leaves hset
    obtain ⟨records', rfl⟩ := ih hrest
    exact ⟨records', rfl⟩

/-- The arguments of a call are filled in the variables of the caller and bound over them. -/
lemma bindArguments_bound {args bindings : Dict Value} (hnodup : args.keys.Nodup)
    (h : bindArguments (callBindings name args) c = (.done bindings, c')) (n : String) :
    BoundIn c.scopes args c.bindings c'.bindings n := by
  obtain ⟨bindings', c₁, hcall, hrest⟩ := Action.bind_done h
  obtain ⟨_, c₂, hbind, hlast⟩ := Action.bind_done hrest
  obtain ⟨filled, c₃, hfill, hlogged⟩ := Action.bind_done hcall
  obtain ⟨_, c₄, hlog, hgiven⟩ := Action.bind_done hlogged
  cases hlast
  cases hgiven
  obtain ⟨rfl, hkeys, hget⟩ := fillArguments_done hfill
  obtain ⟨records, rfl⟩ := Context.log_leaves hlog
  obtain ⟨records', rfl⟩ := bindEach_leaves hbind
  have hn := hget n
  change match args.get? n with
    | some v => ∃ w, Template.fillValue _ v = .ok w ∧
      (c₃.bindings.update bindings).get? n = some w
    | none => (c₃.bindings.update bindings).get? n = c₃.bindings.get? n
  rw [Dict.get?_update (hkeys ▸ hnodup)]
  cases hv : args.get? n with
  | some v =>
    rw [hv] at hn
    obtain ⟨w, hw, hb⟩ := hn
    exact ⟨w, hw, by rw [hb]; rfl⟩
  | none =>
    rw [hv] at hn
    rw [hn]
    rfl

/-! ### Entering the body -/

/-- How a call step comes to the body of a procedure: its inputs are resolved, its block asks for a
call with the arguments that a value stands for, and these are bound. The caller is the context in
which the inputs have been resolved, the body is run in the other one. -/
inductive Enters (m : Machine) (run : Runner) (nested : Bool) (step : Step) (c : Context)
    (procedure : Procedure) (given : Value) (caller body : Context) : Prop
  | mk {expectReturn : Bool} {f₀ f : Frame} {params args : Dict Value} {name : String}
    (begun : m.announce nested step ⟨c, .blank step⟩ = (.done (), f₀))
    (prepared : m.prepare run step f₀ = (.done (callBlock expectReturn, params), f))
    (caller : f.context = caller) (given : Library.input params "ARGS" = given)
    (answered : invoke (callBlock expectReturn) params f =
      (.done (.signal (.call name args procedure expectReturn)), f))
    (opened : Opens run f (.frame (callBindings name args) procedure.steps expectReturn) 0
      procedure.steps body)

lemma callWith_done {expectReturn : Bool} {answer : Answer}
    (h : Library.callWith expectReturn params c = (.done answer, c')) :
    ∃ name procedure bound args, procedure.arguments (Library.input params "ARGS") = .ok bound ∧
      Check.mapping Check.text Check.any (.dict bound) = .ok args ∧
      answer = .signal (.call name args procedure expectReturn) := by
  obtain ⟨name, c₁, -, hrest⟩ := Action.bind_done h
  obtain ⟨procedure, c₂, -, hrest⟩ := Action.bind_done hrest
  obtain ⟨bound, c₃, hbound, hrest⟩ := Action.bind_done hrest
  rw [Action.lift_run] at hbound
  cases ha : procedure.arguments (Library.input params "ARGS") with
  | error e =>
    rw [ha] at hbound
    cases hbound
  | ok bound' =>
    rw [ha] at hbound
    cases hbound
    cases hargs : Check.mapping Check.text Check.any (.dict bound) with
    | error issues =>
      rw [hargs] at hrest
      cases hrest
    | ok args =>
      rw [hargs] at hrest
      cases hrest
      exact ⟨name, procedure, bound, args, ha, hargs, rfl⟩

/-- What the body starts with comes of the arguments and the variables of the caller. -/
lemma Enters.bound {nested : Bool} {given : Value} {caller body : Context}
    (h : Enters m run nested step c procedure given caller body) :
    ∃ bound args, procedure.arguments given = .ok bound ∧
      Check.mapping Check.text Check.any (.dict bound) = .ok args ∧
      ∀ name, BoundIn caller.scopes args caller.bindings body.bindings name := by
  cases h with
  | @mk expectReturn f₀ f params args name begun prepared hcaller hgiven answered opened =>
    rw [invoke, Action.bind_of_done (Action.get_run f)] at answered
    obtain ⟨answer, f₁, hexec, hrest⟩ := Action.bind_done answered
    obtain ⟨_, f₂, -, hanswer⟩ := Action.bind_done hrest
    cases hanswer
    have hexec := (Frame.inContext_eq hexec).1
    rw [callBlock_executor] at hexec
    obtain ⟨name', procedure', bound, args', hbound, hargs, heq⟩ := callWith_done hexec
    cases heq
    cases opened with
    | frame begins =>
      rw [hcaller] at begins
      refine ⟨bound, args, hgiven ▸ hbound, hargs, fun n => ?_⟩
      exact bindArguments_bound (Check.mapping_keys hargs) begins n

variable {nested : Bool} {given : Value} {caller body : Context}

/-! ### Calls that come to the body -/

/-- A value can be filled in for an argument, and shown where a record is kept of it. -/
def Showable (c : Context) (v : Value) : Prop :=
  ∃ w, Template.fillValue c.scopes v = .ok w ∧
    (c.shared.journal.keeps .debug = true → w.quoted.isOk = true)

/-- Values without placeholders can be filled in; nothing is shown where no record is kept. -/
lemma showable_of_plain (hc : c.shared.journal.keeps .debug = false) {v : Value}
    (hv : Template.isPlain v = true) : Showable c v :=
  ⟨v, Template.fillValue_plain _ _ hv, fun hkeeps => by rw [hc] at hkeeps; cases hkeeps⟩

lemma fillArguments_exists {args : Dict Value} (h : ∀ e ∈ args, Showable c e.2) :
    ∃ bindings, fillArguments args c = (.done bindings, c) ∧
      (c.shared.journal.keeps .debug = true → ∀ e ∈ bindings, e.2.quoted.isOk = true) := by
  induction args with
  | nil => exact ⟨[], rfl, fun _ _ he => nomatch he⟩
  | cons e rest ih =>
    obtain ⟨w, hw, hshown⟩ := h e List.mem_cons_self
    obtain ⟨bindings, hrun, hrest⟩ := ih fun x hx => h x (List.mem_cons_of_mem _ hx)
    have hfill : Context.fill e.2 c = (.done w, c) := by rw [fill_run, hw]
    refine ⟨(e.1, w) :: bindings, ?_, fun hkeeps x hx => ?_⟩
    · rw [fillArguments, Action.bind_of_done hfill, Action.bind_of_done hrun]
      rfl
    · rcases List.mem_cons.mp hx with rfl | hx
      · exact hshown hkeeps
      · exact hrest hkeeps x hx

/-- Arguments without placeholders are filled with themselves. -/
lemma fillArguments_plain {args : Dict Value} (h : ∀ e ∈ args, Template.isPlain e.2 = true)
    (c : Context) : fillArguments args c = (.done args, c) := by
  induction args with
  | nil => rfl
  | cons e rest ih =>
    have hfill : Context.fill e.2 c = (.done e.2, c) := by
      rw [fill_run, Template.fillValue_plain _ _ (h e List.mem_cons_self)]
    rw [fillArguments, Action.bind_of_done hfill,
      Action.bind_of_done (ih fun x hx => h x (List.mem_cons_of_mem _ hx))]
    rfl

lemma bindEach_exists (hc : c.shared.journal.keeps .debug = true → c.Loggable)
    {bindings : Dict Value}
    (h : c.shared.journal.keeps .debug = true → ∀ e ∈ bindings, e.2.quoted.isOk = true) :
    ∃ c', bindEach bindings c = (.done (), c') := by
  induction bindings generalizing c with
  | nil => exact ⟨c, rfl⟩
  | cons e rest ih =>
    obtain ⟨c₁, hset⟩ := Context.setVariable_exists hc e.1 fun hkeeps =>
      h hkeeps e List.mem_cons_self
    obtain ⟨records, rfl⟩ := Context.setVariable_leaves hset
    let c₁ := { c with bindings := c.bindings.set e.1 e.2 }.withRecords records
    have hc₁ (hkeeps : c₁.shared.journal.keeps .debug = true) : c₁.Loggable :=
      (hc hkeeps).congr ⟨rfl, rfl⟩
    obtain ⟨c', hrest⟩ := ih hc₁ fun hkeeps x hx => h hkeeps x (List.mem_cons_of_mem _ hx)
    exact ⟨c', (Action.bind_of_done hset _).trans hrest⟩

lemma callBindings_exists (hc : c.shared.journal.keeps .info = true → c.Loggable) (name : String)
    {args bindings : Dict Value} (h : fillArguments args c = (.done bindings, c)) :
    ∃ records, callBindings name args c = (.done bindings, c.withRecords records) := by
  obtain ⟨c₁, hlog⟩ := Context.log_exists hc "Calling procedure %s" [.text name] rfl
  obtain ⟨records, rfl⟩ := Context.log_leaves hlog
  refine ⟨records, ?_⟩
  rw [callBindings, Action.bind_of_done h, Action.bind_of_done hlog]
  rfl

/-- The arguments of a call are bound where its records can be written. -/
lemma bindArguments_exists (hc : c.shared.journal.keeps .info = true → c.Loggable) (name : String)
    {args : Dict Value} (h : ∀ e ∈ args, Showable c e.2) :
    ∃ bindings c', bindArguments (callBindings name args) c = (.done bindings, c') := by
  obtain ⟨bindings, hfill, hshown⟩ := fillArguments_exists h
  obtain ⟨records, hcall⟩ := callBindings_exists hc name hfill
  obtain ⟨c₂, hbind⟩ := bindEach_exists (c := c.withRecords records)
    (fun hkeeps => (hc (Context.keeps_info hkeeps)).congr ⟨rfl, rfl⟩) hshown
  exact ⟨bindings, c₂, bindArguments_done hcall hbind⟩

lemma Gives.resolveInput_run {b : Block} {rs : Dict StepResult} {v : Value}
    (h : Gives run b step name c rs v c') (r : StepResult) :
    ∃ r', resolveInput run b step name ⟨c, r⟩ = (.done v, ⟨c', r'⟩) := by
  rw [resolveInput_eq]
  cases h with
  | nested source ran calm =>
    rw [source]
    dsimp only
    rw [Action.bind_of_done (Frame.inContext_run ran), Action.bind_of_done (Frame.note_run _ _),
      calm]
    exact ⟨_, rfl⟩
  | plain source fills =>
    rw [source]
    refine ⟨r, Frame.inContext_run (f := ⟨c, r⟩) ?_⟩
    rw [fill_run, fills]

lemma Supplied.resolveAll_run {b : Block} {names : List String} {rs : Dict StepResult}
    {vs : Dict Value} (h : Supplied run b step names c rs vs c') (r : StepResult) :
    ∃ r', resolveAll run b step names ⟨c, r⟩ = (.done vs, ⟨c', r'⟩) := by
  induction h generalizing r with
  | nil c => exact ⟨r, rfl⟩
  | cons head _ ih =>
    obtain ⟨r₁, hhead⟩ := head.resolveInput_run r
    obtain ⟨r₂, hrest⟩ := ih r₁
    refine ⟨r₂, ?_⟩
    rw [resolveAll, Action.bind_of_done hhead, Action.bind_of_done hrest]
    rfl

/-- A call step comes to the body of a procedure if its inputs come to their values, the values tell
which procedure is called with which arguments, and the arguments can be bound. -/
lemma enters_of_supplied {c₀ c₁ : Context} {expectReturn : Bool} {rs : Dict StepResult}
    {vs args bindings : Dict Value} {v : Value} {bound : List (Value × Value)}
    (begins : m.Begins nested step c c₀)
    (block : m.blocks.lookup step.type = some (callBlock expectReturn))
    (supplied : Supplied run (callBlock expectReturn) step (inputOrder (callBlock expectReturn) step)
      c₀ rs vs c₁)
    (hv : vs.get? "NAME" = some v) (named : v.toText = .ok name)
    (found : c₁.shared.procedures.lookup name = some procedure)
    (given : procedure.arguments (Library.input vs "ARGS") = .ok bound)
    (read : Check.mapping Check.text Check.any (.dict bound) = .ok args)
    (enters : bindArguments (callBindings name args) { c₁ with currentStep := some step } =
      (.done bindings, c')) :
    Enters m run nested step c procedure (Library.input vs "ARGS")
      { c₁ with currentStep := some step } (openFrame c') := by
  obtain ⟨r, hresolve⟩ := supplied.resolveAll_run (.blank step)
  rw [← inputNames_eq] at hresolve
  let f : Frame := ⟨{ c₁ with currentStep := some step }, r⟩
  have hprepare : m.prepare run step ⟨c₀, .blank step⟩ =
      (.done (callBlock expectReturn, vs), f) := by
    rw [prepare, block]
    exact Action.bind_of_done hresolve _
  have hexecutor : (callBlock expectReturn).executor vs f.context =
      (.done (.signal (.call name args procedure expectReturn)), f.context) := by
    rw [callBlock_executor]
    exact callWith_run (c := f.context) hv named found given read expectReturn
  exact .mk (begins.announce _) hprepare rfl rfl (invoke_same hexecutor) (.frame enters)

/-! ### Parameters in the body -/

/-- **What the parameters of a procedure are bound to when its body starts.** A parameter that the
call does not supply is bound to its default, filled in the variables of the caller: to the default
itself, if there is no placeholder in it. So two callers that differ only in variables named like
parameters that are not supplied start the body with the same values of those that are supplied or
have a default, as long as no placeholder leads to such a variable. -/
theorem calls_bind_parameters (h : Enters m run nested step c procedure given caller body) :
    (∀ name, procedure.Unsupplied given name →
      ∀ d, Param.default? procedure.params name = some d →
        ∃ w, Template.fillValue caller.scopes d = .ok w ∧ body.bindings.get? name = some w ∧
          (Template.isPlain d = true → w = d)) ∧
    ∀ m' run' nested' step' c' caller' body',
      Enters m' run' nested' step' c' procedure given caller' body' →
      caller.AlikeBut (procedure.Unsupplied given) caller' →
      (∀ bound, procedure.arguments given = .ok bound →
        ¬Mentions bound (procedure.Unsupplied given)) →
      ∀ name ∈ procedure.paramNames,
        ¬procedure.Unsupplied given name ∨ (Param.default? procedure.params name).isSome →
        body.bindings.get? name = body'.bindings.get? name := by
  obtain ⟨bound, args, hbound, hargs, hbody⟩ := h.bound
  have hdefault (name : String) (hname : procedure.Unsupplied given name) :
      args.get? name = Param.default? procedure.params name :=
    Procedure.arguments_default hbound hargs hname.2
  refine ⟨fun name hname d hd => ?_, ?_⟩
  · have hget := hbody name
    rw [BoundIn, hdefault name hname, hd] at hget
    obtain ⟨w, hw, hget⟩ := hget
    refine ⟨w, hw, hget, fun hplain => ?_⟩
    rw [Template.fillValue_plain _ _ hplain] at hw
    exact (Except.ok.inj hw).symm
  · intro m' run' nested' step' c' caller' body' h' halike hmentions name hmem hname
    obtain ⟨bound', args', hbound', hargs', hbody'⟩ := h'.bound
    rw [hbound] at hbound'
    cases hbound'
    rw [hargs] at hargs'
    cases hargs'
    have hsome : (args.get? name).isSome = true := by
      by_cases hsup : (Arguments.ofValue given).Supplies procedure name
      · exact Procedure.arguments_supplied hbound hargs hsup
      · have huns : procedure.Unsupplied given name := ⟨hmem, hsup⟩
        rw [hdefault name huns]
        exact hname.resolve_left fun hnot => hnot huns
    obtain ⟨v, hv⟩ := Option.isSome_iff_exists.mp hsome
    have hget := hbody name
    have hget' := hbody' name
    rw [BoundIn, hv] at hget hget'
    obtain ⟨w, hw, hget⟩ := hget
    obtain ⟨w', hw', hget'⟩ := hget'
    have hpaths : Template.LookAlike caller.scopes caller'.scopes (Template.pathsIn v) := by
      refine .of_binding fun path hpath p hp => halike.binding fun hmention => ?_
      obtain ⟨e, he, rfl⟩ := Check.mapping_mem hargs hv
      exact hmentions bound hbound ⟨path, Template.mem_pathsIn he hpath, p, hp, hmention⟩
    rw [Template.fillValue_congr v hpaths, hw'] at hw
    cases hw
    rw [hget, hget']

/-- A machine that knows how procedures are called. -/
def switchboard : Machine := { blocks := [[("procedure_call_with_return", callBlock true)]] }

/-- A procedure that takes a title, a mood that is calm unless a call says otherwise, and a user. -/
def greet : Procedure where
  name := "greet"
  description := none
  params := [⟨"title", "any", .null, none⟩, ⟨"mood", "any", .text "calm", none⟩,
    ⟨"user", "any", .null, none⟩]
  returnType := none
  steps := []

/-- Arguments that supply nothing but the title. -/
def titled : Value := .dict [(.text "title", .text "Dr")]

/-- A step that calls the procedure with a title. -/
def greeting : Step :=
  ⟨"call", "procedure_call_with_return",
    [("NAME", .literal (.text "greet")), ("ARGS", .literal titled)], []⟩

/-- A caller with a user. -/
def host (user : String) : Context :=
  { silent with
    bindings := [("user", .text user)]
    shared := { silent.shared with procedures := [[("greet", greet)]] } }

lemma greets {c : Context} {p : Procedure} {args : Dict Value}
    (running : c.shared.cancelled = false) (quiet : c.shared.journal.keeps .info = false)
    (found : c.shared.procedures.lookup "greet" = some p)
    (given : p.arguments titled = .ok (Arguments.members args))
    (shown : ∀ e ∈ Dict.ofPairs args, Showable { c with currentStep := some greeting } e.2) :
    ∃ body, Enters switchboard (switchboard.runWith 1) false greeting c p titled
      { c with currentStep := some greeting } body := by
  have hname : Gives (switchboard.runWith 1) (callBlock true) greeting "NAME" c [] (.text "greet")
      c := .plain rfl (Template.fillValue_plain _ _ (by decide +kernel))
  have hargs : Gives (switchboard.runWith 1) (callBlock true) greeting "ARGS" c [] titled c :=
    .plain rfl (Template.fillValue_plain _ _ (by decide +kernel))
  obtain ⟨bindings, c', henters⟩ := bindArguments_exists
    (c := { c with currentStep := some greeting })
    (fun hkeeps => by cases quiet.symm.trans hkeeps) "greet" shown
  exact ⟨_, enters_of_supplied ⟨running, rfl⟩ rfl (.cons hname (.cons hargs (.nil _))) rfl rfl found
    given (Check.mapping_record args) henters⟩

/-- The arguments that the procedure is called with. -/
def greeted : Dict Value := [("title", .text "Dr"), ("mood", .text "calm")]

lemma greet_arguments : greet.arguments titled = .ok (Arguments.members greeted) := rfl

lemma host_greets (user : String) : ∃ body,
    Enters switchboard (switchboard.runWith 1) false greeting (host user) greet titled
      { host user with currentStep := some greeting } body := by
  refine greets rfl rfl rfl greet_arguments fun e he => ?_
  have hall : greeted.all (fun e => Template.isPlain e.2) = true := by decide +kernel
  exact showable_of_plain rfl (List.all_eq_true.mp hall e he)

lemma greet_unsupplied {name : String} :
    greet.Unsupplied titled name ↔ name = "mood" ∨ name = "user" := by
  have hnames : greet.paramNames = ["title", "mood", "user"] := rfl
  have hsupplies : (Arguments.ofValue titled).Supplies greet name ↔ name = "title" := by
    change (∃ e ∈ [(Value.text "title", Value.text "Dr")], Check.text e.1 = .ok name) ↔ _
    constructor
    · rintro ⟨e, he, hread⟩
      rw [List.mem_singleton.mp he] at hread
      exact (Except.ok.inj hread).symm
    · rintro rfl
      exact ⟨_, List.mem_cons_self, rfl⟩
  rw [Procedure.Unsupplied, hnames, hsupplies]
  constructor
  · rintro ⟨hmem, hnot⟩
    simpa [hnot] using hmem
  · rintro (rfl | rfl) <;> simp

theorem calls_bind_parameters_greeting : ∃ body body',
    Enters switchboard (switchboard.runWith 1) false greeting (host "caller") greet titled
      { host "caller" with currentStep := some greeting } body ∧
    Enters switchboard (switchboard.runWith 1) false greeting (host "clerk") greet titled
      { host "clerk" with currentStep := some greeting } body' ∧
    body.bindings.get? "mood" = some (.text "calm") ∧
    body.bindings.get? "title" = body'.bindings.get? "title" := by
  obtain ⟨body, henters⟩ := host_greets "caller"
  obtain ⟨body', henters'⟩ := host_greets "clerk"
  obtain ⟨hdefaults, hagree⟩ := calls_bind_parameters henters
  obtain ⟨w, -, hmood, hplain⟩ := hdefaults "mood" (greet_unsupplied.mpr (.inl rfl)) _ rfl
  rw [hplain (by decide +kernel)] at hmood
  refine ⟨body, body', henters, henters', hmood, ?_⟩
  refine hagree _ _ _ _ _ _ _ henters' ⟨rfl, fun name hname => ?_⟩ ?_ "title" (by decide) ?_
  · have hne : "user" ≠ name := fun h => hname (greet_unsupplied.mpr (.inr h.symm))
    simp [host, Dict.get?_cons, hne]
  · rintro bound hbound ⟨path, hpath, -⟩
    rw [greet_arguments] at hbound
    cases hbound
    have hnone : Template.pathsIn (.dict (Arguments.members greeted)) = [] := by decide +kernel
    rw [hnone] at hpath
    cases hpath
  · exact .inl fun h => by simpa using greet_unsupplied.mp h

/-- A procedure like the other one, whose mood depends on the user unless a call says otherwise. -/
def flatter : Procedure :=
  { greet with params := [⟨"title", "any", .null, none⟩,
      ⟨"mood", "any", .text "$\x7buser\x7d", none⟩, ⟨"user", "any", .null, none⟩] }

/-- A caller with a user who knows this procedure. -/
def flattered (user : String) : Context :=
  { host user with shared := { (host user).shared with procedures := [[("greet", flatter)]] } }

lemma flattered_fills (user : String) :
    Template.fillValue (flattered user).scopes (.text "$\x7buser\x7d") = .ok (.text user) := by
  have hscopes : (flattered user).scopes = [[("user", .text user)]] := rfl
  have hfill : Template.fill [[("user", .text user)]] "$\x7buser\x7d" = .ok user :=
    Template.fill_variable (v := "user") (by decide) rfl
  rw [hscopes, Template.fillValue, hfill]
  rfl

lemma flattered_mood (user : String) : ∃ body,
    Enters switchboard (switchboard.runWith 1) false greeting (flattered user) flatter titled
      { flattered user with currentStep := some greeting } body ∧
    body.bindings.get? "mood" = some (.text user) := by
  let args : Dict Value := [("title", .text "Dr"), ("mood", .text "$\x7buser\x7d")]
  have hgiven : flatter.arguments titled = .ok (Arguments.members args) := rfl
  have hread : Check.mapping Check.text Check.any (.dict (Arguments.members args)) = .ok args :=
    Check.mapping_record args
  have hshown : ∀ e ∈ Dict.ofPairs args,
      Showable { flattered user with currentStep := some greeting } e.2 := by
    intro e he
    rcases List.mem_cons.mp he with rfl | he
    · exact showable_of_plain rfl (by decide +kernel)
    · rw [List.mem_singleton.mp he]
      exact ⟨_, flattered_fills user, fun _ => rfl⟩
  obtain ⟨body, henters⟩ := greets rfl rfl rfl hgiven hshown
  refine ⟨body, henters, ?_⟩
  obtain ⟨bound, args', hbound, hargs, hbody⟩ := henters.bound
  rw [hgiven] at hbound
  cases hbound
  cases hread.symm.trans hargs
  obtain ⟨w, hfill, hmood⟩ : ∃ w, Template.fillValue (flattered user).scopes _ = .ok w ∧ _ :=
    hbody "mood"
  obtain rfl : .text user = w := Except.ok.inj ((flattered_fills user).symm.trans hfill)
  exact hmood

/-- A default with a placeholder is not bound as it is declared, and not to the same for callers that
differ only in a variable that is named like another parameter that is not supplied. -/
theorem moods_depend_on_user : ∃ body body',
    Enters switchboard (switchboard.runWith 1) false greeting (flattered "caller") flatter titled
      { flattered "caller" with currentStep := some greeting } body ∧
    Enters switchboard (switchboard.runWith 1) false greeting (flattered "clerk") flatter titled
      { flattered "clerk" with currentStep := some greeting } body' ∧
    (flattered "caller").AlikeBut (· = "user") (flattered "clerk") ∧
    flatter.Unsupplied titled "user" ∧ flatter.Unsupplied titled "mood" ∧
    Param.default? flatter.params "mood" = some (.text "$\x7buser\x7d") ∧
    body.bindings.get? "mood" = some (.text "caller") ∧
    body'.bindings.get? "mood" = some (.text "clerk") := by
  obtain ⟨body, henters, hmood⟩ := flattered_mood "caller"
  obtain ⟨body', henters', hmood'⟩ := flattered_mood "clerk"
  refine ⟨body, body', henters, henters', ⟨rfl, fun name hname => ?_⟩,
    greet_unsupplied.mpr (.inr rfl), greet_unsupplied.mpr (.inl rfl), rfl, hmood, hmood'⟩
  have hne : "user" ≠ name := fun h => hname h.symm
  simp [flattered, host, Dict.get?_cons, hne]

end Machine

end BlockSuite
