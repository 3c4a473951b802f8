import BlockSuite.Proofs.Machine.Keeps
import BlockSuite.Proofs.Machine.Undone

/-!
The inputs of a step. They are resolved one after the other, in the order in which the block declares
them and then in the order of the step: a nested step is run for its output, a literal or a default
is filled. The block answers behind the last of them. The first input that comes to no value ends the
step, and the record keeps the results of the nested steps that were run until then.
-/

namespace BlockSuite

namespace Frame

/-- A frame in another context, with more results of nested steps on record. -/
def withInputs (f : Frame) (c : Context) (rs : Dict StepResult) : Frame :=
  ⟨c, { f.result with inputs := f.result.inputs ++ rs }⟩

lemma withInputs_nil (f : Frame) (c : Context) : f.withInputs c [] = { f with context := c } := by
  cases f with
  | mk c' r => cases r; simp only [withInputs, List.append_nil]

lemma has_withInputs {f : Frame} {rs : Dict StepResult} {c : Context} {name n : String}
    (hrs : ∀ e ∈ rs, e.1 = name) (h : Dict.has f.result.inputs n = false) (hn : name ≠ n) :
    Dict.has (f.withInputs c rs).result.inputs n = false := by
  have hnone : rs.any (·.1 == n) = false := by
    rw [List.any_eq_false]
    intro e he
    simpa [hrs e he] using hn
  unfold Dict.has at h ⊢
  rw [withInputs, List.any_append, h, hnone]
  rfl

end Frame

namespace Machine

open BlockSuite.Frame (inContext note)

/-- Where the value of an input comes from. -/
inductive Source where
  /-- The output of a nested step. -/
  | nested (step : Step)
  /-- A literal or a default, whose placeholders are filled. -/
  | plain (v : Value)
  /-- Nowhere: the input is required and has no default. -/
  | missing

/-- Where the value of an input of a step comes from. -/
def sourceOf (b : Block) (step : Step) (name : String) : Source :=
  match Dict.get? step.params name, (declared b).get? name with
  | some (.nested x), _ => .nested x
  | some (.literal v), _ => .plain v
  | none, some i => if i.required && i.default == .null then .missing else .plain i.default
  | none, none => .plain .null

/-- The order of the inputs of a step: those that its block declares beside the slots, then those
that only the step has. -/
def inputOrder (b : Block) (step : Step) : List String :=
  (b.parameters.map (·.name)).eraseDups ++
    (Dict.keys step.params).filter fun name =>
      name ∉ b.parameters.map (·.name) ∧ name ∉ b.slotNames

/-- How an input comes to its value: the result that is put on record, the value and the context. -/
inductive Gives (run : Runner) (b : Block) (step : Step) (name : String) (c : Context) :
    Dict StepResult → Value → Context → Prop
  | nested {x : Step} {r : StepResult} {c' : Context} (source : sourceOf b step name = .nested x)
    (ran : run true x c = (.done r, c')) (calm : r.breaks = false) :
    Gives run b step name c [(name, r)] r.output c'
  | plain {v w : Value} (source : sourceOf b step name = .plain v)
    (fills : Template.fillValue c.scopes v = .ok w) : Gives run b step name c [] w c

/-- How inputs come to their values, one after the other. -/
inductive Supplied (run : Runner) (b : Block) (step : Step) : List String → Context →
    Dict StepResult → Dict Value → Context → Prop
  | nil (c : Context) : Supplied run b step [] c [] [] c
  | cons {name : String} {names : List String} {c c' c'' : Context} {rs rs' : Dict StepResult}
    {v : Value} {vs : Dict Value} (head : Gives run b step name c rs v c')
    (rest : Supplied run b step names c' rs' vs c'') :
    Supplied run b step (name :: names) c (rs ++ rs') ((name, v) :: vs) c''

/-- How an input comes to no value: the result that is put on record, the end and the context. -/
inductive Lacks (run : Runner) (b : Block) (step : Step) (name : String) (c : Context) :
    Dict StepResult → Outcome Value → Context → Prop
  /-- The nested step has failed or was skipped. -/
  | broken {x : Step} {r : StepResult} {c' : Context} {e : Failure}
    (source : sourceOf b step name = .nested x) (ran : run true x c = (.done r, c'))
    (breaks : r.breaks = true) (failure : r.failure = some e) :
    Lacks run b step name c [(name, r)] (.failed e) c'
  /-- The input is required and absent. -/
  | missing (source : sourceOf b step name = .missing) :
    Lacks run b step name c [] (.failed (.raised (missingInput step name))) c
  /-- The nested step has no result. -/
  | lost {x : Step} {o : Outcome StepResult} {o' : Outcome Value} {c' : Context}
    (source : sourceOf b step name = .nested x) (ran : run true x c = (o, c'))
    (broken : Action.Broken o o') : Lacks run b step name c [] o' c'
  /-- A placeholder leads to what cannot be shown. -/
  | unfilled {v : Value} {e : Fault} (source : sourceOf b step name = .plain v)
    (fails : Template.fillValue c.scopes v = .error e) :
    Lacks run b step name c [] (.failed (.ofFault e)) c

variable {m : Machine} {run : Runner} {step : Step} {b : Block} {name : String} {f f' : Frame}

/-! ### The order of inputs -/

/-- A step's inputs are resolved in the order of its block, and then in its own. -/
lemma inputNames_eq (b : Block) (step : Step) : inputNames b step = inputOrder b step := by
  have hkeys : Dict.keys (declared b) = (b.parameters.map (·.name)).eraseDups := by
    rw [declared, Dict.keys_ofPairs, List.map_map]
    rfl
  have hhas (name : String) : (declared b).has name = decide (name ∈ b.parameters.map (·.name)) := by
    rw [Bool.eq_iff_iff, decide_eq_true_iff, ← List.mem_eraseDups, ← hkeys]
    simp [Dict.has, Dict.keys]
  rw [inputNames, hkeys, inputOrder]
  congr 2
  funext name
  rw [hhas, Bool.decide_and, decide_not, decide_not, List.contains_eq_mem]

/-! ### One input -/

lemma resolveInput_eq (run : Runner) (b : Block) (step : Step) (name : String) :
    resolveInput run b step name =
      match sourceOf b step name with
      | .nested x => do
        let r ← inContext (run true x)
        note fun outer => withInput outer name r
        if r.breaks then
          Action.fail (r.failure.getD
            (.raised (.of .unresolved ("Input " ++ Quoted.ofText name ++ " failed"))))
        return r.output
      | .plain v => inContext (Context.fill v)
      | .missing => Action.fail (.raised (missingInput step name)) := by
  unfold resolveInput sourceOf
  rcases Dict.get? step.params name with _ | v
  · rcases (declared b).get? name with _ | i
    · rfl
    · dsimp only
      split <;> rfl
  · cases v <;> rfl

lemma withInput_of_not_has {r x : StepResult} (h : Dict.has r.inputs name = false) :
    withInput r name x = { r with inputs := r.inputs ++ [(name, x)] } := by
  rw [withInput, Dict.set_of_not_has h]

lemma fill_run (v : Value) (c : Context) :
    Context.fill v c = match Template.fillValue c.scopes v with
      | .ok w => (.done w, c)
      | .error e => (.failed (.ofFault e), c) := by
  rw [Context.fill, Action.bind_of_done (Action.get_run c)]
  cases Template.fillValue c.scopes v <;> rfl

/-- An input comes to its value, or it comes to none. -/
lemma resolveInput_ends (b : Block) (step : Step) (ha : run.Yields StepResult.Accounts)
    (hfresh : Dict.has f.result.inputs name = false) :
    (∃ rs v c, Gives run b step name f.context rs v c ∧
      resolveInput run b step name f = (.done v, f.withInputs c rs)) ∨
    ∃ rs o c, Lacks run b step name f.context rs o c ∧ (∀ v, o ≠ .done v) ∧
      resolveInput run b step name f = (o, f.withInputs c rs) := by
  rw [resolveInput_eq]
  cases hs : sourceOf b step name with
  | nested x =>
    rcases hx : run true x f.context with ⟨r | e | _, c⟩
    · dsimp only
      rw [Action.bind_of_done (Frame.inContext_run hx), Action.bind_of_done (Frame.note_run _ _),
        withInput_of_not_has hfresh]
      cases hb : r.breaks with
      | false => exact .inl ⟨_, _, _, .nested hs hx hb, rfl⟩
      | true =>
        obtain ⟨e, he⟩ := (ha _ _ _ _ _ hx).failure hb
        rw [he]
        exact .inr ⟨_, _, _, .broken hs hx hb he, by simp, rfl⟩
    · refine .inr ⟨[], _, c, .lost hs hx (.failed e), by simp, ?_⟩
      rw [Frame.withInputs_nil]
      exact Action.bind_of_failed (Frame.inContext_run hx) _
    · refine .inr ⟨[], _, c, .lost hs hx .exhausted, by simp, ?_⟩
      rw [Frame.withInputs_nil]
      exact Action.bind_of_exhausted (Frame.inContext_run hx) _
  | plain v =>
    have hfill := fill_run v f.context
    cases hv : Template.fillValue f.context.scopes v with
    | ok w =>
      rw [hv] at hfill
      refine .inl ⟨[], w, f.context, .plain hs hv, ?_⟩
      rw [Frame.withInputs_nil]
      exact Frame.inContext_run hfill
    | error e =>
      rw [hv] at hfill
      refine .inr ⟨[], _, f.context, .unfilled hs hv, by simp, ?_⟩
      rw [Frame.withInputs_nil]
      exact Frame.inContext_run hfill
  | missing =>
    refine .inr ⟨[], _, f.context, .missing hs, by simp, ?_⟩
    rw [Frame.withInputs_nil]
    rfl

/-! ### All inputs -/

lemma Gives.names {c c' : Context} {rs : Dict StepResult} {v : Value}
    (h : Gives run b step name c rs v c') : ∀ e ∈ rs, e.1 = name := by
  cases h with
  | nested source ran calm => simp
  | plain source fills => simp

/-- Inputs all come to their values, or one of them is the first that comes to none. -/
lemma resolveAll_ends (ha : run.Yields StepResult.Accounts) {names : List String}
    (hnd : names.Nodup) (hfresh : ∀ n ∈ names, Dict.has f.result.inputs n = false) :
    (∃ rs vs c, Supplied run b step names f.context rs vs c ∧
      resolveAll run b step names f = (.done vs, f.withInputs c rs)) ∨
    ∃ pre name post rs vs c last o o' c', names = pre ++ name :: post ∧
      Supplied run b step pre f.context rs vs c ∧ Lacks run b step name c last o c' ∧
      Action.Broken o o' ∧ resolveAll run b step names f = (o', f.withInputs c' (rs ++ last)) := by
  induction names generalizing f with
  | nil => exact .inl ⟨[], [], _, .nil _, by rw [Frame.withInputs_nil]; rfl⟩
  | cons name rest ih =>
    obtain ⟨hname, hnd⟩ := List.nodup_cons.mp hnd
    rcases resolveInput_ends b step ha (hfresh name List.mem_cons_self) with
      ⟨rs, v, c, hgives, hrun⟩ | ⟨rs, o, c, hlacks, ho, hrun⟩
    · have hrest (n) (hn : n ∈ rest) : Dict.has (f.withInputs c rs).result.inputs n = false :=
        Frame.has_withInputs hgives.names (hfresh n (List.mem_cons_of_mem _ hn))
          fun h => hname (h ▸ hn)
      rcases ih hnd hrest with ⟨rs', vs, c', hsup, hall⟩ |
        ⟨pre, n, post, rs', vs, c₁, last, o, o', c', rfl, hsup, hlacks, hb, hall⟩
      · refine .inl ⟨rs ++ rs', (name, v) :: vs, c', .cons hgives hsup, ?_⟩
        rw [resolveAll, Action.bind_of_done hrun, Action.bind_of_done hall]
        simp [Frame.withInputs]
      · refine .inr ⟨name :: pre, n, post, rs ++ rs', (name, v) :: vs, c₁, last, o, o', c', rfl,
          .cons hgives hsup, hlacks, hb, ?_⟩
        rw [resolveAll, Action.bind_of_done hrun]
        cases hb with
        | failed e =>
          rw [Action.bind_of_failed hall]
          simp [Frame.withInputs]
        | exhausted =>
          rw [Action.bind_of_exhausted hall]
          simp [Frame.withInputs]
    · refine .inr ?_
      cases o with
      | done v => exact absurd rfl (ho v)
      | failed e =>
        exact ⟨[], name, rest, [], [], _, rs, _, _, c, rfl, .nil _, hlacks, .failed e,
          Action.bind_of_failed hrun _⟩
      | exhausted =>
        exact ⟨[], name, rest, [], [], _, rs, _, _, c, rfl, .nil _, hlacks, .exhausted,
          Action.bind_of_exhausted hrun _⟩

/-! ### Up to the answer of the block -/

/-- A step begins in some context: the run is not asked to stop, and the hooks that see the start of
a step of a list come to their ends. -/
structure Begins (m : Machine) (nested : Bool) (step : Step) (c c₀ : Context) : Prop where
  running : c.shared.cancelled = false
  hooks : (if nested then pure () else
    Hooks.runAll m.hooks fun h => h.beforeStep.map fun f => f step : Run Unit) c = (.done (), c₀)

/-- The frame of a step with the results of nested steps on record. -/
def recorded (step : Step) (c : Context) (rs : Dict StepResult) : Frame :=
  ⟨c, { StepResult.blank step with inputs := rs }⟩

lemma recorded_nil (step : Step) (c : Context) : recorded step c [] = ⟨c, .blank step⟩ := by
  simp only [recorded, StepResult.blank]

/-- How a step with a registered block gets up to the answer of the block. -/
inductive Fed (m : Machine) (layers : Nat) (nested : Bool) (step : Step) (block : Block)
    (c c₀ : Context) : Prop
  /-- All inputs come to their values, and with these the block answers. -/
  | answered {rs : Dict StepResult} {vs : Dict Value} {c₁ : Context}
    (supplied : Supplied (m.runWith layers) block step (inputOrder block step) c₀ rs vs c₁)
    (names : vs.keys = inputOrder block step)
    (consults : m.consult (m.runWith layers) nested step ⟨c, .blank step⟩ =
      invoke block vs (recorded step { c₁ with currentStep := some step } rs))
    (record : ∀ r c', m.runWith (layers + 1) nested step c = (.done r, c') → r.inputs = rs)
  /-- An input is the first that comes to no value, and the step ends there. -/
  | ended {pre post : List String} {name : String} {rs last : Dict StepResult} {vs : Dict Value}
    {c₁ c₂ : Context} {o : Outcome Value} {o' : Outcome Answer}
    (names : inputOrder block step = pre ++ name :: post)
    (supplied : Supplied (m.runWith layers) block step pre c₀ rs vs c₁)
    (lacks : Lacks (m.runWith layers) block step name c₁ last o c₂) (broken : Action.Broken o o')
    (consults : m.consult (m.runWith layers) nested step ⟨c, .blank step⟩ =
      (o', recorded step c₂ (rs ++ last)))
    (record : ∀ r c', m.runWith (layers + 1) nested step c = (.done r, c') →
      r.inputs = rs ++ last)

section Consult

variable {nested : Bool} {c c₀ : Context}

lemma Begins.announce (h : m.Begins nested step c c₀) (r : StepResult) :
    m.announce nested step ⟨c, r⟩ = (.done (), ⟨c₀, r⟩) := by
  rw [Machine.announce,
    Action.bind_of_done (Frame.inContext_run (ensureRunning_of_running h.running))]
  have hhooks := h.hooks
  cases nested with
  | true =>
    cases hhooks
    rfl
  | false => exact Frame.inContext_run hhooks

/-- Behind the announcement a step prepares its inputs and asks its block. -/
lemma Begins.consult (h : m.Begins nested step c c₀) (run : Runner) :
    m.consult run nested step ⟨c, .blank step⟩ =
      (m.prepare run step >>= fun p => invoke p.1 p.2) ⟨c₀, .blank step⟩ :=
  Action.bind_of_done (h.announce (.blank step)) _

lemma Supplied.keys {names : List String} {c c' : Context} {rs : Dict StepResult} {vs : Dict Value}
    (h : Supplied run b step names c rs vs c') : vs.keys = names := by
  induction h with
  | nil c => rfl
  | cons head rest ih => exact congrArg _ ih

/-- What stands among the inputs once the block has answered stays. -/
lemma inputs_of_consult {layers : Nat} {o : Outcome Answer}
    (h : m.consult (m.runWith layers) nested step ⟨c, .blank step⟩ = (o, f)) {r : StepResult}
    {c' : Context} (hr : m.runWith (layers + 1) nested step c = (.done r, c')) :
    r.inputs = f.result.inputs := by
  have ha := m.runWith_accounts layers
  obtain ⟨r₀, c₁, hconclude, hreport⟩ := Action.bind_done hr
  obtain ⟨o', f', heval, hc, -⟩ := conclude_done hconclude
  obtain ⟨v, rfl⟩ := report_done hreport
  have hkept : f'.result.inputs = f.result.inputs := by
    rcases Action.bind_cases heval with ⟨answer, f₁, h₁, heval⟩ | ⟨o'', h₁, -⟩
    · rw [h] at h₁
      cases h₁
      cases answer with
      | value v =>
        cases heval
        rfl
      | signal s =>
        rw [respond, perform_eq] at heval
        exact (carryOut_continues ha ha (consult_consulted ha ha h).returned heval).inputs
    · rw [h] at h₁
      cases h₁
      rfl
  rw [← hkept]
  cases hc with
  | value v => rfl
  | failure hs => cases hs <;> rfl

/-- **The inputs of a step are resolved once, in order, and before its block answers.** A step that
begins and whose type is not registered fails without anything being run. Where there is a block,
the inputs come to their values one after the other, in the order of the block and then of the step,
and the block is asked once, with all of them; or one of them is the first that comes to no value,
and the block is not asked. The result of the step holds those of the nested steps that were run to
their results, in that order. -/
theorem inputs_come_first (m : Machine) (layers : Nat) (nested : Bool) (step : Step)
    (distinct : (Dict.keys step.params).Nodup) (c c₀ : Context)
    (begins : m.Begins nested step c c₀) :
    (m.blocks.lookup step.type = none →
      m.consult (m.runWith layers) nested step ⟨c, .blank step⟩ =
        (.failed (.raised (.unknownBlock step.type)), recorded step c₀ []) ∧
      ∀ r c', m.runWith (layers + 1) nested step c = (.done r, c') → r.inputs = []) ∧
    ∀ block, m.blocks.lookup step.type = some block → Fed m layers nested step block c c₀ := by
  have hconsult := begins.consult (m.runWith layers)
  refine ⟨fun hblock => ?_, fun block hblock => ?_⟩
  · have hprepare : m.prepare (m.runWith layers) step ⟨c₀, .blank step⟩ =
        (.failed (.raised (.unknownBlock step.type)), recorded step c₀ []) := by
      rw [prepare, hblock, recorded_nil]
      rfl
    have hrun := hconsult.trans (Action.bind_of_failed hprepare _)
    exact ⟨hrun, fun r c' hr => inputs_of_consult hrun hr⟩
  · rcases resolveAll_ends (f := ⟨c₀, .blank step⟩) (m.runWith_accounts layers)
      (nodup_inputNames block distinct) (fun _ _ => rfl) with
      ⟨rs, vs, c₁, hsup, hall⟩ | ⟨pre, name, post, rs, vs, c₁, last, o, o', c₂, hnames, hsup,
        hlacks, hb, hall⟩
    · have hprepare : m.prepare (m.runWith layers) step ⟨c₀, .blank step⟩ =
          (.done (block, vs), recorded step { c₁ with currentStep := some step } rs) := by
        rw [prepare, hblock]
        exact Action.bind_of_done hall _
      have hrun := hconsult.trans (Action.bind_of_done hprepare _)
      rw [inputNames_eq] at hsup
      refine .answered hsup hsup.keys hrun fun r c' hr => ?_
      rcases hinvoke : invoke block vs (recorded step { c₁ with currentStep := some step } rs) with
        ⟨o, f⟩
      obtain ⟨status, soft, error, hmarks⟩ := invoke_marks hinvoke
      rw [inputs_of_consult (hrun.trans hinvoke) hr, hmarks]
      rfl
    · rw [inputNames_eq] at hnames
      cases hb with
      | failed e =>
        have hprepare : m.prepare (m.runWith layers) step ⟨c₀, .blank step⟩ =
            (.failed e, recorded step c₂ (rs ++ last)) := by
          rw [prepare, hblock]
          exact Action.bind_of_failed hall _
        have hrun := hconsult.trans (Action.bind_of_failed hprepare _)
        exact .ended hnames hsup hlacks (.failed e) hrun fun r c' hr => inputs_of_consult hrun hr
      | exhausted =>
        have hprepare : m.prepare (m.runWith layers) step ⟨c₀, .blank step⟩ =
            (.exhausted, recorded step c₂ (rs ++ last)) := by
          rw [prepare, hblock]
          exact Action.bind_of_exhausted hall _
        have hrun := hconsult.trans (Action.bind_of_exhausted hprepare _)
        exact .ended hnames hsup hlacks .exhausted hrun fun r c' hr => inputs_of_consult hrun hr

end Consult

/-- A block that gathers its inputs. -/
def gather : Block :=
  { type := "gather"
    inputs := [{ name := "A", required := true }, { name := "DO", kind := .statement },
      { name := "B", default := .int 2 }]
    executor := fun params => return .value (.record params) }

/-- A machine that gathers inputs, with a block for a number and one that skips its step for a reason
that is no text. -/
def gathering : Machine where
  blocks := [[("gather", gather),
    ("seven", { type := "seven", executor := fun _ => return .value (.int 7) }),
    ("skip", { type := "skip", executor := fun _ => Action.fail (.skip (.int 5)) })]]

/-- A step that gathers a literal of its own and the output of a nested step. -/
def gathered (inner : String) : Step :=
  ⟨"outer", "gather", [("C", .literal (.int 1)), ("A", .nested ⟨"inner", inner, [], []⟩)], []⟩

theorem inputs_come_first_gathered : (Dict.keys (gathered "seven").params).Nodup ∧
    gathering.Begins false (gathered "seven") silent silent ∧
    inputOrder gather (gathered "seven") = ["A", "B", "C"] ∧
    Fed gathering 1 false (gathered "seven") gather silent silent := by
  have hnd : (Dict.keys (gathered "seven").params).Nodup := by decide
  have hbegins : gathering.Begins false (gathered "seven") silent silent :=
    ⟨rfl, rfl⟩
  exact ⟨hnd, hbegins, by decide,
    (inputs_come_first gathering 1 false (gathered "seven") hnd silent silent hbegins).2 gather rfl⟩

/-- A skip that cannot be recorded leaves its step without a result. Neither does a nested step fail
or skip then, nor is a required input absent, and yet the block is not asked. -/
theorem gathered_skip_stops :
    (∃ e c, gathering.runWith 1 true ⟨"inner", "skip", [], []⟩ silent = (.failed e, c)) ∧
    ∃ r c, gathering.runWith 2 false (gathered "skip") silent = (.done r, c) ∧
      (r.status, r.inputs.length) = (.failed, 0) := by
  refine ⟨Action.exists_failed (by decide +kernel), ?_⟩
  exact Action.exists_done_eq (g := fun r : StepResult => (r.status, r.inputs.length))
    (by decide +kernel)

end Machine

end BlockSuite
