import BlockSuite.Proofs.Path
import BlockSuite.Proofs.Machine.Frames
import BlockSuite.Proofs.Machine.Reference

/-!
Variables that are read back. A step binds a variable under a name as it stands, and a step that
reads a variable takes its name for a path. The two agree on identifiers and on no other name.
-/

namespace BlockSuite

namespace Machine

open BlockSuite.Context (SameBindings)

variable {m : Machine} {step : Step} {nested : Bool} {layers : Nat} {block : Block} {name : String}
  {v w : Value} {params vs : Dict Value} {rs : Dict StepResult} {c c₀ c₁ c' : Context}
  {r : StepResult}

/-- A step comes to a value: it passes with the value as its output, and the observers of the
machine are shown this result. -/
def Outputs (m : Machine) (layers : Nat) (nested : Bool) (step : Step) (c : Context) (v : Value) :
    Prop :=
  ∃ r c', r.status = .passed ∧ r.output = v ∧
    m.runWith (layers + 1) nested step c = (m.observe nested step r >>= fun _ => pure r) c'

/-- A step binds a variable under a name to a value that one of its inputs comes to, and passes. -/
inductive Binds (m : Machine) (layers : Nat) (nested : Bool) (step : Step) (name : String)
    (v : Value) (c c' : Context) : Prop
  | mk {c₀ c₁ : Context} {rs : Dict StepResult} {vs : Dict Value} {r : StepResult}
    (known : m.blocks.lookup step.type = some Library.setVariable)
    (begins : m.Begins nested step c c₀)
    (text : Dict.get? step.params "NAME" = some (.literal (.text name)))
    (supplied : Supplied (m.runWith layers) Library.setVariable step
      (inputOrder Library.setVariable step) c₀ rs vs c₁)
    (value : vs.get? "VALUE" = some v)
    (ran : m.runWith (layers + 1) nested step c = (.done r, c')) (passed : r.status = .passed)

/-- A step that reads the variable of a name, and begins. -/
inductive Fetches (m : Machine) (nested : Bool) (step : Step) (name : String) (c : Context) : Prop
  | mk {c₀ : Context} (known : m.blocks.lookup step.type = some Library.getVariable)
    (begins : m.Begins nested step c c₀)
    (text : step.params = [("NAME", .literal (.text name))])

/-- What is bound under a name is read under it, as long as no hook writes variables. -/
def ReadsBack (name : String) : Prop :=
  ∀ (m : Machine) (layers layers' : Nat) (nested nested' : Bool) (binding fetching : Step)
    (v : Value) (c c' : Context), m.Watched SameBindings → v ≠ .null →
      Binds m layers nested binding name v c c' → Fetches m nested' fetching name c' →
        m.Outputs layers' nested' fetching c' v

/-! ### Up to the end of a step -/

/-- A literal in which no placeholder begins is the value of its input. -/
lemma Gives.literal {run : Runner} {key : String}
    (text : Dict.get? step.params key = some (.literal v)) (plain : Template.isPlain v = true)
    (h : Gives run block step key c rs w c') : w = v ∧ c' = c := by
  have hsource : sourceOf block step key = .plain v := by rw [sourceOf, text]
  cases h with
  | nested source ran calm =>
    rw [hsource] at source
    cases source
  | plain source fills =>
    rw [hsource] at source
    cases source
    rw [Template.fillValue_plain _ _ plain] at fills
    cases fills
    exact ⟨rfl, rfl⟩

/-- A step that passes has come to its output, and is shown to the observers of the machine. -/
lemma evaluated_of_passed (h : m.runWith (layers + 1) nested step c = (.done r, c'))
    (passed : r.status = .passed) : ∃ f,
      m.evaluate (m.runWith layers) nested step ⟨c, .blank step⟩ = (.done r.output, f) ∧
        ∃ r₀, m.report nested step r₀ { f.context with currentStep := c.currentStep } =
          (.done r, c') := by
  obtain ⟨r₀, c₂, hconclude, hreport⟩ := Action.bind_done h
  obtain ⟨o, f, heval, hconcluded, rfl⟩ := conclude_done hconclude
  obtain ⟨artifact, rfl⟩ := report_done hreport
  cases hconcluded with
  | value v => exact ⟨f, heval, _, hreport⟩
  | failure hsettled => cases hsettled <;> cases passed

/-! ### Binding -/

/-- The block binds the variable. -/
lemma setVariable_run (text : params.get? "NAME" = some (.text name))
    (value : params.get? "VALUE" = some v) (c : Context) :
    Library.setVariable.executor params c =
      (Context.setVariable name v >>= fun _ => pure (.value .null)) c := by
  change (Library.needText params "NAME" >>= fun n =>
    Context.setVariable n ((params.get? "VALUE").getD .null) >>= fun _ => _) c = _
  rw [Action.bind_of_done (needText_run text rfl c), value]
  rfl

/-- The inputs of a step that binds a variable: the name comes first. -/
lemma Supplied.name_of_set (plain : Template.isPlain (.text name) = true)
    (text : Dict.get? step.params "NAME" = some (.literal (.text name)))
    (h : Supplied (m.runWith layers) Library.setVariable step
      (inputOrder Library.setVariable step) c₀ rs vs c₁) :
    vs.get? "NAME" = some (.text name) := by
  have horder : inputOrder Library.setVariable step =
      "NAME" :: (inputOrder Library.setVariable step).drop 1 := rfl
  rw [horder] at h
  cases h with
  | cons head rest =>
    obtain ⟨rfl, -⟩ := head.literal text plain
    rfl

/-- A block that answers leaves the context that the step goes on in. -/
lemma invoke_done {f f' : Frame} {answer : Answer}
    (h : invoke block params f = (.done answer, f')) :
    block.executor params f.context = (.done answer, f'.context) := by
  rw [invoke, Action.bind_of_done (Action.get_run f)] at h
  obtain ⟨answer', f₁, hran, h⟩ := Action.bind_done h
  obtain ⟨marked, hmark⟩ := markSoft_run f.context.softErrors.length f₁
  rw [Action.bind_of_done hmark] at h
  cases h
  exact (Frame.inContext_eq hran).1

/-- Behind a step that binds a variable it is bound. -/
lemma Binds.bound (hm : m.Watched SameBindings) (plain : Template.isPlain (.text name) = true)
    (h : Binds m layers nested step name v c c') : c'.bindings.get? name = some v := by
  obtain ⟨known, begins, text, supplied, value, ran, passed⟩ := h
  obtain ⟨f, heval, r₀, hreport⟩ := evaluated_of_passed ran passed
  obtain ⟨inputs, hevaluates⟩ := supplied.evaluates known begins
  rw [hevaluates] at heval
  obtain ⟨answer, f₁, hinvoke, hrespond⟩ := Action.bind_done heval
  have hexecutor := invoke_done hinvoke
  rw [setVariable_run (supplied.name_of_set plain text) value] at hexecutor
  obtain ⟨_, c₂, hset, hanswer⟩ := Action.bind_done hexecutor
  obtain ⟨rfl, hc₂⟩ : answer = .value .null ∧ c₂ = f₁.context := by
    cases hanswer
    exact ⟨rfl, rfl⟩
  obtain rfl : f₁ = f := (Prod.mk.inj hrespond).2
  -- The write is the last thing that is done to the variables: the observers keep them.
  have hreported : c'.bindings = f₁.context.bindings :=
    ((sameBindings_journalFree.report hm.shown nested step r₀).done hreport).1
  obtain ⟨records, hwritten⟩ := Context.setVariable_leaves hset
  rw [hreported, ← hc₂, hwritten]
  exact Dict.get?_set_self _ _ _

/-! ### Reading -/

/-- Hooks that write no variables leave them as they are before a step. -/
lemma Begins.bindings (hm : m.Watched SameBindings) (h : m.Begins nested step c c₀) :
    c₀.bindings = c.bindings := by
  have hhooks := h.hooks
  cases nested with
  | true =>
    cases hhooks
    rfl
  | false =>
    have hall := sameBindings_journalFree.runAll
      fun k hk f hf => (hm.beforeStep k hk f hf step).meets
    exact (hall.done hhooks).1

/-- A step that reads a variable has its name for its only input. -/
lemma order_of_get (text : step.params = [("NAME", .literal (.text name))]) :
    inputOrder Library.getVariable step = ["NAME"] := by
  rw [inputOrder, text]
  rfl

/-- The block looks up the path that its name spells. -/
lemma getVariable_run (text : params.get? "NAME" = some (.text name)) (c : Context) :
    Library.getVariable.executor params c =
      (Context.readPath (.text name) >>= fun v => pure (.value v)) c := by
  change (Library.needText params "NAME" >>= fun n =>
    Context.readPath (.text n) >>= fun v => _) c = _
  rw [Action.bind_of_done (needText_run text rfl c)]

/-- A path is looked up among the variables, and null is read where it leads nowhere. -/
lemma readPath_run (name : String) (c : Context) : Context.readPath (.text name) c =
    (Action.compute do
      let p ← Path.ofText name
      return (← Scopes.lookup [c.bindings] p).getD .null : Run Value) c := by
  have hpath : Path.ofValue (.text name) = Path.ofText name := by
    rw [Path.ofValue, Value.textWith]
    exact pure_bind name Path.ofText
  rw [Context.readPath, Action.bind_of_done (Action.get_run c), hpath]

lemma readPath_of_lookup {p : Path} {found : Option Value} (parsed : Path.ofText name = .ok p)
    (lookup : Scopes.lookup [c.bindings] p = .ok found) :
    Context.readPath (.text name) c = (.done (found.getD .null), c) := by
  rw [readPath_run, parsed]
  change (Action.compute (Scopes.lookup [c.bindings] p >>= _) : Run Value) c = _
  rw [lookup]
  rfl

/-- Nothing but a value that its path leads to is read under a name, null apart. -/
lemma readPath_done (h : Context.readPath (.text name) c = (.done v, c')) (hv : v ≠ .null) :
    ∃ p, Path.ofText name = .ok p ∧ Scopes.lookup [c.bindings] p = .ok (some v) := by
  rw [readPath_run, Action.compute_run] at h
  split at h
  · next w hw =>
    cases h
    obtain ⟨p, hp, hw⟩ := except_bind_ok hw
    obtain ⟨found, hfound, hw⟩ := except_bind_ok hw
    cases found with
    | none =>
      cases hw
      exact absurd rfl hv
    | some u =>
      cases hw
      exact ⟨p, hp, hfound⟩
  · cases h

/-- The name of a step that reads a variable comes to itself. -/
lemma supplied_get {run : Runner} (plain : Template.isPlain (.text name) = true)
    (text : step.params = [("NAME", .literal (.text name))]) (c : Context) :
    Supplied run Library.getVariable step (inputOrder Library.getVariable step) c []
      [("NAME", .text name)] c := by
  have hsource : sourceOf Library.getVariable step "NAME" = .plain (.text name) := by
    rw [sourceOf, text]
    rfl
  have hname : Gives run Library.getVariable step "NAME" c [] (.text name) c :=
    .plain hsource (Template.fillValue_plain _ _ plain)
  rw [order_of_get text]
  exact .cons hname (.nil c)

/-- A step that reads a name comes to what the path of the name leads to, or to null. -/
lemma Fetches.outputs {p : Path} {found : Option Value} (hm : m.Watched SameBindings)
    (plain : Template.isPlain (.text name) = true) (parsed : Path.ofText name = .ok p)
    (lookup : Scopes.lookup [c.bindings] p = .ok found) (h : Fetches m nested step name c) :
    m.Outputs layers nested step c (found.getD .null) := by
  obtain @⟨c₀, known, begins, text⟩ := h
  rw [← begins.bindings hm] at lookup
  have hread := readPath_of_lookup (c := { c₀ with currentStep := some step }) parsed lookup
  have htext : Dict.get? [("NAME", Value.text name)] "NAME" = some (.text name) := rfl
  have hanswers : Library.getVariable.executor [("NAME", .text name)]
      { c₀ with currentStep := some step } =
        (.done (.value (found.getD .null)), { c₀ with currentStep := some step }) := by
    rw [getVariable_run htext, Action.bind_of_done hread]
    rfl
  have hsupplied : Supplied (m.runWith layers) Library.getVariable step
      (inputOrder Library.getVariable step) c₀ [] [("NAME", .text name)] c₀ :=
    supplied_get plain text c₀
  obtain ⟨r, passed, output, hrun⟩ := hsupplied.comes known begins hanswers rfl
  exact ⟨r, _, passed, output, hrun⟩

/-- A nested step that reads a name comes to nothing but what the path of the name leads to, null
apart. -/
lemma Fetches.reads (plain : Template.isPlain (.text name) = true)
    (h : Fetches m true step name c) (hv : v ≠ .null) (hout : m.Outputs layers true step c v) :
    ∃ p, Path.ofText name = .ok p ∧ Scopes.lookup [c.bindings] p = .ok (some v) := by
  obtain @⟨c₀, known, begins, text⟩ := h
  obtain rfl : c = c₀ := (Prod.mk.inj begins.hooks).2
  obtain ⟨r, c', passed, rfl, hrun⟩ := hout
  have hobserve : (m.observe true step r >>= fun _ => pure r) c' = (.done r, c') := rfl
  obtain ⟨f, heval, -⟩ := evaluated_of_passed (hrun.trans hobserve) passed
  obtain ⟨inputs, hevaluates⟩ := (supplied_get plain text c).evaluates known begins
  rw [hevaluates] at heval
  obtain ⟨answer, f₁, hinvoke, hrespond⟩ := Action.bind_done heval
  have hexecutor := invoke_done hinvoke
  have htext : Dict.get? [("NAME", Value.text name)] "NAME" = some (.text name) := rfl
  rw [getVariable_run htext] at hexecutor
  obtain ⟨w, c₂, hread, hanswer⟩ := Action.bind_done hexecutor
  obtain rfl : Answer.value w = answer := Outcome.done.inj (Prod.mk.inj hanswer).1
  obtain rfl : w = r.output := Outcome.done.inj (Prod.mk.inj hrespond).1
  obtain ⟨p, hp, hlookup⟩ := readPath_done hread hv
  have hbindings : (recorded step { c with currentStep := some step } inputs).context.bindings =
      c.bindings := rfl
  rw [hbindings] at hlookup
  exact ⟨p, hp, hlookup⟩

/-! ### Names that are read back -/

/-- A machine that binds and reads variables. -/
def shelf : Machine where
  blocks := [[("logic_set_variable", Library.setVariable),
    ("logic_get_variable", Library.getVariable)]]

/-- A step that binds a variable to a value. -/
def putting (name : String) (v : Value) : Step :=
  ⟨"put", "logic_set_variable", [("NAME", .literal (.text name)), ("VALUE", .literal v)], []⟩

/-- A step that reads a variable. -/
def fetching (name : String) : Step :=
  ⟨"read", "logic_get_variable", [("NAME", .literal (.text name))], []⟩

/-- A context with one variable and a journal that keeps nothing of it. -/
def holding (name : String) (v : Value) : Context := { silent with bindings := [(name, v)] }

lemma shelf_watched (R : Context → Context → Prop) : shelf.Watched R :=
  ⟨nofun, nofun, nofun⟩

/-- A variable is bound where no record is kept of it. -/
lemma setVariable_unkept (h : c.shared.journal.keeps .debug = false) (name : String) (v : Value) :
    Context.setVariable name v c = (.done (), { c with bindings := c.bindings.set name v }) :=
  Context.log_unkept (c := { c with bindings := c.bindings.set name v }) h _ _ _

/-- A step binds the first variable of all. -/
lemma putting_binds (plain : Template.isPlain (.text name) = true)
    (hv : Template.isPlain v = true) :
    Binds shelf 0 true (putting name v) name v silent (holding name v) := by
  have known : shelf.blocks.lookup (putting name v).type = some Library.setVariable := rfl
  have begins : shelf.Begins true (putting name v) silent silent := ⟨rfl, rfl⟩
  have hname : Gives (shelf.runWith 0) Library.setVariable (putting name v) "NAME" silent []
      (.text name) silent := .plain rfl (Template.fillValue_plain _ _ plain)
  have hvalue : Gives (shelf.runWith 0) Library.setVariable (putting name v) "VALUE" silent []
      v silent := .plain rfl (Template.fillValue_plain _ _ hv)
  have hsupplied : Supplied (shelf.runWith 0) Library.setVariable (putting name v)
      (inputOrder Library.setVariable (putting name v)) silent []
      [("NAME", .text name), ("VALUE", v)] silent := .cons hname (.cons hvalue (.nil silent))
  have hset := setVariable_unkept (c := { silent with currentStep := some (putting name v) }) rfl
    name v
  have hexecutor : Library.setVariable.executor [("NAME", .text name), ("VALUE", v)]
      { silent with currentStep := some (putting name v) } = (.done (.value .null),
        { holding name v with currentStep := some (putting name v) }) := by
    have htext : Dict.get? [("NAME", Value.text name), ("VALUE", v)] "NAME" =
        some (.text name) := rfl
    have hvalue : Dict.get? [("NAME", Value.text name), ("VALUE", v)] "VALUE" = some v := rfl
    rw [setVariable_run htext hvalue, Action.bind_of_done hset]
    rfl
  obtain ⟨r, passed, -, hrun⟩ := hsupplied.comes known begins hexecutor rfl
  exact .mk known begins rfl hsupplied rfl hrun passed

lemma fetching_fetches (name : String) (v : Value) :
    Fetches shelf true (fetching name) name (holding name v) := .mk rfl ⟨rfl, rfl⟩ rfl

/-- A name that is read back is the name of the path it spells. -/
lemma name_of_readsBack (plain : Template.isPlain (.text name) = true) (h : ReadsBack name) :
    ∃ p, Path.ofText name = .ok p ∧ p.name = name := by
  have hfetches := fetching_fetches name (.int 1)
  have hout : shelf.Outputs 0 true (fetching name) (holding name (.int 1)) (.int 1) :=
    h _ _ _ _ _ _ _ _ _ _ (shelf_watched _) (by simp) (putting_binds plain rfl) hfetches
  obtain ⟨p, hp, hlookup⟩ := hfetches.reads plain (by simp) hout
  refine ⟨p, hp, ?_⟩
  by_contra hname
  have hunbound : ∀ d ∈ [(holding name (.int 1)).bindings], d.Unbound p.name := by
    intro d hd w hw
    obtain rfl := List.mem_singleton.mp hd
    change Dict.get? [(name, Value.int 1)] p.name = some w at hw
    rw [Dict.get?_cons, if_neg (Ne.symm hname), Dict.get?_nil] at hw
    cases hw
  rw [Scopes.lookup_unbound hunbound] at hlookup
  cases hlookup

/-- **What is bound under a name is read under it just if the name is an identifier**, whatever row
of data there is. -/
theorem reads_back_iff_identifier (plain : Text.contains name "$\x7b" = false) :
    ReadsBack name ↔ Name.isIdentifier name.toList = true := by
  have hplain : Template.isPlain (.text name) = true := by rw [Template.isPlain, plain]; rfl
  constructor
  · intro hback
    obtain ⟨p, hp, hname⟩ := name_of_readsBack hplain hback
    exact Path.identifier_of_name hp hname
  · intro identifier m _ _ _ _ _ _ v c c' hm hv hbinds hfetches
    have hbinding := Scopes.binding?_cons_bound (hbinds.bound hm hplain) hv []
    have hlookup : Scopes.lookup [c'.bindings] ⟨name, []⟩ = .ok (some v) :=
      (Scopes.lookup_of_binding hbinding).trans (Value.follow_nil hv)
    exact hfetches.outputs hm hplain (Path.ofText_identifier identifier) hlookup

theorem reads_back_iff_identifier_city :
    Text.contains "city" "$\x7b" = false ∧
      Binds shelf 0 true (putting "city" (.text "Oslo")) "city" (.text "Oslo") silent
        (holding "city" (.text "Oslo")) ∧
      shelf.Outputs 0 true (fetching "city") (holding "city" (.text "Oslo")) (.text "Oslo") := by
  have hplain : Text.contains "city" "$\x7b" = false := by decide
  have hback := (reads_back_iff_identifier hplain).mpr (by decide)
  have hbinds : Binds shelf 0 true (putting "city" (.text "Oslo")) "city" (.text "Oslo") silent
      (holding "city" (.text "Oslo")) := putting_binds (by decide) (by decide)
  exact ⟨hplain, hbinds, hback _ _ _ _ _ _ _ _ _ _ (shelf_watched _) (by simp) hbinds
    (fetching_fetches _ _)⟩

/-- A variable that is bound under a name with a dot is not read under it: null is. -/
theorem dotted_name_is_not_read_back :
    Text.contains "user.name" "$\x7b" = false ∧
      Binds shelf 0 true (putting "user.name" (.text "Ann")) "user.name" (.text "Ann") silent
        (holding "user.name" (.text "Ann")) ∧
      Fetches shelf true (fetching "user.name") "user.name" (holding "user.name" (.text "Ann")) ∧
      shelf.Outputs 0 true (fetching "user.name") (holding "user.name" (.text "Ann")) .null ∧
      ¬ReadsBack "user.name" := by
  have hplain : Text.contains "user.name" "$\x7b" = false := by decide
  have hbinds : Binds shelf 0 true (putting "user.name" (.text "Ann")) "user.name" (.text "Ann")
      silent (holding "user.name" (.text "Ann")) := putting_binds (by decide) (by decide)
  have hpath : Path.ofText "user.name" = .ok ⟨"user", ["name"]⟩ := by rfl
  have hfetches := fetching_fetches "user.name" (.text "Ann")
  have hlookup : Scopes.lookup [(holding "user.name" (.text "Ann")).bindings]
      ⟨"user", ["name"]⟩ = .ok none := rfl
  refine ⟨hplain, hbinds, hfetches, ?_, fun hback => ?_⟩
  · exact hfetches.outputs (shelf_watched _) (by decide) hpath hlookup
  · obtain ⟨p, hp, hname⟩ := name_of_readsBack (by decide) hback
    rw [hpath] at hp
    cases hp
    exact absurd hname (by decide)

end Machine

end BlockSuite
