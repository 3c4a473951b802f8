import BlockSuite.Block.Custom
import BlockSuite.Proofs.Library
import BlockSuite.Proofs.Likeness
import BlockSuite.Proofs.Machine.Frames
import BlockSuite.Proofs.Procedure

/-!
Contexts that are alike. Two contexts are alike if variables have the same values in them, whatever
their order, if procedures are the same for those who call them, and if they agree in everything
else but the records of the journal and the current step. An action is impartial if it ends alike in
contexts that are alike, and leaves such contexts.
-/

namespace BlockSuite

open BlockSuite.Action (Agree Congruent)
open BlockSuite.Context (Likeness)

/-! ### Contexts that are alike -/

/-- What those who call a procedure see of it: its name, its parameters with their defaults, and its
steps. -/
def Procedure.interface (p : Procedure) : String × List (String × Value) × List Step :=
  (p.name, p.params.map fun q => (q.name, q.default), p.steps)

/-- Without defaults, callers see nothing of the parameters but their names. -/
lemma Procedure.interface_of_bare {p q : Procedure} (hname : p.name = q.name)
    (hp : ∀ x ∈ p.params, x.default = .null) (hq : ∀ x ∈ q.params, x.default = .null)
    (hparams : p.paramNames = q.paramNames) (hsteps : p.steps = q.steps) :
    p.interface = q.interface := by
  have hpairs {ps : List Param} (hps : ∀ x ∈ ps, x.default = .null) :
      ps.map (fun x => (x.name, x.default)) = (ps.map (·.name)).map fun name => (name, .null) := by
    rw [List.map_map]
    exact List.map_congr_left fun x hx => by rw [hps x hx]; rfl
  have hnames : p.params.map (·.name) = q.params.map (·.name) := hparams
  rw [Procedure.interface, Procedure.interface, hname, hpairs hp, hpairs hq, hnames, hsteps]

/-- Two contexts that differ in nothing but the order of variables, what callers do not see of
procedures, the current step and the journal. -/
structure Context.Alike (c d : Context) : Prop extends Context.SameTrial c d where
  bindings : ∀ name, c.bindings.get? name = d.bindings.get? name
  procedures : ∀ name, (c.shared.procedures.lookup name).map Procedure.interface =
    (d.shared.procedures.lookup name).map Procedure.interface
  soft : c.soft = d.soft
  softErrors : c.softErrors = d.softErrors
  resources : c.resources = d.resources
  callDepth : c.callDepth = d.callDepth
  cancelled : c.shared.cancelled = d.shared.cancelled
  level : c.shared.journal.level = d.shared.journal.level

namespace Context.Alike

variable {c d e : Context}

lemma refl (c : Context) : c.Alike c :=
  ⟨⟨rfl, rfl, rfl⟩, fun _ => rfl, fun _ => rfl, rfl, rfl, rfl, rfl, rfl, rfl⟩

lemma symm (h : c.Alike d) : d.Alike c where
  row := h.row.symm
  position := h.position.symm
  testName := h.testName.symm
  bindings name := (h.bindings name).symm
  procedures name := (h.procedures name).symm
  soft := h.soft.symm
  softErrors := h.softErrors.symm
  resources := h.resources.symm
  callDepth := h.callDepth.symm
  cancelled := h.cancelled.symm
  level := h.level.symm

lemma trans (h : c.Alike d) (h' : d.Alike e) : c.Alike e where
  row := h.row.trans h'.row
  position := h.position.trans h'.position
  testName := h.testName.trans h'.testName
  bindings name := (h.bindings name).trans (h'.bindings name)
  procedures name := (h.procedures name).trans (h'.procedures name)
  soft := h.soft.trans h'.soft
  softErrors := h.softErrors.trans h'.softErrors
  resources := h.resources.trans h'.resources
  callDepth := h.callDepth.trans h'.callDepth
  cancelled := h.cancelled.trans h'.cancelled
  level := h.level.trans h'.level

lemma keeps (h : c.Alike d) (level : Level) :
    c.shared.journal.keeps level = d.shared.journal.keeps level := by
  rw [Journal.keeps, Journal.keeps, h.level]

lemma withBindings (h : c.Alike d) {b b' : Dict Value}
    (hb : ∀ name, b.get? name = b'.get? name) :
    Context.Alike { c with bindings := b } { d with bindings := b' } :=
  { h with bindings := hb }

lemma withStep (h : c.Alike d) (step step' : Option Step) :
    Context.Alike { c with currentStep := step } { d with currentStep := step' } :=
  { h with }

/-- Nothing that is written into the journal makes a difference. -/
lemma withRecords (h : c.Alike d) (rs rs' : List (Level × String)) :
    (c.withRecords rs).Alike (d.withRecords rs') :=
  { h with }

lemma defining (h : c.Alike d) (name : String) {p q : Procedure}
    (hpq : p.interface = q.interface) : (c.defining name p).Alike (d.defining name q) := by
  refine { h with procedures := fun n => ?_ }
  change ((c.shared.procedures.define name p).lookup n).map Procedure.interface =
    ((d.shared.procedures.define name q).lookup n).map Procedure.interface
  by_cases hn : name = n
  · rw [← hn, Layers.lookup_define_self, Layers.lookup_define_self, Option.map_some,
      Option.map_some, hpq]
  · rw [Layers.lookup_define_ne _ _ hn, Layers.lookup_define_ne _ _ hn, h.procedures]

lemma setBinding (h : c.Alike d) (name : String) (v : Value) (n : String) :
    (c.bindings.set name v).get? n = (d.bindings.set name v).get? n := by
  by_cases hn : name = n
  · rw [← hn, Dict.get?_set_self, Dict.get?_set_self]
  · rw [Dict.get?_set_ne _ _ hn, Dict.get?_set_ne _ _ hn, h.bindings]

lemma opened (h : c.Alike d) : (Machine.openFrame c).Alike (Machine.openFrame d) :=
  { h with callDepth := congrArg (· + 1) h.callDepth }

lemma closed (h : c.Alike d) {before before' : Dict Value} {names names' : List String}
    (hbefore : ∀ name, before.get? name = before'.get? name)
    (hnames : ∀ name, name ∈ names ↔ name ∈ names') :
    (Machine.closeFrame before names c).Alike (Machine.closeFrame before' names' d) := by
  refine { h with callDepth := congrArg (· - 1) h.callDepth, bindings := fun name => ?_ }
  change (Machine.restored before names c.bindings).get? name =
    (Machine.restored before' names' d.bindings).get? name
  rw [Machine.get?_restored, Machine.get?_restored, hbefore, h.bindings]
  simp only [hnames]

lemma likeness : Likeness Context.Alike where
  trial _ _ h := h.toSameTrial
  values _ _ h := h.bindings
  collected _ _ h := h.softErrors
  depth _ _ h := h.callDepth
  cancelled _ _ h := h.cancelled
  level _ _ h := h.level
  logged _ _ h level text := by
    rw [Context.onJournal_log, Context.onJournal_log]
    exact h.withRecords _ _
  bound _ _ h name v := h.withBindings (h.setBinding name v)
  defined _ _ h name _ := h.defining name rfl
  entered _ _ h step := h.withStep _ _
  left _ _ _ _ _ h := h.withStep _ _
  opened _ _ h := h.opened
  closed _ _ _ _ hb h names := h.closed hb.bindings fun _ => Iff.rfl

end Context.Alike

/-- An action that ends alike in contexts that are alike. -/
def Impartial {α : Type} (x : Run α) : Prop := ∀ c d, c.Alike d → Agree Context.Alike Eq x c x d

/-- Elementary actions are impartial. -/
lemma Elementary.impartial {α : Type} {x : Run α} (h : Elementary x) : Impartial x :=
  Context.Alike.likeness.elementary h

/-! ### Blocks -/

/-- A block whose executor answers alike in contexts that are alike and in which the same step is
current. -/
def Block.Impartial (block : Block) : Prop := ∀ params c d, Context.Alike c d →
  c.currentStep = d.currentStep →
    Agree Context.Alike Answer.Alike (block.executor params) c (block.executor params) d

/-- Those who call a procedure have their arguments bound alike. -/
lemma Procedure.arguments_congr {p q : Procedure} (h : p.interface = q.interface) (v : Value) :
    p.arguments v = q.arguments v := by
  have hname : p.name = q.name := congrArg (·.1) h
  have hparams : p.params.map (fun x => (x.name, x.default)) =
      q.params.map fun x => (x.name, x.default) := congrArg (·.2.1) h
  have hlength : p.params.length = q.params.length := by
    simpa using congrArg List.length hparams
  have hbind : (Arguments.ofValue v).bind p = (Arguments.ofValue v).bind q := by
    cases Arguments.ofValue v with
    | named es => rw [Arguments.bind, Arguments.bind, Arguments.bindFrom_congr hparams]
    | positional values =>
      rw [Arguments.bind, Arguments.bind, hlength, Arguments.bindFrom_congr hparams]
  rw [Procedure.arguments, Procedure.arguments, hname, hbind]

/-- Whoever looks a procedure up is given one that callers see alike, or none. -/
lemma Context.Alike.procedure {c d : Context} (h : c.Alike d) (name : String) :
    Agree Context.Alike (fun p q => p.interface = q.interface) (Context.procedure name) c
      (Context.procedure name) d := by
  have hname := h.procedures name
  refine .get ?_
  cases hc : c.shared.procedures.lookup name with
  | none =>
    cases hd : d.shared.procedures.lookup name with
    | none => exact .fail _ h
    | some q => rw [hc, hd] at hname; cases hname
  | some p =>
    cases hd : d.shared.procedures.lookup name with
    | none => rw [hc, hd] at hname; cases hname
    | some q =>
      rw [hc, hd] at hname
      exact .pure (Option.some.inj hname) h

namespace Library

/-- The blocks that call procedures are impartial. -/
lemma callWith_agrees (expectReturn : Bool) (params : Dict Value) {c d : Context}
    (h : c.Alike d) : Agree Context.Alike Answer.Alike (callWith expectReturn params) c
      (callWith expectReturn params) d := by
  refine ((elementary_needText params "NAME").impartial c d h).bind ?_
  rintro name c₁ _ d₁ - - rfl h₁
  refine (h₁.procedure name).bind fun p c₂ q d₂ _ _ hpq h₂ => ?_
  rw [Procedure.arguments_congr hpq]
  refine (Agree.lift _ h₂).bind ?_
  rintro bound c₃ _ d₃ - - rfl h₃
  split
  · have hsteps : p.steps = q.steps := congrArg (·.2.2) hpq
    exact .pure (.signal fun _ => by rw [Signal.work, Signal.work, hsteps]) h₃
  · exact .fail _ h₃

/-- An assertion that is found false is reported alike for the same step. -/
lemma handle_agrees (x : Assertion) {c d : Context} (h : c.Alike d)
    (hstep : c.currentStep = d.currentStep) :
    Agree Context.Alike Eq (x.handle none none) c (x.handle none none) d := by
  unfold Assertion.handle
  split
  · exact .pure rfl h
  have hsource : Assertion.source c none none = Assertion.source d none none := by
    rw [Assertion.source, Assertion.source, hstep]
  have herror (id type : Option String) : x.hardError c id type = x.hardError d id type := by
    rw [Assertion.hardError, Assertion.hardError, h.testName, h.rowValue]
  refine .get ?_
  rw [hsource, h.soft]
  dsimp only
  split
  · refine (Agree.lift _ h).bind ?_
    rintro e c₁ _ d₁ - - rfl h₁
    have hcollects : Agree Context.Alike Eq
        (Action.modify fun c : Context => { c with softErrors := c.softErrors ++ [e] }) c₁
        (Action.modify fun c : Context => { c with softErrors := c.softErrors ++ [e] }) d₁ :=
      .modify { h₁ with softErrors := by rw [h₁.softErrors] }
    exact hcollects.bind fun _ c₂ _ d₂ _ _ _ h₂ => Context.Alike.likeness.log _ _ _ _ c₂ d₂ h₂
  · rw [herror]
    exact .fail _ h

lemma assertThat_impartial : assertThat.Impartial := by
  intro params c d h hstep
  change Agree _ _ (Block.asserting assertion params) c (Block.asserting assertion params) d
  refine ((assertion_elementary params).impartial c d h).bind ?_
  rintro x c₁ _ d₁ hc hd rfl h₁
  obtain ⟨rfl, -⟩ := assertion_done hc
  obtain ⟨rfl, -⟩ := assertion_done hd
  exact (handle_agrees x h hstep).bind fun _ c₂ _ d₂ _ _ _ h₂ => .pure (.refl _) h₂

/-- **All blocks of the library are impartial.** -/
theorem catalog_impartial {block : Block} (h : block ∈ catalog) : block.Impartial := by
  rcases catalog_elementary h with rfl | (rfl | rfl) | helementary
  · exact assertThat_impartial
  · exact fun params c d h _ => callWith_agrees _ params h
  · exact fun params c d h _ => callWith_agrees _ params h
  · intro params c d h _
    exact ((helementary params).impartial c d h).mono fun a b hab => hab ▸ .refl a

end Library

/-- The blocks of procedures are impartial. -/
lemma Procedure.block_impartial (p : Procedure) (category : String) :
    (p.block category).Impartial := fun _ _ _ h _ => .pure (.refl _) h

end BlockSuite
