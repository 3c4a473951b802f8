import BlockSuite.Proofs.Elementary
import BlockSuite.Proofs.Machine.Work
import BlockSuite.Proofs.Template

/-!
Runs side by side. Two actions agree in two states if they end alike there and leave related states.
A relation between contexts is a likeness if related contexts have in common what the machine looks
at, the values of variables among it, and stay related where the machine does the same to both of
them. Then the machine's own actions agree with themselves in related contexts.
-/

namespace BlockSuite

/-- Two outcomes agree: both actions come to their ends, with values that are related, or they fail
alike, or both stay unfinished. -/
inductive Outcome.Agree {α β : Type} (R : α → β → Prop) : Outcome α → Outcome β → Prop
  | done {a : α} {b : β} (h : R a b) : Agree R (.done a) (.done b)
  | failed (e : Failure) : Agree R (.failed e) (.failed e)
  | exhausted : Agree R .exhausted .exhausted

lemma Outcome.Agree.refl {α : Type} (o : Outcome α) : o.Agree Eq o := by
  cases o with
  | done a => exact .done rfl
  | failed e => exact .failed e
  | exhausted => exact .exhausted

lemma Outcome.Agree.eq {α : Type} {o o' : Outcome α} (h : o.Agree Eq o') : o = o' := by
  cases h with
  | done h => rw [h]
  | failed e => rfl
  | exhausted => rfl

namespace Action

variable {σ τ α β γ δ : Type}

/-- In two states, two actions agree: their outcomes agree, and they leave related states. -/
structure Agree (S : σ → τ → Prop) (R : α → β → Prop) (x : Action σ α) (s : σ) (y : Action τ β)
    (t : τ) : Prop where
  outcome : (x s).1.Agree R (y t).1
  state : S (x s).2 (y t).2

namespace Agree

variable {S : σ → τ → Prop} {R : α → β → Prop} {Q : γ → δ → Prop} {x : Action σ α} {y : Action τ β}
  {f : α → Action σ γ} {g : β → Action τ δ} {s s' : σ} {t t' : τ}

lemma refl (x : Action σ α) (s : σ) : Agree Eq Eq x s x s := ⟨.refl _, rfl⟩

lemma of_run {o : Outcome α} {o' : Outcome β} (hx : x s = (o, s')) (hy : y t = (o', t'))
    (ho : o.Agree R o') (hs : S s' t') : Agree S R x s y t :=
  ⟨by rw [hx, hy]; exact ho, by rw [hx, hy]; exact hs⟩

/-- Two actions that agree come to their ends with related values, or to the same end without. -/
lemma cases (h : Agree S R x s y t) :
    (∃ a s' b t', x s = (.done a, s') ∧ y t = (.done b, t') ∧ R a b ∧ S s' t') ∨
    (∃ e s' t', x s = (.failed e, s') ∧ y t = (.failed e, t') ∧ S s' t') ∨
    ∃ s' t', x s = (.exhausted, s') ∧ y t = (.exhausted, t') ∧ S s' t' := by
  obtain ⟨ho, hs⟩ := h
  rcases hx : x s with ⟨o, s'⟩
  rcases hy : y t with ⟨o', t'⟩
  rw [hx, hy] at ho hs
  cases ho with
  | done h => exact .inl ⟨_, _, _, _, rfl, rfl, h, hs⟩
  | failed e => exact .inr (.inl ⟨e, _, _, rfl, rfl, hs⟩)
  | exhausted => exact .inr (.inr ⟨_, _, rfl, rfl, hs⟩)

lemma bind (h : Agree S R x s y t)
    (hf : ∀ a s' b t', x s = (.done a, s') → y t = (.done b, t') → R a b → S s' t' →
      Agree S Q (f a) s' (g b) t') : Agree S Q (x >>= f) s (y >>= g) t := by
  rcases h.cases with ⟨a, s', b, t', hx, hy, hR, hS⟩ | ⟨e, s', t', hx, hy, hS⟩ |
    ⟨s', t', hx, hy, hS⟩
  · obtain ⟨ho, hs⟩ := hf a s' b t' hx hy hR hS
    exact ⟨by rwa [bind_of_done hx, bind_of_done hy], by rwa [bind_of_done hx, bind_of_done hy]⟩
  · exact of_run (bind_of_failed hx f) (bind_of_failed hy g) (.failed e) hS
  · exact of_run (bind_of_exhausted hx f) (bind_of_exhausted hy g) .exhausted hS

lemma pure {a : α} {b : β} (h : R a b) (hs : S s t) :
    Agree S R (Pure.pure a) s (Pure.pure b) t := ⟨.done h, hs⟩

lemma fail (e : Failure) (hs : S s t) : Agree S R (Action.fail e) s (Action.fail e) t :=
  ⟨.failed e, hs⟩

lemma exhaust (hs : S s t) : Agree S R Action.exhaust s Action.exhaust t := ⟨.exhausted, hs⟩

/-- Behind a look at the states. -/
lemma get {f : σ → Action σ γ} {g : τ → Action τ δ} (h : Agree S Q (f s) s (g t) t) :
    Agree S Q (Action.get >>= f) s (Action.get >>= g) t := ⟨h.outcome, h.state⟩

lemma modify {k : σ → σ} {l : τ → τ} (h : S (k s) (l t)) :
    Agree S Eq (Action.modify k) s (Action.modify l) t := ⟨.done rfl, h⟩

lemma lift (e : Except Failure α) (hs : S s t) :
    Agree S Eq (Action.lift e) s (Action.lift e) t := by
  cases e with
  | ok a => exact pure rfl hs
  | error e => exact fail e hs

lemma compute (e : Except Fault α) (hs : S s t) :
    Agree S Eq (Action.compute e) s (Action.compute e) t := lift _ hs

lemma attempt {x : Action σ α} {y : Action τ α} (h : Agree S Eq x s y t) :
    Agree S Eq (Action.attempt x) s (Action.attempt y) t := by
  rcases h.cases with ⟨a, s', b, t', hx, hy, rfl, hS⟩ | ⟨e, s', t', hx, hy, hS⟩ |
    ⟨s', t', hx, hy, hS⟩
  · exact of_run (attempt_of_done hx) (attempt_of_done hy) (.done rfl) hS
  · exact of_run (attempt_of_failed hx) (attempt_of_failed hy) (.done rfl) hS
  · exact of_run (attempt_of_exhausted hx) (attempt_of_exhausted hy) .exhausted hS

/-- What two actions that agree have come to may be taken up later. -/
lemma attempt_lift {x : Action σ α} {y : Action τ β} (h : Agree S R x s y t) :
    Agree S (fun e e' => ∀ s t, S s t → Agree S R (Action.lift e) s (Action.lift e') t)
      (Action.attempt x) s (Action.attempt y) t := by
  rcases h.cases with ⟨a, s', b, t', hx, hy, h, hS⟩ | ⟨e, s', t', hx, hy, hS⟩ |
    ⟨s', t', hx, hy, hS⟩
  · exact of_run (attempt_of_done hx) (attempt_of_done hy) (.done fun _ _ hs => pure h hs) hS
  · exact of_run (attempt_of_failed hx) (attempt_of_failed hy) (.done fun _ _ hs => fail e hs) hS
  · exact of_run (attempt_of_exhausted hx) (attempt_of_exhausted hy) .exhausted hS

lemma congr {x' : Action σ α} {y' : Action τ β} (hx : x s = x' s') (hy : y t = y' t')
    (h : Agree S R x' s' y' t') : Agree S R x s y t := by
  obtain ⟨ho, hs⟩ := h
  exact ⟨by rwa [hx, hy], by rwa [hx, hy]⟩

lemma mono {R' : α → β → Prop} (h : Agree S R x s y t) (hR : ∀ a b, R a b → R' a b) :
    Agree S R' x s y t := by
  rcases h.cases with ⟨a, s', b, t', hx, hy, h, hS⟩ | ⟨e, s', t', hx, hy, hS⟩ |
    ⟨s', t', hx, hy, hS⟩
  · exact of_run hx hy (.done (hR a b h)) hS
  · exact of_run hx hy (.failed e) hS
  · exact of_run hx hy .exhausted hS

end Agree

/-- An action is blind to a change of the state if it agrees with itself in the changed state. -/
lemma blindAt_iff {g : σ → σ} {x : Action σ α} {s : σ} :
    BlindAt g x s ↔ Agree (fun s t => t = g s) Eq x s x (g s) := by
  constructor
  · intro h
    rw [BlindAt] at h
    refine ⟨?_, by rw [h]⟩
    rw [h]
    exact .refl _
  · intro h
    rcases h.cases with ⟨a, s', b, t', hx, hy, rfl, rfl⟩ | ⟨e, s', t', hx, hy, rfl⟩ |
      ⟨s', t', hx, hy, rfl⟩
    all_goals exact .of_run hx hy

/-- An action that agrees with itself in related states. -/
def Congruent (S : σ → σ → Prop) (x : Action σ α) : Prop := ∀ s t, S s t → Agree S Eq x s x t

namespace Congruent

variable {S : σ → σ → Prop} {x : Action σ α}

lemma pure (a : α) : Congruent S (Pure.pure a : Action σ α) := fun _ _ h => .pure rfl h

lemma fail (e : Failure) : Congruent S (Action.fail e : Action σ α) := fun _ _ h => .fail e h

lemma exhaust : Congruent S (Action.exhaust : Action σ α) := fun _ _ h => .exhaust h

lemma bind {f : α → Action σ β} (hx : Congruent S x) (hf : ∀ a, Congruent S (f a)) :
    Congruent S (x >>= f) := fun s t h =>
  (hx s t h).bind fun a s' _ t' _ _ hab h' => hab ▸ hf a s' t' h'

lemma each {g : β → Action σ PUnit} {items : List β} (h : ∀ b ∈ items, Congruent S (g b)) :
    Congruent S (Action.each g items) := by
  induction items with
  | nil => exact pure _
  | cons b rest ih =>
    exact (h b List.mem_cons_self).bind fun _ => ih fun b hb => h b (List.mem_cons_of_mem _ hb)

lemma attempt (hx : Congruent S x) : Congruent S (Action.attempt x) := fun s t h =>
  (hx s t h).attempt

lemma runAll {S : Context → Context → Prop} {hooks : List Hooks} {event : Hooks → Option α}
    {call : α → Run Unit} (h : ∀ k ∈ hooks, ∀ f, event k = some f → Congruent S (call f)) :
    Congruent S (Hooks.runAll hooks fun k => (event k).map call) := by
  refine each fun x hx => ?_
  obtain ⟨k, hk, f, hf, rfl⟩ := Hooks.mem_calls hx
  exact h k hk f hf

end Congruent

end Action

open BlockSuite.Action (Agree Congruent)

namespace Context

/-- A context in which a procedure is defined. -/
def defining (c : Context) (name : String) (p : Procedure) : Context :=
  { c with shared := { c.shared with procedures := c.shared.procedures.define name p } }

/-- Related contexts have in common what the machine looks at, and stay related where it does the
same to both of them. What it restores behind a step or a frame are parts of contexts that are
related as well. -/
structure Likeness (S : Context → Context → Prop) : Prop where
  trial : ∀ c d, S c d → c.SameTrial d
  values : ∀ c d, S c d → ∀ name, c.bindings.get? name = d.bindings.get? name
  collected : ∀ c d, S c d → c.softErrors = d.softErrors
  depth : ∀ c d, S c d → c.callDepth = d.callDepth
  cancelled : ∀ c d, S c d → c.shared.cancelled = d.shared.cancelled
  level : ∀ c d, S c d → c.shared.journal.level = d.shared.journal.level
  logged : ∀ c d, S c d → ∀ level text,
    S (c.onJournal (·.log level text)) (d.onJournal (·.log level text))
  bound : ∀ c d, S c d → ∀ name v,
    S { c with bindings := c.bindings.set name v } { d with bindings := d.bindings.set name v }
  defined : ∀ c d, S c d → ∀ name p, S (c.defining name p) (d.defining name p)
  entered : ∀ c d, S c d → ∀ step,
    S { c with currentStep := some step } { d with currentStep := some step }
  left : ∀ b e c d, S b e → S c d →
    S { c with currentStep := b.currentStep } { d with currentStep := e.currentStep }
  opened : ∀ c d, S c d → S (Machine.openFrame c) (Machine.openFrame d)
  closed : ∀ b e c d, S b e → S c d → ∀ names,
    S (Machine.closeFrame b.bindings names c) (Machine.closeFrame e.bindings names d)

/-- The same contexts. -/
lemma Likeness.eq : Likeness Eq where
  trial := by rintro c _ rfl; exact ⟨rfl, rfl, rfl⟩
  values := by rintro c _ rfl _; rfl
  collected := by rintro c _ rfl; rfl
  depth := by rintro c _ rfl; rfl
  cancelled := by rintro c _ rfl; rfl
  level := by rintro c _ rfl; rfl
  logged := by rintro c _ rfl _ _; rfl
  bound := by rintro c _ rfl _ _; rfl
  defined := by rintro c _ rfl _ _; rfl
  entered := by rintro c _ rfl _; rfl
  left := by rintro b _ c _ rfl rfl; rfl
  opened := by rintro c _ rfl; rfl
  closed := by rintro b _ c _ rfl rfl _; rfl

namespace Likeness

variable {α : Type} {S : Context → Context → Prop} {c d : Context} (hS : Likeness S)
include hS

/-- Values are filled alike. -/
lemma fillValue (h : S c d) (v : Value) :
    Template.fillValue c.scopes v = Template.fillValue d.scopes v := by
  have hbinding (name : String) : c.scopes.binding? name = d.scopes.binding? name := by
    unfold Context.scopes
    rw [← (hS.trial c d h).row]
    cases c.row <;> simp only [Scopes.binding?, List.findSome?_cons, hS.values c d h name]
  exact Template.fillValue_congr v (.of_binding fun _ _ p _ => hbinding p.name)

/-! ### What the machine does itself -/

lemma fill (v : Value) : Congruent S (Context.fill v) := fun c d h => by
  refine .get ?_
  rw [hS.fillValue h v]
  exact .compute _ h

lemma readPath (v : Value) : Congruent S (Context.readPath v) := fun c d h => by
  have hlookup (p : Path) : Scopes.lookup [c.bindings] p = Scopes.lookup [d.bindings] p := by
    have hbinding : Scopes.binding? [c.bindings] p.name = Scopes.binding? [d.bindings] p.name := by
      simp only [Scopes.binding?, List.findSome?_cons, hS.values c d h p.name]
    rw [Scopes.lookup, Scopes.lookup, hbinding]
  refine .get ?_
  simp only [hlookup]
  exact .compute _ h

lemma ensureRunning : Congruent S Context.ensureRunning := fun c d h => by
  refine .get ?_
  rw [hS.cancelled c d h]
  split
  · exact .fail _ h
  · exact .pure rfl h

lemma log (level : Level) (template : String) (arguments : List Value) (data : Value) :
    Congruent S (Context.log level template arguments data) := fun c d h => by
  have hkeeps : c.shared.journal.keeps level = d.shared.journal.keeps level := by
    rw [Journal.keeps, Journal.keeps, hS.level c d h]
  refine .congr (Context.log_eq _ _ _ _ c) (Context.log_eq _ _ _ _ d) (.get ?_)
  rw [hkeeps, (hS.trial c d h).marks]
  split
  · refine (Agree.compute _ h).bind ?_
    rintro text c' _ d' - - rfl h'
    exact .modify (hS.logged c' d' h' level text)
  · exact .pure rfl h

lemma setVariable (name : String) (v : Value) : Congruent S (Context.setVariable name v) :=
  .bind (fun c d h => .modify (hS.bound c d h name v)) fun _ => hS.log _ _ _ _

lemma bindEach (bindings : Dict Value) : Congruent S (Machine.bindEach bindings) :=
  .each fun e _ => hS.setVariable e.1 e.2

lemma bindItem (binding : String) (indexBinding : Option String) (index : Nat) (v : Value) :
    Congruent S (Machine.bindItem binding indexBinding index v) := by
  refine (hS.setVariable _ _).bind fun _ => ?_
  split
  · exact hS.setVariable _ _
  · exact .pure _

lemma bindCaught (errorBinding : Option String) (r : StepResult) :
    Congruent S (Machine.bindCaught errorBinding r) := by
  refine (hS.log _ _ _ _).bind fun _ => ?_
  split
  · exact hS.setVariable _ _
  · exact .pure _

lemma defineLogged (name : String) (p : Procedure) : Congruent S (Machine.defineLogged name p) :=
  .bind (fun c d h => .modify (hS.defined c d h name p)) fun _ => hS.log _ _ _ _

lemma fillArguments (args : Dict Value) : Congruent S (Machine.fillArguments args) := by
  induction args with
  | nil => exact .pure _
  | cons e rest ih => exact (hS.fill _).bind fun v => ih.bind fun _ => .pure _

lemma callBindings (name : String) (args : Dict Value) :
    Congruent S (Machine.callBindings name args) :=
  (hS.fillArguments args).bind fun _ => (hS.log _ _ _ _).bind fun _ => .pure _

/-- What a pass begins with. -/
lemma work_starts {step : Step} {s : Signal} {starts : List (Run Unit)} {steps : List Step}
    (h : s.work step = .passes starts steps) : ∀ x ∈ starts, Congruent S x := by
  intro x hx
  obtain rfl | ⟨_, _, _, _, rfl⟩ | ⟨_, rfl⟩ := Signal.mem_starts h hx
  · exact .pure ()
  · exact hS.bindItem _ _ _ _
  · exact hS.bindEach _

/-- The arguments of a frame. -/
lemma work_args {step : Step} {s : Signal} {args : Run (Dict Value)} {body : List Step}
    {expectReturn : Bool} (h : s.work step = .frame args body expectReturn) :
    Congruent S args := by
  obtain ⟨bindings, rfl⟩ | ⟨name, given, rfl⟩ := Signal.work_args h
  · exact .pure _
  · exact hS.callBindings name given

/-- Elementary actions. -/
lemma elementary {x : Run α} (h : Elementary x) : Congruent S x := by
  induction h with
  | pure a => exact .pure a
  | fail e => exact .fail e
  | exhaust => exact .exhaust
  | bind _ _ hx hf => exact hx.bind hf
  | look same _ hf =>
    intro c d h
    refine .get ?_
    rw [same c d (hS.trial c d h)]
    exact hf d c d h
  | readPath v => exact hS.readPath v
  | setVariable name v => exact hS.setVariable name v
  | log level template arguments data => exact hS.log level template arguments data

end Likeness

end Context

/-- Two answers are alike: they give the same value, or ask for the same work. -/
inductive Answer.Alike : Answer → Answer → Prop
  | value (v : Value) : Alike (.value v) (.value v)
  | signal {s s' : Signal} (h : ∀ step, s.work step = s'.work step) :
    Alike (.signal s) (.signal s')

lemma Answer.Alike.refl (a : Answer) : a.Alike a := by
  cases a with
  | value v => exact .value v
  | signal s => exact .signal fun _ => rfl

end BlockSuite
