import BlockSuite.Proofs.Log

/-!
What has nothing to do with assertions. An action is blind to a change of the state that it does not
look at: with the change it ends as it does without, and leaves a state that is changed alike. An
action on contexts is aloof if it is blind to the mode of assertions and to whatever was collected;
so it leaves both alone.
-/

namespace BlockSuite

namespace Action

variable {σ α β : Type} {g : σ → σ} {x : Action σ α} {f : α → Action σ β} {s t : σ}

/-- In some state, an action is blind to a change of the state. -/
def BlindAt (g : σ → σ) (x : Action σ α) (s : σ) : Prop := x (g s) = ((x s).1, g (x s).2)

namespace BlindAt

lemma run (h : BlindAt g x s) {o : Outcome α} (hx : x s = (o, t)) : x (g s) = (o, g t) := by
  rw [h, hx]

lemma of_run {o : Outcome α} (hx : x s = (o, t)) (h : x (g s) = (o, g t)) : BlindAt g x s := by
  rw [BlindAt, h, hx]

lemma bind (hx : BlindAt g x s) (hf : ∀ a t, x s = (.done a, t) → BlindAt g (f a) t) :
    BlindAt g (x >>= f) s := by
  rcases hxs : x s with ⟨a | e | _, t⟩
  · have hft := hf a t hxs
    rw [BlindAt, bind_of_done (hx.run hxs), bind_of_done hxs]
    exact hft
  · exact of_run (bind_of_failed hxs f) (bind_of_failed (hx.run hxs) f)
  · exact of_run (bind_of_exhausted hxs f) (bind_of_exhausted (hx.run hxs) f)

/-- What is looked up in the state may not depend on the change. -/
lemma get {f : σ → Action σ α} (hf : f (g s) = f s) (h : BlindAt g (f s) s) :
    BlindAt g (Action.get >>= f) s := by
  have hget (u : σ) : (Action.get >>= f) u = f u u := bind_of_done (get_run u) f
  rw [BlindAt, hget, hget, hf]
  exact h

lemma modify {k : σ → σ} (h : k (g s) = g (k s)) : BlindAt g (Action.modify k) s := by
  rw [BlindAt, modify_run, modify_run, h]

end BlindAt

end Action

open BlockSuite.Action (BlindAt)

variable {α β : Type}

/-- A context with another mode of assertions and other failures that were collected. -/
def Context.withAssertions (c : Context) (soft : Bool) (errors : List SoftError) : Context :=
  { c with soft, softErrors := errors }

/-- An action that does not look at the mode of assertions, nor at what was collected. -/
def Aloof (x : Run α) : Prop :=
  ∀ soft errors c, BlindAt (fun c => c.withAssertions soft errors) x c

namespace Aloof

variable {x : Run α} {f : α → Run β} {c c' : Context} {o : Outcome α}

/-- What an action does not look at it leaves alone. -/
lemma same (hx : Aloof x) (h : x c = (o, c')) :
    c'.soft = c.soft ∧ c'.softErrors = c.softErrors := by
  have hself := (hx c.soft c.softErrors c).run h
  change x c = _ at hself
  rw [h] at hself
  have hc : c' = c'.withAssertions c.soft c.softErrors := (Prod.mk.inj hself).2
  rw [hc]
  exact ⟨rfl, rfl⟩

lemma pure (a : α) : Aloof (Pure.pure a : Run α) := fun _ _ _ => rfl

lemma fail (e : Failure) : Aloof (Action.fail e : Run α) := fun _ _ _ => rfl

lemma exhaust : Aloof (Action.exhaust : Run α) := fun _ _ _ => rfl

lemma bind (hx : Aloof x) (hf : ∀ a, Aloof (f a)) : Aloof (x >>= f) := fun soft errors c =>
  (hx soft errors c).bind fun a t _ => hf a soft errors t

lemma get {f : Context → Run α} (hf : ∀ c soft errors, f (c.withAssertions soft errors) = f c)
    (h : ∀ c, Aloof (f c)) : Aloof (Action.get >>= f) := fun soft errors c =>
  .get (hf c soft errors) (h c soft errors c)

lemma lift (e : Except Failure α) : Aloof (Action.lift e) := by
  cases e with
  | ok a => exact pure a
  | error e => exact fail e

lemma compute (e : Except Fault α) : Aloof (Action.compute e : Run α) := lift _

/-! ### Actions on contexts -/

lemma readPath (v : Value) : Aloof (Context.readPath v) :=
  .get (fun _ _ _ => rfl) fun _ => compute _

lemma procedure (name : String) : Aloof (Context.procedure name) := by
  refine .get (fun _ _ _ => rfl) fun c => ?_
  split
  · exact pure _
  · exact fail _

lemma log (level : Level) (template : String) (arguments : List Value) (data : Value) :
    Aloof (Context.log level template arguments data) := by
  refine .get (fun _ _ _ => rfl) fun _ => .get (fun _ _ _ => rfl) fun c => ?_
  split
  · exact (compute _).bind fun text => fun _ _ c => .modify rfl
  · exact pure _

lemma setVariable (name : String) (v : Value) : Aloof (Context.setVariable name v) :=
  bind (fun _ _ _ => .modify rfl) fun _ => log _ _ _ _

end Aloof

end BlockSuite
