import BlockSuite.Failure

/-!
Actions: computations on a state that may fail or stay unfinished. A failure keeps the changes
made before it, so what follows it sees them. An action stays unfinished where the nesting of the
steps it runs exceeds the bound it was given, or where a loop would never end.
-/

namespace BlockSuite

/-- How an action ends. -/
inductive Outcome (α : Type u) where
  | done (a : α)
  | failed (f : Failure)
  | exhausted
deriving Repr, Inhabited

/-- The result of an action that has ended; one that stays unfinished has none. -/
def Outcome.ended : Outcome α → Except Failure α
  | .done a => .ok a
  | .failed f => .error f
  | .exhausted => .error (.fault .runtime (some (.text "maximum recursion depth exceeded")))

/-- An action on a state. -/
def Action (σ : Type u) (α : Type u) := σ → Outcome α × σ

namespace Action

variable {σ τ α β : Type u}

def pure (a : α) : Action σ α := fun s => (.done a, s)

def bind (x : Action σ α) (f : α → Action σ β) : Action σ β := fun s =>
  match x s with
  | (.done a, s) => f a s
  | (.failed e, s) => (.failed e, s)
  | (.exhausted, s) => (.exhausted, s)

instance : Monad (Action σ) where
  pure := pure
  bind := bind

/-- The state. -/
def get : Action σ σ := fun s => (.done s, s)

/-- A part of the state. -/
def gets (f : σ → α) : Action σ α := fun s => (.done (f s), s)

/-- Changes the state. -/
def modify (f : σ → σ) : Action σ PUnit := fun s => (.done ⟨⟩, f s)

/-- Ends with a failure. -/
def fail (e : Failure) : Action σ α := fun s => (.failed e, s)

/-- Stays unfinished. -/
def exhaust : Action σ α := fun s => (.exhausted, s)

/-- Runs an action and gives its failure, if it fails, as a result. -/
def attempt (x : Action σ α) : Action σ (Except Failure α) := fun s =>
  match x s with
  | (.done a, s) => (.done (.ok a), s)
  | (.failed e, s) => (.done (.error e), s)
  | (.exhausted, s) => (.exhausted, s)

/-- A result or failure as an action. -/
def lift : Except Failure α → Action σ α
  | .ok a => pure a
  | .error e => fail e

/-- A result of a computation on values as an action. -/
def compute (r : Except Fault α) : Action σ α := lift (r.mapError Failure.ofFault)

/-- An action on a part of a larger state. -/
def zoom (view : τ → σ) (put : τ → σ → τ) (x : Action σ α) : Action τ α := fun t =>
  let (outcome, s) := x (view t)
  (outcome, put t s)

/-- Runs an action for each item in order. -/
def each (f : β → Action σ PUnit) : List β → Action σ PUnit
  | [] => pure ⟨⟩
  | b :: rest => bind (f b) fun _ => each f rest

@[simp] theorem pure_run (a : α) (s : σ) : (Pure.pure a : Action σ α) s = (.done a, s) := rfl

@[simp] theorem get_run (s : σ) : get s = (.done s, s) := rfl

@[simp] theorem gets_run (f : σ → α) (s : σ) : gets f s = (.done (f s), s) := rfl

@[simp] theorem modify_run (f : σ → σ) (s : σ) : modify f s = (.done ⟨⟩, f s) := rfl

@[simp] theorem fail_run (e : Failure) (s : σ) : (fail e : Action σ α) s = (.failed e, s) := rfl

theorem bind_run (x : Action σ α) (f : α → Action σ β) (s : σ) :
    (x >>= f) s =
      match x s with
      | (.done a, s) => f a s
      | (.failed e, s) => (.failed e, s)
      | (.exhausted, s) => (.exhausted, s) := rfl

instance : LawfulMonad (Action σ) := by
  refine LawfulMonad.mk' _ ?_ ?_ ?_
  · intro α x
    funext s
    show bind x (fun a => pure a) s = x s
    unfold bind
    split <;> simp_all [pure]
  · intros
    rfl
  · intro α β γ x f g
    funext s
    show bind (bind x f) g s = bind x (fun a => bind (f a) g) s
    unfold bind
    cases x s with
    | mk o s' => cases o <;> rfl

end Action

end BlockSuite
