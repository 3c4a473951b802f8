import BlockSuite.Proofs.Aloof

/-!
Elementary actions. Most blocks look at the test and the row that they run for, read and bind
variables, and write records; their executors are put together from such actions. What holds of these
and is kept by sequences holds of all such executors.
-/

namespace BlockSuite

/-- The same test is run for the same row. -/
structure Context.SameTrial (c d : Context) : Prop where
  row : c.row = d.row
  position : c.position = d.position
  testName : c.testName = d.testName

namespace Context.SameTrial

variable {c d : Context}

lemma rowValue (h : c.SameTrial d) : c.rowValue = d.rowValue := by
  rw [Context.rowValue, Context.rowValue, h.position]

lemma marks (h : c.SameTrial d) : c.marks = d.marks := by
  rw [Context.marks, Context.marks, h.testName, h.rowValue]

end Context.SameTrial

/-- Actions that are put together from looks at the test and its row, variables and records. -/
inductive Elementary : {α : Type} → Run α → Prop
  | pure {α : Type} (a : α) : Elementary (Pure.pure a : Run α)
  | fail {α : Type} (e : Failure) : Elementary (Action.fail e : Run α)
  | exhaust {α : Type} : Elementary (Action.exhaust : Run α)
  | bind {α β : Type} {x : Run α} {f : α → Run β} (hx : Elementary x)
    (hf : ∀ a, Elementary (f a)) : Elementary (x >>= f)
  | look {α : Type} {f : Context → Run α} (same : ∀ c d : Context, c.SameTrial d → f c = f d)
    (hf : ∀ c, Elementary (f c)) : Elementary (Action.get >>= f)
  | readPath (v : Value) : Elementary (Context.readPath v)
  | setVariable (name : String) (v : Value) : Elementary (Context.setVariable name v)
  | log (level : Level) (template : String) (arguments : List Value) (data : Value) :
    Elementary (Context.log level template arguments data)

namespace Elementary

variable {α : Type}

lemma lift (e : Except Failure α) : Elementary (Action.lift e : Run α) := by
  cases e with
  | ok a => exact pure a
  | error e => exact fail e

lemma compute (e : Except Fault α) : Elementary (Action.compute e : Run α) := lift _

/-- Elementary actions have nothing to do with assertions. -/
lemma aloof {x : Run α} (h : Elementary x) : Aloof x := by
  induction h with
  | pure a => exact .pure a
  | fail e => exact .fail e
  | exhaust => exact .exhaust
  | bind _ _ hx hf => exact hx.bind hf
  | look same _ hf => exact .get (fun c _ _ => same _ c ⟨rfl, rfl, rfl⟩) hf
  | readPath v => exact .readPath v
  | setVariable name v => exact .setVariable name v
  | log level template arguments data => exact .log level template arguments data

end Elementary

end BlockSuite
