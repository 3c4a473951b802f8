import BlockSuite.Proofs.Machine.Capture
import BlockSuite.Proofs.Machine.Contained

/-!
Well-formed results. Until a step comes to its end, its record tells of nothing but assertions that
were collected, and has an output only where the step leaves a procedure, which it does last. So
whatever a step fails with settles a record without an output, and the error of the record is that
of its failure. As long as executors and hooks say what they raise in texts, so do all results.
-/

namespace BlockSuite

/-- Failures that have a text for what they say: the reason of a skip, or the message of an error.
All others are shown as texts. -/
def Failure.Worded : Failure → Prop
  | .skip reason => ∃ s, reason = .text s
  | .raised e => ∃ s, e.message = .text s
  | .fault _ _ => True
  | .invalid _ => True

/-- A result whose parts agree on how its step has ended. -/
structure StepResult.WellFormed (r : StepResult) : Prop where
  status : r.status ≠ .error
  passed : r.status = .passed → r.error = none ∧ r.failure = none ∧ r.soft = false
  fatal : r.isFatal = true → ∃ e s, r.failure = some (.raised e) ∧ e.reason.isRuntime = true ∧
    e.message = .text s ∧
    r.error = some ⟨if s.isEmpty then e.reason.label else s, (Failure.raised e).trace,
      some e.reason.code⟩ ∧ r.output = .null ∧ r.returned = false
  skipped : r.status = .skipped → ∃ s, r.failure = some (.skip (.text s)) ∧
    r.error = some ⟨s, none, some "skipped"⟩ ∧ r.output = .null ∧ r.returned = false
  soft : r.status = .failed → r.soft = true →
    r.failure = none ∧ ∃ e, r.error = some e ∧ e.code = some "soft_assertion"

/-- The record of a step that has not come to its end: it passes so far, but for assertions that
were collected, and has an output only if the step leaves a procedure. -/
structure StepResult.Undecided (r : StepResult) : Prop where
  failure : r.failure = none
  output : r.returned = false → r.output = .null
  marks : (r.status = .passed ∧ r.soft = false ∧ r.error = none) ∨
    r.status = .failed ∧ r.soft = true ∧ ∃ e, r.error = some e ∧ e.code = some "soft_assertion"

namespace Failure

lemma Internal.worded {f : Failure} (h : f.Internal) : f.Worded := by
  cases h <;> trivial

/-- What a result tells of an error whose message is a text. -/
lemma info_text {e : BlockError} {s : String} (h : e.message = .text s) :
    (Failure.raised e).info = .ok ⟨if s.isEmpty then e.reason.label else s,
      (Failure.raised e).trace, some e.reason.code⟩ := by
  have htruthy : (Value.text s).isTruthy = !s.isEmpty := rfl
  rw [info_raised, h, htruthy]
  cases s.isEmpty <;> rfl

end Failure

namespace StepResult

variable {r : StepResult}

lemma Undecided.blank (step : Step) : (StepResult.blank step).Undecided :=
  ⟨rfl, fun _ => rfl, .inl ⟨rfl, rfl, rfl⟩⟩

lemma WellFormed.withArtifact (h : r.WellFormed) (v : Value) :
    ({ r with artifact := v } : StepResult).WellFormed :=
  ⟨h.status, h.passed, h.fatal, h.skipped, h.soft⟩

/-- A step that comes to a value. -/
lemma Undecided.withOutput (h : r.Undecided) (v : Value) :
    ({ r with output := v } : StepResult).WellFormed := by
  obtain ⟨hfailure, -, ⟨hs, ht, he⟩ | ⟨hs, ht, he⟩⟩ := h
  · refine ⟨?_, fun _ => ⟨he, hfailure, ht⟩, ?_, ?_, ?_⟩ <;> simp [isFatal, hs]
  · refine ⟨?_, ?_, ?_, ?_, fun _ _ => ⟨hfailure, he⟩⟩ <;> simp [isFatal, hs, ht]

end StepResult

namespace Machine

open BlockSuite.Action (Contract Meets)
open BlockSuite.Frame (inContext note)
open BlockSuite.StepResult (WellFormed Undecided)

variable {m : Machine} {run : Runner} {nested : Bool} {step : Step} {c c' : Context}
  {r r' : StepResult} {f : Failure} {α β : Type}

/-! ### Records that are not settled -/

/-- The contract of what is done before a step comes to its end. -/
def undecided : Contract Frame :=
  ⟨fun f f' => f.result.Undecided → f'.result.Undecided, fun _ => True⟩

lemma undecided_bind {x : Frame.Act α} {g : α → Frame.Act β} (hx : Meets undecided x)
    (hg : ∀ a, Meets undecided (g a)) : Meets undecided (x >>= g) :=
  .bind (fun _ _ _ h h' => h' ∘ h) hx fun a _ => hg a

lemma undecided_same {x : Frame.Act α} (h : ∀ f, (x f).2.result = f.result) :
    Meets undecided x := by
  intro f
  have hf := h f
  rcases hx : x f with ⟨a | e | _, f'⟩
  · rw [hx] at hf
    exact ⟨fun hu => hf ▸ hu, trivial⟩
  · rw [hx] at hf
    exact ⟨fun hu => hf ▸ hu, trivial⟩
  · trivial

lemma undecided_inContext (x : Run α) : Meets undecided (inContext x) :=
  undecided_same fun _ => rfl

lemma undecided_note {change : StepResult → StepResult}
    (h : ∀ r : StepResult, r.Undecided → (change r).Undecided) : Meets undecided (note change) :=
  .modify fun f => h f.result

lemma undecided_children (rs : List StepResult) :
    Meets undecided (note fun r => { r with children := r.children ++ rs }) :=
  undecided_note fun _ h => ⟨h.failure, h.output, h.marks⟩

lemma undecided_adopt (rs : List StepResult) : Meets undecided (Frame.adopt rs) := by
  refine undecided_bind (undecided_children rs) fun _ => undecided_bind ?_ fun _ => ?_
  · exact undecided_same fun f => by rw [raiseFor_same]
  · refine undecided_note fun r h => ?_
    induction rs generalizing r with
    | nil => exact h
    | cons x rest ih =>
      refine ih _ ?_
      dsimp only
      split
      · exact ⟨h.failure, nofun, h.marks⟩
      · exact h

lemma undecided_runBody (steps : List Step) : Meets undecided (runBody run steps) :=
  undecided_bind (undecided_inContext _) undecided_adopt

lemma undecided_runPasses (steps : List Step) (starts : List (Run Unit)) :
    Meets undecided (runPasses (runBody run steps) starts) := by
  induction starts with
  | nil => exact undecided_same fun _ => rfl
  | cons start rest ih =>
    refine undecided_bind (undecided_inContext _) fun _ => ?_
    refine undecided_bind (undecided_runBody _) fun _ => ?_
    refine undecided_bind (undecided_same fun _ => rfl) fun returned => ?_
    cases returned with
    | true => exact undecided_same fun _ => rfl
    | false => exact ih

lemma undecided_runTrial (steps handler : List Step) (errorBinding : Option String) :
    Meets undecided (runTrial run steps handler errorBinding) := by
  refine undecided_bind (undecided_inContext _) fun rs => ?_
  cases rs.find? (·.isFatal) with
  | none => exact undecided_adopt rs
  | some r =>
    exact undecided_bind (undecided_children rs) fun _ =>
      undecided_bind (undecided_inContext _) fun _ => undecided_runBody handler

lemma undecided_runFrame (steps : List Step) (expectReturn : Bool) (bindings : Dict Value) :
    Meets undecided (runFrame run steps expectReturn bindings) := by
  intro f
  rcases h : runFrame run steps expectReturn bindings f with ⟨o, f'⟩
  have hresult : f.result.Undecided → f'.result.Undecided := by
    intro hu
    cases runFrame_cases h with
    | unbound | unfinished | failed => exact hu
    | ended binds body raises =>
      rw [frameResult_same raises]
      exact ⟨hu.failure, hu.output, hu.marks⟩
  cases o with
  | done v => exact ⟨hresult, trivial⟩
  | failed e => exact ⟨hresult, trivial⟩
  | exhausted => trivial

/-- Whatever a signal asks for, the step is not settled by it. -/
lemma undecided_carryOut (w : Work) : Meets undecided (carryOut run w) := by
  have hlast : Meets undecided bodyOutput := undecided_same fun _ => rfl
  have hpure (v : Value) : Meets undecided (pure v : Frame.Act Value) := undecided_same fun _ => rfl
  cases w with
  | passes starts steps => exact undecided_bind (undecided_runPasses _ _) fun _ => hlast
  | trial steps handler errorBinding =>
    exact undecided_bind (undecided_runTrial _ _ _) fun _ => hlast
  | frame bindings steps expectReturn =>
    exact undecided_bind (undecided_inContext _) fun _ => undecided_runFrame _ _ _
  | leave v =>
    refine .get fun f => ?_
    split
    · exact undecided_bind (undecided_inContext _) fun _ => hpure v
    · refine undecided_bind (undecided_note fun r h => ?_) fun _ => hpure v
      exact ⟨h.failure, nofun, h.marks⟩
  | define name procedure => exact undecided_bind (undecided_inContext _) fun _ => hpure .null

lemma undecided_markSoft (n : Nat) : Meets undecided (markSoft n) := by
  refine .get fun f => ?_
  dsimp only
  split
  · next hn =>
    refine undecided_note fun r h => ⟨h.failure, h.output, .inr ⟨rfl, rfl, ?_⟩⟩
    have hne : f.context.softErrors ≠ [] := List.ne_nil_of_length_pos (Nat.zero_lt_of_lt hn)
    exact ⟨_, by rw [List.getLast?_eq_some_getLast hne]; rfl, rfl⟩
  · exact undecided_same fun _ => rfl

lemma undecided_prepare (ha : run.Yields StepResult.Accounts) (step : Step) :
    Meets undecided (m.prepare run step) := by
  unfold prepare
  cases m.blocks.lookup step.type with
  | none => exact undecided_same fun _ => rfl
  | some block =>
    have hinputs (b : Block) (names : List String) :
        Meets undecided (resolveAll run b step names) := by
      intro f
      rcases h : resolveAll run b step names f with ⟨o, f'⟩
      obtain ⟨inputs, hr⟩ := (resolveAll_resolves ha ha h).record
      have hresult : f.result.Undecided → f'.result.Undecided := by
        rw [hr]
        exact fun hu => ⟨hu.failure, hu.output, hu.marks⟩
      cases o with
      | done v => exact ⟨hresult, trivial⟩
      | failed e => exact ⟨hresult, trivial⟩
      | exhausted => trivial
    exact undecided_bind (hinputs _ _) fun _ =>
      undecided_bind (undecided_inContext _) fun _ => undecided_same fun _ => rfl

/-- **The record of a step is not settled before the step has come to its end.** -/
theorem undecided_evaluate (ha : run.Yields StepResult.Accounts) (nested : Bool) (step : Step) :
    Meets undecided (m.evaluate run nested step) := by
  have hannounce : Meets undecided (m.announce nested step) := by
    refine undecided_bind (undecided_inContext _) fun _ => ?_
    cases nested with
    | true => exact undecided_same fun _ => rfl
    | false => exact undecided_inContext _
  have hinvoke (block : Block) (params : Dict Value) : Meets undecided (invoke block params) :=
    .get fun f => undecided_bind (undecided_inContext _) fun _ =>
      undecided_bind (undecided_markSoft _) fun _ => undecided_same fun _ => rfl
  refine undecided_bind (undecided_bind hannounce fun _ =>
    undecided_bind (undecided_prepare ha step) fun p => hinvoke p.1 p.2) fun answer => ?_
  cases answer with
  | value v => exact undecided_same fun _ => rfl
  | signal s =>
    rw [respond, perform_eq]
    exact undecided_carryOut _

/-! ### Records that are settled -/

lemma failedRecord_wellFormed {e : BlockError} {info : ErrorInfo} {s : String} (hu : r.Undecided)
    (hr : r.returned = false) (he : e.reason.isRuntime = true) (hs : e.message = .text s)
    (hi : (Failure.raised e).info = .ok info) : (failedRecord r e info).WellFormed := by
  rw [Failure.info_text hs] at hi
  cases hi
  exact ⟨nofun, nofun, fun _ => ⟨e, s, rfl, he, hs, rfl, hu.output hr, hr⟩, nofun, nofun⟩

/-- A failure that says a text settles the record of a step that has not left a procedure. -/
lemma Settled.wellFormed (hu : r.Undecided) (hr : r.returned = false) (hf : f.Worded)
    (h : Settled r f r') : r'.WellFormed := by
  cases h with
  | skipped hm =>
    obtain ⟨s, rfl⟩ := hf
    cases hm
    exact ⟨nofun, nofun, nofun, fun _ => ⟨_, rfl, rfl, hu.output hr, hr⟩, nofun⟩
  | raised he hi =>
    obtain ⟨s, hs⟩ := hf
    exact failedRecord_wellFormed hu hr he hs hi
  | wrapped _ he hi =>
    obtain ⟨s, -, h⟩ := except_bind_ok he
    cases h
    exact failedRecord_wellFormed hu hr rfl rfl hi

/-- The contract that allows all states, and the failures that say a text. -/
def wording : Contract Context := ⟨fun _ _ => True, Failure.Worded⟩

lemma wording_harmless : Harmless wording where
  refl _ := trivial
  trans _ _ _ _ _ := trivial
  records _ _ := trivial
  fault _ := trivial
  bindings _ _ := trivial
  currentStep _ _ := trivial
  procedures _ _ := trivial
  frame _ _ _ := trivial
  error _ message _ := ⟨message, rfl⟩

/-- The failure on record in a well-formed result says a text. -/
lemma bears_wording (h : r.WellFormed) : Bears wording r := by
  intro hb f hf
  rcases StepResult.breaks_iff.mp hb with hfatal | hskip
  · obtain ⟨e, s, he, -, hs, -⟩ := h.fatal hfatal
    rw [he] at hf
    cases hf
    exact ⟨s, hs⟩
  · obtain ⟨s, he, -⟩ := h.skipped (by simpa [StepResult.isSkipped] using hskip)
    rw [he] at hf
    cases hf
    exact ⟨s, rfl⟩

/-- Executors and the hooks before steps say what they raise in texts. -/
structure Speaks (m : Machine) : Prop where
  executor : ∀ type block, m.blocks.lookup type = some block →
    ∀ params, Meets wording (block.executor params)
  beforeStep : ∀ h ∈ m.hooks, ∀ f, h.beforeStep = some f → ∀ step, Meets wording (f step)

/-- A step whose inner steps have well-formed results comes to one itself. -/
lemma runLayer_wellFormed (hm : m.Speaks) (ha : run.Yields StepResult.Accounts)
    (hrun : ∀ nested s, Meets wording (run nested s) (Bears wording)) :
    Runner.Yields (m.runLayer run) WellFormed := by
  intro nested step c r c' h
  obtain ⟨r₀, c₁, hconclude, hreport⟩ := Action.bind_done h
  obtain ⟨v, rfl⟩ := report_done hreport
  obtain ⟨o, f, heval, hc, -⟩ := conclude_done hconclude
  refine WellFormed.withArtifact ?_ v
  cases hc with
  | value v =>
    exact (((undecided_evaluate ha nested step).done heval).1 (.blank step)).withOutput v
  | @failure e _ hsettled =>
    have hu := ((undecided_evaluate ha nested step).failed heval).1 (.blank step)
    have hreturned : f.result.returned = false := by
      by_contra hr
      obtain ⟨v, hv⟩ := (evaluate_recorded ha ha heval).returned (by simpa using hr)
      cases hv
    have hworded : e.Worded := (wording_harmless.evaluate_failed hrun heval).elim id
      (·.fails wording_harmless.toJournalFree hm.executor hm.beforeStep)
    exact hsettled.wellFormed hu hreturned hworded

/-- **Every step comes to a well-formed result**, by induction on the layers. -/
theorem runWith_wellFormed (hm : m.Speaks) (n : Nat) : (m.runWith n).Yields WellFormed := by
  induction n with
  | zero =>
    intro nested step c r c' h
    cases (Prod.mk.inj h).1
  | succ n ih =>
    refine runLayer_wellFormed hm (m.runWith_accounts n) fun nested step c => ?_
    rcases h : m.runWith n nested step c with ⟨r | e | _, c'⟩
    · exact ⟨trivial, bears_wording (ih _ _ _ _ _ h)⟩
    · exact ⟨trivial, (runWith_failed h).worded⟩
    · trivial

/-- **All results in the tree of a step are well formed.** For every machine whose executors and
hooks before steps say what they raise in texts, and every step it runs: no result has the status of
an error; one that passes has no error and no failure; one that fails tells what the runtime error
says that it failed with, one that skips the reason, and both have no output and leave no procedure;
and one that has collected assertions has no failure. -/
theorem results_wellFormed (hm : m.Speaks) (layers : Nat) (nested : Bool) (step : Step)
    (c c' : Context) (r : StepResult) (h : m.runWith layers nested step c = (.done r, c')) :
    ∀ x ∈ r.walk, x.WellFormed := by
  intro x hx
  obtain ⟨a, -, -, -, -, rfl⟩ := Activation.of_run h
  obtain ⟨b, -, rfl⟩ := a.exists_within hx
  exact runWith_wellFormed hm _ _ _ _ _ _ b.ran

/-- A machine that groups steps, of which one fails without a word and one skips. -/
def terseExecutors : Dict (Run Answer) :=
  [("group", return .signal (.branch "do")), ("mute", Action.fail (.raised (.leaf ""))),
    ("rest", Action.fail (.skip (.text "later")))]

/-- A hook bars a step. -/
def barring : Hooks :=
  { beforeStep := some fun step =>
      if step.id == "barred" then Action.fail (.raised (.of .block "No entry")) else return () }

def terse : Machine := { ofExecutors terseExecutors with hooks := [barring] }

lemma terse_speaks : terse.Speaks where
  executor type block hb params := by
    obtain ⟨e, he, hexec⟩ := ofExecutors_lookup hb
    rw [hexec]
    simp only [terseExecutors, List.mem_cons, List.not_mem_nil, or_false] at he
    rcases he with rfl | rfl | rfl
    · exact wording_harmless.pure _
    · exact fun _ => ⟨trivial, "", rfl⟩
    · exact fun _ => ⟨trivial, "later", rfl⟩
  beforeStep h hh f hf step := by
    obtain rfl := List.mem_singleton.mp hh
    cases hf
    dsimp only
    split
    · exact fun _ => ⟨trivial, "No entry", rfl⟩
    · exact wording_harmless.pure _

/-- A group with a step. -/
def inGroup (step : Step) : Step := ⟨"all", "group", [], [("do", [step])]⟩

/-- A step ends the group that it is in, and both results are well formed and tell of one error. -/
def EndsGroup (step : Step) (error : ErrorInfo) : Prop :=
  ∃ r c', terse.runWith 2 false (inGroup step) silent = (.done r, c') ∧
    (∀ x ∈ r.walk, x.WellFormed) ∧ r.walk.map (·.error) = [some error, some error]

/-- A failure without a word is told by its name, and one of a hook by what it says. -/
theorem results_wellFormed_terse :
    EndsGroup ⟨"m", "mute", [], []⟩ ⟨"LeafExecutionError", none, some "leaf_error"⟩ ∧
      EndsGroup ⟨"r", "rest", [], []⟩ ⟨"later", none, some "skipped"⟩ ∧
      EndsGroup ⟨"barred", "rest", [], []⟩
        ⟨"No entry", some Failure.traceMark, some "leaf_error"⟩ := by
  have ends (step : Step) {error : ErrorInfo}
      (h : (terse.runWith 2 false (inGroup step) silent).1.ended.toOption.map
        (fun r => r.walk.map (·.error)) = some [some error, some error]) :
      EndsGroup step error := by
    obtain ⟨r, c', hrun, herrors⟩ := Action.exists_done_eq h
    exact ⟨r, c', hrun, results_wellFormed terse_speaks 2 false _ silent c' r hrun, herrors⟩
  exact ⟨ends _ rfl, ends _ rfl, ends _ rfl⟩

end Machine

end BlockSuite
