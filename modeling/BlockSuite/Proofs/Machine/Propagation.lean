import BlockSuite.Proofs.Machine.Activation
import BlockSuite.Proofs.Machine.Keeps
import BlockSuite.Proofs.Machine.Walk

/-!
How failures and skips travel. What fails or skips inside a step ends the step in the same way, with
the same error or the same reason, wherever it stands among the inputs and the children of the
result. Only the try slot of a step keeps failures back, and nothing keeps a skip back. A list of
steps ends with the first result that fails, skips or leaves a procedure.
-/

namespace BlockSuite

namespace StepResult

/-- How a failure or skip goes on from a result to that of the step around it: an error stays the
same but for its place, of which more becomes known, and a skip stays the same altogether. -/
structure PassesTo (x r : StepResult) : Prop where
  fatal : x.isFatal = true → r.isFatal = true ∧ r.error = x.error ∧
    ∃ e p, x.failure = some (.raised e) ∧ r.failure = some (.raised (e.at_ p))
  skipped : x.isSkipped = true → r.isSkipped = true ∧ r.error = x.error ∧
    ∃ reason, x.failure = some (.skip reason) ∧ r.failure = some (.skip reason)

end StepResult

namespace Machine

variable {m : Machine} {r x : StepResult}

lemma Concluded.passes {o : Outcome Value} {r' : StepResult} (h : Concluded r o r')
    (hx : x.Accounts) (ht : Told o [x]) : x.PassesTo r' := by
  have hbr (hb : x.breaks = true) : ∃ f, x.failure = some f ∧ Settled r f r' := by
    obtain ⟨f, hf, rfl⟩ := ht x List.mem_cons_self hb
    cases h with
    | failure hs => exact ⟨f, hf, hs⟩
  constructor
  · intro hf
    obtain ⟨f, hxf, hs⟩ := hbr (StepResult.breaks_iff.mpr (.inl hf))
    obtain ⟨e, info, he, hrt, hi, hxe⟩ := hx.fatal hf
    rw [he] at hxf
    cases hxf
    cases hs with
    | raised _ hi' =>
      rw [info_at, hi] at hi'
      cases hi'
      exact ⟨rfl, hxe.symm, e, _, he, rfl⟩
    | wrapped hn =>
      change e.reason.isRuntime = false at hn
      rw [hrt] at hn
      cases hn
  · intro hsk
    obtain ⟨f, hxf, hs⟩ := hbr (StepResult.breaks_iff.mpr (.inr hsk))
    obtain ⟨reason, message, he, hm, hxe⟩ := hx.skipped hsk
    rw [he] at hxf
    cases hxf
    cases hs with
    | skipped hm' =>
      rw [hm] at hm'
      cases hm'
      exact ⟨rfl, hxe.symm, reason, he, rfl⟩
    | wrapped hn => cases hn

namespace Activation

/-- Nothing that fails or skips inside a step is lost: it ends the step, unless it has failed in
the try slot of the step. -/
structure Propagates (a : m.Activation) : Prop where
  inputs : ∀ x ∈ a.result.given, x.PassesTo a.result
  children : ∃ rest, a.result.children = a.tried ++ rest ∧ ∀ x ∈ rest, x.PassesTo a.result
  tried : ∀ x ∈ a.tried, x.isSkipped = true → x.PassesTo a.result

/-- The step lemma: one step hands on what fails or skips inside it. -/
lemma propagates (a : m.Activation) : a.Propagates := by
  obtain ⟨o, r, r', v, hrec, hc, hr⟩ := a.recorded a.inner_accounts
  have hpass (x : StepResult) (hx : x.Accounts) (ht : Told o [x]) : x.PassesTo a.result := by
    obtain ⟨hf, hs⟩ := hc.passes hx ht
    rw [hr]
    exact ⟨hf, hs⟩
  have hgiven : a.result.given = r.given := by
    rw [← hc.given, hr]
    rfl
  have hchildren : a.result.children = r.children := by rw [← hc.children, hr]
  refine ⟨fun x hx => ?_, ?_, fun x hx hs => ?_⟩
  · rw [hgiven] at hx
    obtain ⟨hacc, ht⟩ := hrec.given x hx
    exact hpass x hacc ht
  · obtain ⟨more, hm, hmore⟩ := hrec.children
    refine ⟨more, by rw [hchildren, hm], fun x hx => ?_⟩
    obtain ⟨hacc, ht⟩ := hmore x hx
    exact hpass x hacc ht
  · obtain ⟨hacc, ht⟩ := hrec.tried x hx
    exact hpass x hacc (ht hs)

/-- What holds of all results of inner steps holds of the inputs and the children of a result. -/
lemma forall_inside {a : m.Activation} {P : StepResult → Prop} (hP : a.inner.Yields P) :
    (∀ x ∈ a.result.given, P x) ∧ ∀ x ∈ a.result.children, P x := by
  obtain ⟨o, r, r', v, hrec, hc, hr⟩ := a.recorded hP
  rw [hr]
  constructor
  · intro x hx
    have hx' : x ∈ r.given := hc.given ▸ hx
    exact (hrec.given x hx').1
  · intro x hx
    obtain ⟨more, hm, hmore⟩ := hrec.children
    have hx' : x ∈ r.children := hc.children ▸ hx
    rw [hm] at hx'
    rcases List.mem_append.mp hx' with hx' | hx'
    · exact (hrec.tried x hx').1
    · exact (hmore x hx').1

end Activation

/-- All results in a tree are results of steps that the machine has run. -/
lemma runWith_walk (m : Machine) (n : Nat) :
    (m.runWith n).Yields fun r => ∀ x ∈ r.walk, ∃ a : m.Activation, a.result = x := by
  induction n with
  | zero =>
    intro nested step c r c' h
    cases (Prod.mk.inj h).1
  | succ n ih =>
    intro nested step c r c' h x hx
    let a : m.Activation := ⟨n, nested, step, c, r, c', h⟩
    obtain ⟨hgiven, hchildren⟩ := Activation.forall_inside (a := a) ih
    rcases StepResult.mem_walk.mp hx with rfl | ⟨y, hy, hx⟩ | ⟨y, hy, hx⟩
    · exact ⟨a, rfl⟩
    · exact hgiven y hy x hx
    · exact hchildren y hy x hx

/-- **Failures and skips are never lost.** The results of a list are those of its first steps, in
order, up to the first one that fails, skips or leaves a procedure. Every result in their trees is
that of a step which hands on what fails or skips inside it. -/
theorem runList_propagates (m : Machine) (layers : Nat) (steps : List Step) (c c' : Context)
    (rs : List StepResult) (h : runList (m.runWith layers false) steps c = (.done rs, c')) :
    (∃ ran rest, steps = ran ++ rest ∧ Chain (m.runWith layers false) c ran rs c' ∧
      (∀ r ∈ rs.dropLast, r.isFatal = false ∧ r.isSkipped = false ∧ r.returned = false) ∧
      (rest ≠ [] → ∃ r, rs.getLast? = some r ∧
        (r.isFatal = true ∨ r.isSkipped = true ∨ r.returned = true))) ∧
    ∀ r ∈ StepResult.walkAll rs, (∃ a : m.Activation, a.result = r) ∧
      ∀ a : m.Activation, a.result = r → a.Propagates := by
  constructor
  · obtain ⟨ran, rest, hsteps, hch, hcalm, hlast⟩ := runList_done h
    refine ⟨ran, rest, hsteps, hch, fun r hr => ?_, fun hrest => ?_⟩
    · have hb := StepResult.breaks_of_stops (hcalm r hr)
      rw [StepResult.breaks, Bool.or_eq_false_iff] at hb
      exact ⟨hb.1, hb.2, StepResult.returned_of_stops (hcalm r hr)⟩
    · obtain ⟨r, hr, hs⟩ := hlast hrest
      rw [StepResult.stops_eq, Bool.or_eq_true, StepResult.breaks_iff, or_assoc] at hs
      exact ⟨r, hr, hs⟩
  · intro r hr
    obtain ⟨y, hy, hr⟩ := StepResult.mem_walkAll.mp hr
    exact ⟨forall_runList (m.runWith_walk layers) h y hy r hr, fun a _ => a.propagates⟩

/-- A machine with a block that tries to run steps, one that fails and one that skips. -/
def trying : Machine :=
  ofExecutors
    [("try", return .signal (.tryCatch "TRY" "CATCH" none)),
      ("fail", Action.fail (.raised (.leaf "broken"))),
      ("skip", Action.fail (.skip (.text "not today")))]

/-- A step that catches a failure and skips on account of it. -/
def catching : Step :=
  ⟨"outer", "try", [],
    [("TRY", [⟨"tried", "fail", [], []⟩]), ("CATCH", [⟨"handler", "skip", [], []⟩])]⟩

theorem runList_propagates_catching :
    ∃ rs c, runList (trying.runWith 2 false) [catching] silent = (.done rs, c) ∧
      ∀ r ∈ StepResult.walkAll rs, ∀ a : trying.Activation, a.result = r → a.Propagates := by
  obtain ⟨rs, c, h⟩ := Action.exists_done (x := runList (trying.runWith 2 false) [catching])
    (s := silent) (by decide +kernel)
  exact ⟨rs, c, h, fun r hr => ((runList_propagates trying 2 [catching] silent c rs h).2 r hr).2⟩

end Machine

end BlockSuite
