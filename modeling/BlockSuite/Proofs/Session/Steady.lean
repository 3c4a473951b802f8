import BlockSuite.Proofs.Machine.Steady
import BlockSuite.Proofs.Session.Alike
import BlockSuite.Proofs.Session.Whole

/-!
What a case keeps. A relation of contexts that is kept by what a machine writes itself is kept by a
run of a case if it is by the lists of steps that the run comes to.
-/

namespace BlockSuite

open BlockSuite.Action (KeepsAt)

namespace Trial

open BlockSuite.Context (Lenient)

variable {m : Machine} {steps : List Step} {lists : List (List Step)} {suite : Suite} {k : Case}
  {t : Trial} {R : Context → Context → Prop}

/-- The contexts of two trials are related. -/
def Within (R : Context → Context → Prop) (t t' : Trial) : Prop := R t.context t'.context

lemma inContext_keepsAt {α : Type} {x : Run α} (h : KeepsAt R x t.context) :
    KeepsAt (Within R) (inContext x) t :=
  fun o _ hx ho => h o _ (inContext_eq hx).1 ho

/-- A list of a case comes to its results, and gives the first that fails or skips. -/
lemma runPart_eq {first : Option StepResult} {t' : Trial}
    (h : runPart m steps t = (.done first, t')) :
    ∃ rs, m.runSteps steps t.context = (.done rs, t'.context) ∧ first = firstFailure rs := by
  obtain ⟨rs, t₁, hran, h⟩ := Action.bind_done h
  cases h
  exact ⟨rs, (inContext_eq hran).1, rfl⟩

section Lenient

variable (hR : Lenient R)
include hR

lemma within_trans (t t' t'' : Trial) (h : Within R t t') (h' : Within R t' t'') :
    Within R t t'' :=
  hR.trans _ _ _ h h'

lemma trial_same {α : Type} {x : Act α} (h : ∀ o t', x t = (o, t') → t'.context = t.context) :
    KeepsAt (Within R) x t := by
  intro o t' hx _
  rw [Within, h o t' hx]
  exact hR.refl _

lemma note_keepsAt (change : TestResult → TestResult) : KeepsAt (Within R) (note change) t :=
  trial_same hR fun _ _ h => by cases h; rfl

lemma close_keepsAt (status : Status) (f : Option Failure) :
    KeepsAt (Within R) (close status f) t := by
  refine .get (.bind (within_trans hR) (trial_same hR fun o t' h => ?_) fun _ _ _ =>
    note_keepsAt hR _)
  rw [Action.lift_run] at h
  split at h <;> cases h <;> rfl

lemma log_keepsAt (level : Level) (template : String) (arguments : List Value) :
    KeepsAt (Within R) (inContext (Context.log level template arguments)) t :=
  inContext_keepsAt ((Elementary.log _ _ _ _).keepsAt hR _)

lemma runPart_keepsAt (h : KeepsAt R (m.runSteps steps) t.context) :
    KeepsAt (Within R) (runPart m steps) t := by
  refine .bind (within_trans hR) (inContext_keepsAt h) fun rs t₁ _ => ?_
  exact .bind (within_trans hR) (note_keepsAt hR _) fun _ _ _ => trial_same hR fun _ _ h => by
    cases h; rfl

/-- Lists that are run up to the first failure keep a relation if those do that are come to. -/
lemma runUntilFailure_keepsAt
    (h : ∀ steps c, Comes m lists t.context steps c → KeepsAt R (m.runSteps steps) c) :
    KeepsAt (Within R) (runUntilFailure m lists) t := by
  induction lists generalizing t with
  | nil => exact trial_same hR fun _ _ h => by cases h; rfl
  | cons steps rest ih =>
    rw [runUntilFailure_cons]
    have hfirst := runPart_keepsAt hR (h _ _ (.here _ _ _))
    refine .bind (within_trans hR) hfirst fun first t₁ hpart => ?_
    obtain ⟨rs, hran, rfl⟩ := runPart_eq hpart
    cases hfirst : firstFailure rs with
    | some r => exact trial_same hR fun _ _ h => by cases h; rfl
    | none =>
      exact ih fun steps c hcomes => h steps c (.later hran (firstFailure_none.mp hfirst) hcomes)

variable (hsoft : ∀ c, R c { c with softErrors := [] })
include hsoft

lemma settle_keepsAt (failure : Option StepResult) : KeepsAt (Within R) (settle failure) t := by
  have htake : KeepsAt R Context.takeSoftErrors t.context := by
    intro o c h _
    cases h
    exact hsoft _
  have hjudge (errors : List SoftError) {t : Trial} :
      KeepsAt (Within R) (judge failure errors) t := by
    unfold judge
    cases failure with
    | none =>
      dsimp only
      split <;> exact close_keepsAt hR _ _
    | some step =>
      dsimp only
      split <;> exact .bind (within_trans hR) (close_keepsAt hR _ _) fun _ _ _ => note_keepsAt hR _
  rw [settle_eq]
  refine .bind (within_trans hR) (inContext_keepsAt htake) fun errors t₁ _ => ?_
  split
  · exact .bind (within_trans hR) (note_keepsAt hR _) fun _ _ _ => hjudge errors
  · exact hjudge errors

/-- A run of a case keeps a relation if the lists do that it comes to. -/
lemma run_keepsAt
    (h : ∀ steps c, Lists m suite k t.context steps c → KeepsAt R (m.runSteps steps) c) :
    KeepsAt (Within R) (run m suite k) t := by
  refine .bind (within_trans hR) (runUntilFailure_keepsAt hR fun steps c hcomes =>
    h steps c (.main hcomes)) fun first t₁ hmain => ?_
  obtain ⟨rs, huntil⟩ : ∃ rs, Until m (body suite k) t.context rs t₁.context := by
    have hpure : (runUntilFailure m (body suite k) >>= pure) t = (.done first, t₁) :=
      (Action.bind_of_done hmain pure).trans rfl
    rcases runUntilFailure_bind hpure with
      ⟨rs, c, huntil, hend⟩ | ⟨f, rs, c, -, ho, -⟩ | ho
    · cases hend
      exact ⟨rs, huntil⟩
    · cases ho
    · cases ho
  refine .bind (within_trans hR) ?_ fun failure t₂ _ => settle_keepsAt hR hsoft failure
  refine .bind (within_trans hR) (runPart_keepsAt hR (h _ _ (.caseEnd huntil)))
    fun first' t₂ hcase => ?_
  obtain ⟨rs', hcase, -⟩ := runPart_eq hcase
  refine .bind (within_trans hR) (runPart_keepsAt hR (h _ _ (.suiteEnd huntil hcase)))
    fun first'' t₃ _ => ?_
  exact trial_same hR fun _ _ h => by cases h; rfl

end Lenient

end Trial

end BlockSuite
