import BlockSuite.Proofs.Log
import BlockSuite.Proofs.Machine.Capture

/-!
Lists of steps that come to their results. As long as executors and hooks only raise what can be
recorded, a list fails in one way: what a hook makes of the result of a step cannot be written into
the journal, and the result is lost. Where the records of the run can be written, and executors and
hooks leave alone what those are marked with, nothing is lost.
-/

namespace BlockSuite

/-- What a result that fails or skips tells of can be told again. -/
lemma StepResult.Accounts.info {r : StepResult} (h : r.Accounts) (hb : r.breaks = true) :
    ∃ f i, r.failure = some f ∧ f.info = .ok i := by
  rcases StepResult.breaks_iff.mp hb with hfatal | hskip
  · obtain ⟨e, i, he, -, hi, -⟩ := h.fatal hfatal
    exact ⟨_, i, he, hi⟩
  · obtain ⟨reason, message, he, hm, -⟩ := h.skipped hskip
    have htext : ∃ s, (Failure.skip reason).text = .ok s := by
      rw [Failure.recordText_ok] at hm
      cases reason with
      | text s => exact ⟨s, rfl⟩
      | bytes bs => exact ⟨_, rfl⟩
      | _ => cases hm
    obtain ⟨s, hs⟩ := htext
    obtain ⟨i, hi⟩ := Failure.info_of_text (fun e he => by cases he) hs
    exact ⟨_, i, he, hi⟩

namespace Machine

open BlockSuite.Action (Keeps Meets)
open BlockSuite.Context (SameMarks)

variable {m : Machine} {nested : Bool} {step : Step} {steps : List Step} {c c' : Context}
  {r : StepResult} {f : Failure}

/-! ### Marks -/

lemma sameMarks_harmless : Harmless (.keeping SameMarks) where
  refl _ := ⟨rfl, rfl⟩
  trans _ _ _ h h' := ⟨h'.test.trans h.test, h'.row.trans h.row⟩
  records _ _ := ⟨rfl, rfl⟩
  fault _ := trivial
  bindings _ _ := ⟨rfl, rfl⟩
  currentStep _ _ := ⟨rfl, rfl⟩
  procedures _ _ := ⟨rfl, rfl⟩
  frame _ _ h := ⟨h.test, h.row⟩
  error _ _ _ := trivial

/-- What a machine and all that is attached to it keep, every list of steps keeps. -/
lemma runSteps_keeps {R : Context → Context → Prop} (hR : Harmless (.keeping R))
    (hm : m.Respects R) (steps : List Step) : Keeps R (m.runSteps steps) :=
  (hR.chain (fun s => (runWith_keeps hR hm maxDepth false s).meets) steps).keeps

lemma Chain.keeps {R : Context → Context → Prop} (hR : Harmless (.keeping R))
    {run : Step → Run StepResult} (hrun : ∀ s, Keeps R (run s)) {rs : List StepResult}
    (h : Chain run c steps rs c') : R c c' := by
  induction h with
  | nil c => exact hR.refl c
  | cons head _ ih => exact hR.trans _ _ _ (hrun _ _ _ _ head (by simp)) ih

lemma runAll_keeps {R : Context → Context → Prop} (hR : Harmless (.keeping R)) {α : Type}
    {hooks : List Hooks} {event : Hooks → Option α} {call : α → Run Unit}
    (h : ∀ k ∈ hooks, ∀ f, event k = some f → Keeps R (call f)) :
    Keeps R (Hooks.runAll hooks fun k => (event k).map call) :=
  (hR.runAll fun k hk f hf => (h k hk f hf).meets).keeps

/-- Where the records of the run can be written, no result is lost. -/
lemma Unlogged.not_loggable (hm : m.Respects SameMarks) (h : m.Unlogged nested step r c) :
    ¬c.Loggable := by
  intro hc
  cases h with
  | @artifact hook e e' c₁ c₂ asked raised unwritten =>
    have hmarks : SameMarks c c₁ :=
      hm.artifact hook (artifactHookFor_eq asked) step r.failure _ _ _ raised (by simp)
    obtain ⟨c₃, hlog⟩ := (hc.congr hmarks).log_done .error
      "Failed to capture artifact for step %s" [.text step.id] rfl
    rw [hlog] at unwritten
    cases unwritten
  | @observe r' e e' c₁ c₂ c₃ listed shown raised unwritten =>
    have hshown : SameMarks c c₁ :=
      (sameMarks_harmless.attachArtifact hm.artifact step r).keeps _ _ _ shown (by simp)
    have hall : Keeps SameMarks
        (Hooks.runAll m.hooks fun h => h.afterStep.map fun x => x step r') :=
      runAll_keeps sameMarks_harmless fun k hk g hg => hm.afterStep k hk g hg step r'
    have hmarks := sameMarks_harmless.trans _ _ _ hshown (hall _ _ _ raised (by simp))
    obtain ⟨c₄, hlog⟩ := (hc.congr hmarks).log_done .error
      "Hook after_step failed for step %s" [.text step.id] rfl
    rw [hlog] at unwritten
    cases unwritten

/-! ### Lists that fail -/

/-- What a list of steps fails with is a failure of the engine itself. -/
lemma runSteps_failed (h : m.runSteps steps c = (.failed f, c')) :
    f.Internal := by
  rcases runList_cases h with ⟨rs, -, -, hd⟩ | ⟨ran, x, rest, rs, c₁, -, -, -, hx⟩
  · cases hd
  · rcases hx with ⟨r, -, -, hd⟩ | ⟨o, hx, hb⟩
    · cases hd
    · obtain rfl := hb.of_failed
      exact runWith_failed hx

/-- What executors and the hooks before steps raise can be recorded. -/
structure Tells (m : Machine) : Prop where
  executor : ∀ type block, m.blocks.lookup type = some block →
    ∀ params, Meets recording (block.executor params)
  beforeStep : ∀ h ∈ m.hooks, ∀ f, h.beforeStep = some f → ∀ step, Meets recording (f step)

/-- A list of steps comes to a step whose result is lost. -/
def Loses (m : Machine) (steps : List Step) (c : Context) : Prop :=
  ∃ ran step rest rs c₁ r c₂, steps = ran ++ step :: rest ∧ Chain m.runStep c ran rs c₁ ∧ Calm rs ∧
    m.conclude (m.runWith (maxDepth - 1)) false step c₁ = (.done r, c₂) ∧
    m.Unlogged false step r c₂

lemma Raises.recordable {run : Runner} (hm : m.Tells) (h : m.Raises run nested step c f) :
    f.Recordable :=
  h.fails recording_harmless.toJournalFree hm.executor hm.beforeStep

/-- **A list fails exactly where it loses the result of a step**, if only texts are raised. -/
theorem runSteps_failed_iff (hm : m.Tells) :
    (∃ f c', m.runSteps steps c = (.failed f, c')) ↔ m.Loses steps c := by
  have hstep (step : Step) (c : Context) :
      (∃ f c', m.runStep step c = (.failed f, c')) ↔
        m.Escapes (m.runWith (maxDepth - 1)) false step c :=
    runLayer_failed_iff (m.runWith_recordable (maxDepth - 1))
  rw [runSteps, runList_failed_iff]
  simp only [hstep]
  constructor
  · rintro ⟨ran, step, rest, rs, c₁, hsteps, hch, hc, hesc⟩
    cases hesc with
    | unrecorded raised unfit => exact absurd (raised.recordable hm) unfit
    | unlogged concluded lost =>
      exact ⟨ran, step, rest, rs, c₁, _, _, hsteps, hch, hc, concluded, lost⟩
  · rintro ⟨ran, step, rest, rs, c₁, r, c₂, hsteps, hch, hc, concluded, lost⟩
    exact ⟨ran, step, rest, rs, c₁, hsteps, hch, hc, .unlogged concluded lost⟩

lemma Loses.not_loggable (hm : m.Respects SameMarks) (h : m.Loses steps c) : ¬c.Loggable := by
  intro hc
  obtain ⟨ran, step, rest, rs, c₁, r, c₂, -, hch, -, hconclude, hlost⟩ := h
  have hran := hch.keeps sameMarks_harmless fun s =>
    runWith_keeps sameMarks_harmless hm maxDepth false s
  have hstep := (conclude_keeps sameMarks_harmless hm
    (fun _ _ => runWith_keeps sameMarks_harmless hm _ _ _) false step).done hconclude
  exact hlost.not_loggable hm ((hc.congr hran).congr hstep.1)

end Machine

end BlockSuite
