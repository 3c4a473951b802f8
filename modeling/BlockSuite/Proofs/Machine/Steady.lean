import BlockSuite.Proofs.Elementary
import BlockSuite.Proofs.Machine.Contained

/-!
What one run keeps. A relation of contexts need not be kept by everything that is attached to a
machine for a run to keep it: it is enough if it is kept where it comes to that, by the blocks that
are asked in the run and by what watches its steps. So a list of steps keeps a relation if every
step does that is run for it, whatever becomes of the lists that are never come to.
-/

namespace BlockSuite

namespace Action

variable {σ α β : Type} {R : σ → σ → Prop} {x : Action σ α} {f : α → Action σ β} {s : σ}

/-- In some state, an action keeps a relation: where it ends, the state it leaves is related to that
one. -/
def KeepsAt (R : σ → σ → Prop) (x : Action σ α) (s : σ) : Prop :=
  ∀ o t, x s = (o, t) → o ≠ .exhausted → R s t

namespace KeepsAt

lemma of_same (hr : ∀ s, R s s) (h : ∀ o t, x s = (o, t) → t = s) : KeepsAt R x s := by
  intro o t hx _
  rw [h o t hx]
  exact hr s

lemma modify {g : σ → σ} (h : R s (g s)) : KeepsAt R (Action.modify g) s := by
  intro o t hx _
  cases hx
  exact h

lemma bind (ht : ∀ s t u, R s t → R t u → R s u) (hx : KeepsAt R x s)
    (hf : ∀ a t, x s = (.done a, t) → KeepsAt R (f a) t) : KeepsAt R (x >>= f) s := by
  intro o u h ho
  rcases bind_cases h with ⟨a, t, hxs, h⟩ | ⟨o', hxs, hb⟩
  · exact ht _ _ _ (hx _ _ hxs (by simp)) (hf a t hxs _ _ h ho)
  · exact hx _ _ hxs (hb.ne_exhausted ho)

lemma get {g : σ → Action σ α} (h : KeepsAt R (g s) s) : KeepsAt R (Action.get >>= g) s := h

lemma attempt (hx : KeepsAt R x s) : KeepsAt R (Action.attempt x) s := by
  intro o t h ho
  rcases hxs : x s with ⟨a | e | _, u⟩
  · rw [attempt_of_done hxs] at h
    cases h
    exact hx _ _ hxs (by simp)
  · rw [attempt_of_failed hxs] at h
    cases h
    exact hx _ _ hxs (by simp)
  · rw [attempt_of_exhausted hxs] at h
    cases h
    exact absurd rfl ho

end KeepsAt

end Action

open BlockSuite.Action (KeepsAt)

/-- A relation of contexts that is kept by what a machine writes itself, the definitions of
procedures aside: records, variables and the current step; and by frames that are closed. -/
structure Context.Lenient (R : Context → Context → Prop) : Prop where
  refl : ∀ c, R c c
  trans : ∀ c c' c'', R c c' → R c' c'' → R c c''
  records : ∀ c records, R c (c.withRecords records)
  bindings : ∀ c b, R c { c with bindings := b }
  currentStep : ∀ c step, R c { c with currentStep := step }
  frame : ∀ c c', R (Machine.openFrame c) c' → R c { c' with callDepth := c'.callDepth - 1 }

/-- The contexts of two frames are related. -/
def Frame.Within (R : Context → Context → Prop) (f f' : Frame) : Prop := R f.context f'.context

namespace Elementary

/-- Elementary actions keep such a relation. -/
lemma keepsAt {α : Type} {x : Run α} {R : Context → Context → Prop} (hR : Context.Lenient R)
    (hx : Elementary x) (c : Context) : KeepsAt R x c := by
  induction hx generalizing c with
  | pure a => exact .of_same hR.refl fun o t h => by cases h; rfl
  | fail e => exact .of_same hR.refl fun o t h => by cases h; rfl
  | exhaust => exact .of_same hR.refl fun o t h => by cases h; rfl
  | bind _ _ hx hf => exact .bind hR.trans (hx c) fun a t _ => hf a t
  | look _ _ hf => exact .get (hf c c)
  | readPath v => exact .get (.of_same hR.refl fun o t h => Action.compute_same h)
  | setVariable name v =>
    intro o c' h _
    obtain ⟨records, rfl⟩ := Context.setVariable_leaves h
    exact hR.trans _ _ _ (hR.bindings c _) (hR.records _ records)
  | log level template arguments data =>
    intro o c' h _
    obtain ⟨records, rfl⟩ := Context.log_leaves h
    exact hR.records c records

lemma bindEach (bindings : Dict Value) : Elementary (Machine.bindEach bindings) := by
  induction bindings with
  | nil => exact pure _
  | cons e rest ih => exact (setVariable e.1 e.2).bind fun _ => ih

lemma bindItem (binding : String) (indexBinding : Option String) (index : Nat) (v : Value) :
    Elementary (Machine.bindItem binding indexBinding index v) := by
  refine (setVariable _ _).bind fun _ => ?_
  split
  · exact setVariable _ _
  · exact pure _

lemma bindCaught (errorBinding : Option String) (r : StepResult) :
    Elementary (Machine.bindCaught errorBinding r) := by
  refine (log _ _ _ _).bind fun _ => ?_
  split
  · exact setVariable _ _
  · exact pure _

/-- What a pass begins with is elementary. -/
lemma work_starts {step : Step} {s : Signal} {starts : List (Run Unit)} {steps : List Step}
    (h : s.work step = .passes starts steps) : ∀ x ∈ starts, Elementary x := by
  intro x hx
  obtain rfl | ⟨_, _, _, _, rfl⟩ | ⟨_, rfl⟩ := Signal.mem_starts h hx
  · exact pure ()
  · exact bindItem _ _ _ _
  · exact bindEach _

end Elementary

namespace Machine

open BlockSuite.Frame (inContext note Within)
open BlockSuite.Context (Lenient)

variable {m : Machine} {run : Runner} {step : Step} {steps : List Step} {f : Frame} {c : Context}
  {R : Context → Context → Prop}

lemma inContext_keepsAt {α : Type} {x : Run α} (h : KeepsAt R x f.context) :
    KeepsAt (Within R) (inContext x) f :=
  fun o _ hx ho => h o _ (Frame.inContext_eq hx).1 ho

section Lenient

variable (hR : Lenient R)
include hR

/-! ### The parts of a step -/

lemma within_trans (f f' f'' : Frame) (h : Within R f f') (h' : Within R f' f'') :
    Within R f f'' :=
  hR.trans _ _ _ h h'

lemma fill_keepsAt (v : Value) (c : Context) : KeepsAt R (Context.fill v) c :=
  .get (.of_same hR.refl fun _ _ h => Action.compute_same h)

lemma fillArguments_keepsAt (args : Dict Value) (c : Context) :
    KeepsAt R (fillArguments args) c := by
  induction args generalizing c with
  | nil => exact (Elementary.pure _).keepsAt hR c
  | cons e rest ih =>
    refine .bind hR.trans (fill_keepsAt hR _ c) fun v c₁ _ => ?_
    exact .bind hR.trans (ih c₁) fun _ c₂ _ => (Elementary.pure _).keepsAt hR c₂

/-- The arguments of a frame are only looked up. -/
lemma work_args_keepsAt {s : Signal} {args : Run (Dict Value)} {body : List Step}
    {expectReturn : Bool} (h : s.work step = .frame args body expectReturn) (c : Context) :
    KeepsAt R args c := by
  obtain ⟨bindings, rfl⟩ | ⟨name, given, rfl⟩ := Signal.work_args h
  · exact (Elementary.pure _).keepsAt hR c
  · refine .bind hR.trans (fillArguments_keepsAt hR given c) fun _ c₁ _ => ?_
    exact ((Elementary.log _ _ _ _).bind fun _ => .pure _).keepsAt hR c₁

lemma frame_same {α : Type} {x : Frame.Act α} (h : ∀ o f', x f = (o, f') → f'.context = f.context) :
    KeepsAt (Within R) x f := by
  intro o f' hx _
  rw [Within, h o f' hx]
  exact hR.refl _

lemma note_keepsAt (change : StepResult → StepResult) : KeepsAt (Within R) (note change) f :=
  frame_same hR fun o f' h => by cases h; rfl

lemma adopt_keepsAt (rs : List StepResult) : KeepsAt (Within R) (Frame.adopt rs) f := by
  refine .bind (within_trans hR) (note_keepsAt hR _) fun _ f₁ _ => ?_
  refine .bind (within_trans hR) (frame_same hR fun o f₂ h => ?_) fun _ _ _ => note_keepsAt hR _
  have hsame : (Frame.raiseFor rs f₁).2 = f₁ := raiseFor_same rs f₁
  rw [h] at hsame
  exact congrArg Frame.context hsame

lemma markSoft_keepsAt (n : Nat) : KeepsAt (Within R) (markSoft n) f := by
  obtain ⟨r, hmark⟩ := markSoft_run n f
  refine frame_same hR fun o f' h => ?_
  rw [hmark] at h
  cases h
  rfl

/-- A list keeps a relation if the steps do that it starts. -/
lemma runList_keepsAt {run : Step → Run StepResult}
    (h : ∀ i x cx, StartsAt run steps c i x cx → KeepsAt R (run x) cx) :
    KeepsAt R (runList run steps) c := by
  induction steps generalizing c with
  | nil => exact (Elementary.pure _).keepsAt hR c
  | cons s rest ih =>
    rw [runList_cons]
    refine .bind hR.trans (h 0 s c (.here s rest c)) fun r c₁ head => ?_
    split
    · exact (Elementary.pure _).keepsAt hR c₁
    · next hr =>
      refine .bind hR.trans (ih fun i x cx hx => h (i + 1) x cx ?_) fun _ c₂ _ =>
        (Elementary.pure _).keepsAt hR c₂
      exact .later head (by simpa using hr) hx

lemma runBody_keepsAt (h : KeepsAt R (runList (run false) steps) f.context) :
    KeepsAt (Within R) (runBody run steps) f :=
  .bind (within_trans hR) (inContext_keepsAt h) fun rs _ _ => adopt_keepsAt hR rs

lemma resolveInput_keepsAt {b : Block} {name : String}
    (h : ∀ x, Dict.get? step.params name = some (.nested x) → KeepsAt R (run true x) f.context) :
    KeepsAt (Within R) (resolveInput run b step name) f := by
  unfold resolveInput
  split
  · next inner bound =>
    refine .bind (within_trans hR) (inContext_keepsAt (h inner bound)) fun r f₁ _ => ?_
    refine .bind (within_trans hR) (note_keepsAt hR _) fun _ f₂ _ => frame_same hR fun o f₃ h => ?_
    split at h <;> cases h <;> rfl
  · exact inContext_keepsAt (fill_keepsAt hR _ _)
  · split
    · exact frame_same hR fun o f' h => by cases h; rfl
    · split
      · exact frame_same hR fun o f' h => by cases h; rfl
      · exact inContext_keepsAt (fill_keepsAt hR _ _)

lemma resolveAll_keepsAt {b : Block} {names : List String}
    (h : ∀ x cx, Asks run b step names f x cx → KeepsAt R (run true x) cx) :
    KeepsAt (Within R) (resolveAll run b step names) f := by
  induction names generalizing f with
  | nil => exact frame_same hR fun o f' h => by cases h; rfl
  | cons name rest ih =>
    refine .bind (within_trans hR) (resolveInput_keepsAt hR fun x bound => h x _ (.here bound))
      fun v f₁ given => ?_
    refine .bind (within_trans hR) (ih fun x cx asks => h x cx (.later given asks)) fun _ f₂ _ => ?_
    exact frame_same hR fun o f' h => by cases h; rfl

lemma prepare_keepsAt
    (h : ∀ block, m.blocks.lookup step.type = some block → ∀ x cx,
      Asks run block step (inputNames block step) f x cx → KeepsAt R (run true x) cx) :
    KeepsAt (Within R) (m.prepare run step) f := by
  unfold prepare
  split
  · exact frame_same hR fun o f' h => by cases h; rfl
  · next block known =>
    refine .bind (within_trans hR) (resolveAll_keepsAt hR (h block known)) fun _ f₁ _ => ?_
    intro o f₂ h₂ _
    cases h₂
    exact hR.currentStep f₁.context (some step)

lemma invoke_keepsAt {block : Block} {params : Dict Value}
    (h : KeepsAt R (block.executor params) f.context) :
    KeepsAt (Within R) (invoke block params) f := by
  refine .get (.bind (within_trans hR) (inContext_keepsAt h) fun answer f₁ _ => ?_)
  refine .bind (within_trans hR) (markSoft_keepsAt hR _) fun _ f₂ _ => ?_
  exact frame_same hR fun o f' h => by cases h; rfl

/-! ### Work -/

lemma runPasses_keepsAt {starts : List (Run Unit)} (hs : ∀ x ∈ starts, Elementary x)
    (h : ∀ k c, Pass run steps starts f k c → KeepsAt R (runList (run false) steps) c) :
    KeepsAt (Within R) (runPasses (runBody run steps) starts) f := by
  induction starts generalizing f with
  | nil => exact frame_same hR fun o f' h => by cases h; rfl
  | cons start rest ih =>
    have hstart := (hs start List.mem_cons_self).keepsAt hR f.context
    refine .bind (within_trans hR) (inContext_keepsAt hstart) fun _ f₁ begins => ?_
    refine .bind (within_trans hR) (runBody_keepsAt hR (h 0 _ (.here begins))) fun _ f₂ body => ?_
    intro o f₃ hrest ho
    rw [Action.bind_of_done (hasReturned_run f₂)] at hrest
    cases stays : f₂.result.returned with
    | true =>
      rw [stays] at hrest
      cases hrest
      exact hR.refl _
    | false =>
      rw [stays] at hrest
      refine ih (fun x hx => hs x (List.mem_cons_of_mem _ hx)) (fun k c hp => ?_) _ _ hrest ho
      exact h (k + 1) c (.later begins body stays hp)

lemma runTrial_keepsAt {handler : List Step} {errorBinding : Option String}
    (h : ∀ k l c, Opens run f (.trial steps handler errorBinding) k l c →
      KeepsAt R (runList (run false) l) c) :
    KeepsAt (Within R) (runTrial run steps handler errorBinding) f := by
  refine .bind (within_trans hR) (inContext_keepsAt (h 0 _ _ (.attempt ..))) fun rs f₁ h₁ => ?_
  cases fails : rs.find? (·.isFatal) with
  | none => exact adopt_keepsAt hR rs
  | some r =>
    refine .bind (within_trans hR) (note_keepsAt hR _) fun _ f₂ h₂ => ?_
    have hcaught := (Elementary.bindCaught errorBinding r).keepsAt hR f₂.context
    refine .bind (within_trans hR) (inContext_keepsAt hcaught) fun _ f₃ h₃ => ?_
    cases h₂
    exact runBody_keepsAt hR
      (h 1 _ _ (.handler (Frame.inContext_eq h₁).1 fails (Frame.inContext_eq h₃).1))

lemma runFrame_keepsAt {expectReturn : Bool} {bindings : Dict Value}
    (h : ∀ c, bindEach bindings f.context = (.done (), c) →
      KeepsAt R (runList (run false) steps) (openFrame c)) :
    KeepsAt (Within R) (runFrame run steps expectReturn bindings) f := by
  intro o f' hrun ho
  have hbind := (Elementary.bindEach bindings).keepsAt hR f.context
  have hclosed {c c' : Context} (binds : bindEach bindings f.context = (.done (), c))
      (hc : R (openFrame c) c') : R f.context (closeFrame f.context.bindings bindings.keys c') :=
    hR.trans _ _ _ (hbind _ _ binds (by simp))
      (hR.trans _ _ _ (hR.frame c c' hc) (hR.bindings _ _))
  cases runFrame_cases hrun with
  | unbound binds hb => exact hbind _ _ binds (hb.ne_exhausted ho)
  | unfinished binds body => exact absurd rfl ho
  | failed binds body => exact hclosed binds (h _ binds _ _ body (by simp))
  | ended binds body raises =>
    cases frameResult_same raises
    exact hclosed binds (h _ binds _ _ body (by simp))

/-- Work keeps a relation if the lists do that it opens, and the definition of a procedure if it is
one. -/
lemma carryOut_keepsAt {s : Signal}
    (h : ∀ k l c, Opens run f (s.work step) k l c → KeepsAt R (runList (run false) l) c)
    (hdefine : ∀ name p, s.work step = .define name p → KeepsAt R (defineLogged name p) f.context) :
    KeepsAt (Within R) (carryOut run (s.work step)) f := by
  have houtput {f₁ : Frame} : KeepsAt (Within R) bodyOutput f₁ :=
    frame_same hR fun o f' h => by cases h; rfl
  generalize hw : s.work step = w at h hdefine
  cases w with
  | passes starts steps =>
    have hpasses := runPasses_keepsAt hR (Elementary.work_starts hw) fun k c hp =>
      h k _ c (.pass hp)
    exact .bind (within_trans hR) hpasses fun _ _ _ => houtput
  | trial steps handler errorBinding =>
    exact .bind (within_trans hR) (runTrial_keepsAt hR h) fun _ _ _ => houtput
  | frame args steps expectReturn =>
    refine .bind (within_trans hR) (inContext_keepsAt (work_args_keepsAt hR hw _))
      fun bindings f₁ h₁ => runFrame_keepsAt hR fun c hc => ?_
    exact h 0 _ _ (.frame (bindArguments_done (Frame.inContext_eq h₁).1 hc))
  | leave v =>
    refine .get ?_
    split
    · refine .bind (within_trans hR) (inContext_keepsAt ?_) fun _ _ _ =>
        frame_same hR fun o f' h => by cases h; rfl
      exact (Elementary.log _ _ _ _).keepsAt hR _
    · exact .bind (within_trans hR) (note_keepsAt hR _) fun _ _ _ =>
        frame_same hR fun o f' h => by cases h; rfl
  | define name procedure =>
    exact .bind (within_trans hR) (inContext_keepsAt (hdefine name procedure rfl)) fun _ _ _ =>
      frame_same hR fun o f' h => by cases h; rfl

end Lenient

/-! ### Steps inside steps -/

/-- A step keeps a relation but for the steps inside it: so does what watches it, its block where
that is asked, and the definition of a procedure if it comes to one. -/
structure Start.Steady (m : Machine) (R : Context → Context → Prop) (a : Start) : Prop where
  announce : KeepsAt (Within R) (m.announce a.nested a.step) a.fresh
  executor : ∀ f block params f', m.announce a.nested a.step a.fresh = (.done (), f) →
    m.prepare (a.inner m) a.step f = (.done (block, params), f') →
      KeepsAt R (block.executor params) f'.context
  define : ∀ s f name p, m.consult (a.inner m) a.nested a.step a.fresh = (.done (.signal s), f) →
    s.work a.step = .define name p → KeepsAt R (defineLogged name p) f.context
  report : ∀ r c, m.conclude (a.inner m) a.nested a.step a.before = (.done r, c) →
    KeepsAt R (m.report a.nested a.step r) c

variable (hR : Lenient R)
include hR

/-- A steady step keeps a relation if the steps right inside it do. -/
lemma Start.Steady.keepsAt {a : Start} (ha : a.Steady m R)
    (h : ∀ b, m.Contains a b → KeepsAt R (a.inner m b.nested b.step) b.before) :
    KeepsAt R (m.runWith (a.layers + 1) a.nested a.step) a.before := by
  let P (n : Nat) (nested : Bool) (x : Step) (c : Context) : Prop :=
    KeepsAt R (m.runWith n nested x) c
  have hbottom (nested : Bool) (x : Step) (c : Context) : P 0 nested x c :=
    Elementary.exhaust.keepsAt hR c
  have hconsult : KeepsAt (Within R) (m.consult (a.inner m) a.nested a.step) a.fresh := by
    refine .bind (within_trans hR) ha.announce fun _ f announced => ?_
    refine .bind (within_trans hR) (prepare_keepsAt hR fun block known x cx asks => ?_)
      fun p f' prepared => invoke_keepsAt hR (ha.executor f p.1 p.2 f' announced prepared)
    exact asks.of_contains (P := P) hbottom h announced known
  have hevaluate : KeepsAt (Within R) (m.evaluate (a.inner m) a.nested a.step) a.fresh := by
    refine .bind (within_trans hR) hconsult fun answer f answered => ?_
    cases answer with
    | value v => exact frame_same hR fun o f' h => by cases h; rfl
    | signal s =>
      rw [respond, perform_eq]
      refine carryOut_keepsAt hR (fun k l c opened => runList_keepsAt hR fun i x cx started => ?_)
        fun name p hwork => ha.define s f name p answered hwork
      exact started.of_contains (P := P) hbottom h answered opened
  refine .bind hR.trans (fun o c hc ho => ?_) fun r c hc => ha.report r c hc
  cases conclude_cases hc with
  | value ran => exact hR.trans _ _ _ (hevaluate _ _ ran (by simp)) (hR.currentStep _ _)
  | settled ran record => exact hR.trans _ _ _ (hevaluate _ _ ran (by simp)) (hR.currentStep _ _)
  | unsettled ran record => exact hR.trans _ _ _ (hevaluate _ _ ran (by simp)) (hR.currentStep _ _)
  | unfinished ran => exact absurd rfl ho

/-- **A list keeps a relation if every step does that is run for it**, the steps inside it aside:
those of the list and those inside them, at any depth. -/
theorem runWith_steady {layers : Nat} (h : ∀ a, m.RunsFor layers steps c a → a.Steady m R) :
    KeepsAt R (runList (m.runWith layers false) steps) c :=
  runList_keepsAt hR fun _ _ _ started =>
    started.of_inside (P := fun n nested x c => KeepsAt R (m.runWith n nested x) c)
      (fun _ ha hb => ha.keepsAt hR hb) (fun _ _ => Elementary.exhaust.keepsAt hR) h

end Machine

end BlockSuite
