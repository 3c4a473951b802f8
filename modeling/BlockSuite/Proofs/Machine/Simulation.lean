import BlockSuite.Proofs.Likeness
import BlockSuite.Proofs.Machine.Contained

/-!
Two machines side by side. Where the contexts are alike, a step is run alike by two machines that
know the same blocks if it is announced alike, if its block answers alike, and if the steps right
inside it are run alike: the machine itself does the same on both sides. The records of the step are
then related, and so are the results on them.
-/

namespace BlockSuite

open BlockSuite.Action (Agree Congruent)
open BlockSuite.Context (Likeness)

/-- Two frames in related contexts, with related records. -/
structure Frame.Beside (S : Context → Context → Prop) (T : StepResult → StepResult → Prop)
    (f g : Frame) : Prop where
  context : S f.context g.context
  result : T f.result g.result

/-- Records that are related by the one relation keep to it where the same is done to both of them,
and where results are put on them that are related by the other one. Of both, related ones differ in
nothing but what was put on record about others. -/
structure StepResult.Resemblance (T Q : StepResult → StepResult → Prop) : Prop where
  own : ∀ r r', T r r' → r.shell = r'.shell
  others : ∀ r r', Q r r' → r.shell = r'.shell
  shelled : ∀ r r' s, T r r' → T (r.inShell s) (r'.inShell s)
  inputs : ∀ r r' x x' name, T r r' → Q x x' →
    T (Machine.withInput r name x) (Machine.withInput r' name x')
  children : ∀ r r' rs rs', T r r' → List.Forall₂ Q rs rs' →
    T { r with children := r.children ++ rs } { r' with children := r'.children ++ rs' }

namespace StepResult

variable {T Q : StepResult → StepResult → Prop} {r r' : StepResult} {rs rs' : List StepResult}

/-- The same results resemble each other. -/
lemma Resemblance.eq : Resemblance Eq Eq where
  own _ _ h := congrArg shell h
  others _ _ h := congrArg shell h
  shelled _ _ _ h := by rw [h]
  inputs _ _ _ _ _ h hx := by rw [h, hx]
  children _ _ _ _ h hrs := by
    rw [List.forall₂_eq_eq_eq] at hrs
    rw [h, hrs]

lemma shells_eq (hothers : ∀ r r', Q r r' → r.shell = r'.shell) (h : List.Forall₂ Q rs rs') :
    rs.map shell = rs'.map shell := by
  induction h with
  | nil => rfl
  | cons hr _ ih => rw [List.map_cons, List.map_cons, hothers _ _ hr, ih]

/-- Of related results the same one is the first to fail. -/
lemma find?_fatal (hothers : ∀ r r', Q r r' → r.shell = r'.shell) (h : List.Forall₂ Q rs rs') :
    rs.find? (·.isFatal) = none ∧ rs'.find? (·.isFatal) = none ∨
      ∃ r r', rs.find? (·.isFatal) = some r ∧ rs'.find? (·.isFatal) = some r' ∧
        r.shell = r'.shell := by
  induction h with
  | nil => exact .inl ⟨rfl, rfl⟩
  | @cons r r' rs rs' hr _ ih =>
    have hfatal : r.isFatal = r'.isFatal := congrArg (·.isFatal) (hothers r r' hr)
    rw [List.find?_cons, List.find?_cons, ← hfatal]
    cases r.isFatal with
    | true => exact .inr ⟨r, r', rfl, rfl, hothers r r' hr⟩
    | false => exact ih

/-- A change that does not look at what was put on record about others. -/
lemma Resemblance.change (hT : Resemblance T Q) {k : StepResult → StepResult}
    (hk : ∀ r, k r = r.inShell (k r.shell)) (h : T r r') : T (k r) (k r') := by
  rw [hk r, hk r', hT.own r r' h]
  exact hT.shelled r r' _ h

end StepResult

namespace Machine

open BlockSuite.Frame (Beside inContext note)
open BlockSuite.StepResult (Resemblance)

variable {m m' : Machine} {run run' : Runner} {step : Step} {steps : List Step} {f g : Frame}
  {c d : Context} {S : Context → Context → Prop} {T Q : StepResult → StepResult → Prop}

/-! ### Parts -/

section Parts

variable {α β : Type} {R : α → β → Prop} {rs rs' : List StepResult}

lemma inContext_agrees {x : Run α} {y : Run β} (h : Agree S R x f.context y g.context)
    (hr : T f.result g.result) : Agree (Beside S T) R (inContext x) f (inContext y) g := by
  rcases hx : x f.context with ⟨o, c⟩
  rcases hy : y g.context with ⟨o', d⟩
  obtain ⟨ho, hs⟩ := h
  rw [hx, hy] at ho hs
  exact .of_run (Frame.inContext_run hx) (Frame.inContext_run hy) ho ⟨hs, hr⟩

lemma inContext_congruent {x : Run α} (hx : Congruent S x) (h : f.Beside S T g) :
    Agree (Beside S T) Eq (inContext x) f (inContext x) g :=
  inContext_agrees (hx _ _ h.context) h.result

lemma note_agrees {k l : StepResult → StepResult} (h : f.Beside S T g)
    (hr : T (k f.result) (l g.result)) :
    Agree (Beside S T) Eq (note k) f (note l) g := .modify ⟨h.context, hr⟩

/-- A failure is that of the first result that has one. -/
lemma raiseFor_shells (h : rs.map StepResult.shell = rs'.map StepResult.shell) :
    Frame.raiseFor rs = Frame.raiseFor rs' := by
  have hall (rs : List StepResult) : Frame.raiseFor rs = Frame.raiseFor (rs.map .shell) := by
    rw [Frame.raiseFor, Frame.raiseFor, List.findSome?_map]
    rfl
  rw [hall rs, hall rs', h]

/-- A frame has the value of the first result that has left it. -/
lemma frameOutput_shells (expectReturn : Bool)
    (h : rs.map StepResult.shell = rs'.map StepResult.shell) :
    frameOutput expectReturn rs = frameOutput expectReturn rs' := by
  have hall (rs : List StepResult) :
      frameOutput expectReturn rs = frameOutput expectReturn (rs.map .shell) := by
    have hfind : (rs.map StepResult.shell).find? (·.returned) =
        (rs.find? (·.returned)).map StepResult.shell := List.find?_map ..
    rw [frameOutput, frameOutput, hfind]
    cases rs.find? (·.returned) <;> rfl
  rw [hall rs, hall rs', h]

lemma raiseFor_agrees (hrs : rs.map StepResult.shell = rs'.map StepResult.shell)
    (h : f.Beside S T g) :
    Agree (Beside S T) Eq (Frame.raiseFor rs) f (Frame.raiseFor rs') g := by
  rw [raiseFor_shells hrs]
  unfold Frame.raiseFor
  split
  · exact .fail _ h
  · exact .pure rfl h

variable (hT : Resemblance T Q)
include hT

/-- A departure is that of the last result that has one. -/
lemma depart_related (hrs : rs.map StepResult.shell = rs'.map StepResult.shell) {r r' : StepResult}
    (h : T r r') :
    T (rs.foldl (fun r child =>
        if child.returned then { r with returned := true, output := child.output } else r) r)
      (rs'.foldl (fun r child =>
        if child.returned then { r with returned := true, output := child.output } else r) r') := by
  let leave (r child : StepResult) : StepResult :=
    if child.returned then { r with returned := true, output := child.output } else r
  have hall (rs : List StepResult) (r : StepResult) :
      rs.foldl leave r = (rs.map StepResult.shell).foldl leave r := by
    rw [List.foldl_map]
    rfl
  change T (rs.foldl leave r) (rs'.foldl leave r')
  rw [hall rs, hall rs', hrs]
  induction rs'.map StepResult.shell generalizing r r' with
  | nil => exact h
  | cons x rest ih =>
    refine ih ?_
    change T (if x.returned then _ else _) (if x.returned then _ else _)
    split
    · exact hT.change (k := fun r => { r with returned := true, output := x.output })
        (fun _ => rfl) h
    · exact h

lemma adopt_agrees (hrs : List.Forall₂ Q rs rs') (h : f.Beside S T g) :
    Agree (Beside S T) Eq (Frame.adopt rs) f (Frame.adopt rs') g := by
  have hshells := StepResult.shells_eq hT.others hrs
  refine (note_agrees h (hT.children _ _ _ _ h.result hrs)).bind fun _ f₁ _ g₁ _ _ _ h₁ => ?_
  refine (raiseFor_agrees hshells h₁).bind fun _ f₂ _ g₂ _ _ _ h₂ => ?_
  exact note_agrees h₂ (depart_related hT hshells h₂.result)

lemma markSoft_agrees (hS : Likeness S) (n : Nat) (h : f.Beside S T g) :
    Agree (Beside S T) Eq (markSoft n) f (markSoft n) g := by
  refine .get ?_
  rw [hS.collected _ _ h.context]
  dsimp only
  split
  · refine note_agrees h (hT.change (k := fun r => { r with
      status := .failed
      soft := true
      error := g.context.softErrors.getLast?.map fun e =>
        ⟨e.message, none, some "soft_assertion"⟩ })
      (fun _ => rfl) h.result)
  · exact .pure rfl h

lemma bodyOutput_agrees (h : f.Beside S T g) :
    Agree (Beside S T) Eq bodyOutput f bodyOutput g := by
  have houtput : f.result.output = g.result.output :=
    congrArg (·.output) (hT.own _ _ h.result)
  exact .of_run (bodyOutput_run f) (bodyOutput_run g) (.done houtput) h

lemma hasReturned_agrees (h : f.Beside S T g) :
    Agree (Beside S T) Eq hasReturned f hasReturned g := by
  have hreturned : f.result.returned = g.result.returned :=
    congrArg (·.returned) (hT.own _ _ h.result)
  exact .of_run (hasReturned_run f) (hasReturned_run g) (.done hreturned) h

end Parts

/-! ### Lists and inputs -/

/-- In the contexts that are related to this one, a step is run alike. -/
def RunsAlike (S : Context → Context → Prop) (Q : StepResult → StepResult → Prop)
    (run run' : Runner) (nested : Bool) (x : Step) (c : Context) : Prop :=
  ∀ d, S c d → Agree S Q (run nested x) c (run' nested x) d

/-- In the contexts that are related to this one, a list is run alike. -/
def ListsAlike (S : Context → Context → Prop) (Q : StepResult → StepResult → Prop)
    (run run' : Runner) (steps : List Step) (c : Context) : Prop :=
  ∀ d, S c d →
    Agree S (List.Forall₂ Q) (runList (run false) steps) c (runList (run' false) steps) d

/-- A list is run alike if the steps are that it starts. -/
lemma listsAlike (hothers : ∀ r r', Q r r' → r.shell = r'.shell)
    (h : ∀ i x cx, StartsAt (run false) steps c i x cx → RunsAlike S Q run run' false x cx) :
    ListsAlike S Q run run' steps c := by
  intro d hcd
  -- Both runs have started the same steps, for related results stop a list alike.
  induction steps generalizing c d with
  | nil => exact .pure .nil hcd
  | cons s rest ih =>
    rw [runList_cons, runList_cons]
    refine (h 0 s c (.here s rest c) d hcd).bind fun r c₁ r' d₁ head _ hr h₁ => ?_
    have hstops : r.stops = r'.stops := congrArg (·.stops) (hothers r r' hr)
    rw [← hstops]
    split
    · exact .pure (.cons hr .nil) h₁
    · next hs =>
      have hrest : ∀ i x cx, StartsAt (run false) rest c₁ i x cx →
          RunsAlike S Q run run' false x cx :=
        fun i x cx hx => h (i + 1) x cx (.later head (by simpa using hs) hx)
      exact (ih hrest d₁ h₁).bind fun rs c₂ rs' d₂ _ _ hrs h₂ => .pure (.cons hr hrs) h₂

section Lists

lemma runFrame_agrees (hothers : ∀ r r', Q r r' → r.shell = r'.shell)
    (hchildren : ∀ r r' rs rs', T r r' → List.Forall₂ Q rs rs' →
      T { r with children := r.children ++ rs } { r' with children := r'.children ++ rs' })
    {b b' : Dict Value} {expectReturn : Bool}
    (hopen : ∀ c d, S c d → S (openFrame c) (openFrame d))
    (hclose : ∀ c d, S c d → S (closeFrame f.context.bindings b.keys c)
      (closeFrame g.context.bindings b'.keys d))
    (hbinds : Agree S Eq (bindEach b) f.context (bindEach b') g.context)
    (hlist : ∀ c, bindEach b f.context = (.done (), c) →
      ListsAlike S Q run run' steps (openFrame c)) (h : f.Beside S T g) :
    Agree (Beside S T) Eq (runFrame run steps expectReturn b) f
      (runFrame run' steps expectReturn b') g := by
  refine .get ((inContext_agrees hbinds h.result).bind fun _ f₁ _ g₁ bound _ _ h₁ => ?_)
  have hopened : Agree (Beside S T) Eq (inContext (Action.modify openFrame)) f₁
      (inContext (Action.modify openFrame)) g₁ :=
    inContext_agrees (.modify (hopen _ _ h₁.context)) h₁.result
  refine hopened.bind fun _ f₂ _ g₂ hf₂ _ _ h₂ => ?_
  cases hf₂
  have hbody := hlist _ (Frame.inContext_eq bound).1 _ h₂.context
  refine (Agree.attempt_lift (inContext_agrees hbody h₂.result)).bind
    fun outcome f₃ outcome' g₃ _ _ houtcome h₃ => ?_
  have hclosed : Agree (Beside S T) Eq
      (inContext (Action.modify (closeFrame f.context.bindings b.keys))) f₃
      (inContext (Action.modify (closeFrame g.context.bindings b'.keys))) g₃ :=
    inContext_agrees (.modify (hclose _ _ h₃.context)) h₃.result
  refine hclosed.bind fun _ f₄ _ g₄ _ _ _ h₄ => ?_
  refine (houtcome _ _ h₄).bind fun rs f₅ rs' g₅ _ _ hrs h₅ => ?_
  refine (note_agrees h₅ (hchildren _ _ rs rs' h₅.result hrs)).bind fun _ f₆ _ g₆ _ _ _ h₆ => ?_
  refine (raiseFor_agrees (StepResult.shells_eq hothers hrs) h₆).bind fun _ f₇ _ g₇ _ _ _ h₇ => ?_
  exact .pure (frameOutput_shells _ (StepResult.shells_eq hothers hrs)) h₇

variable (hT : Resemblance T Q)
include hT

lemma runBody_agrees (hlist : ListsAlike S Q run run' steps f.context) (h : f.Beside S T g) :
    Agree (Beside S T) Eq (runBody run steps) f (runBody run' steps) g :=
  (inContext_agrees (hlist _ h.context) h.result).bind fun _ _ _ _ _ _ hrs h₁ =>
    adopt_agrees hT hrs h₁

variable (hS : Likeness S)
include hS

lemma resolveInput_agrees {b : Block} {name : String}
    (hx : ∀ x, Dict.get? step.params name = some (.nested x) →
      RunsAlike S Q run run' true x f.context) (h : f.Beside S T g) :
    Agree (Beside S T) Eq (resolveInput run b step name) f (resolveInput run' b step name) g := by
  unfold resolveInput
  split
  · next inner bound =>
    have hrun := hx inner bound _ h.context
    refine (inContext_agrees hrun h.result).bind fun r f₁ r' g₁ _ _ hr h₁ => ?_
    have hput : Agree (Beside S T) Eq (note fun x => withInput x name r) f₁
        (note fun x => withInput x name r') g₁ :=
      note_agrees h₁ (hT.inputs _ _ r r' name h₁.result hr)
    refine hput.bind fun _ f₂ _ g₂ _ _ _ h₂ => ?_
    have hshell := hT.others r r' hr
    rw [show r.isFatal = r'.isFatal from congrArg (·.isFatal) hshell,
      show r.isSkipped = r'.isSkipped from congrArg (·.isSkipped) hshell,
      show r.failure = r'.failure from congrArg (·.failure) hshell,
      show r.output = r'.output from congrArg (·.output) hshell]
    split
    · exact .fail _ h₂
    · exact .pure rfl h₂
  · exact inContext_congruent (hS.fill _) h
  · split
    · exact .pure rfl h
    · split
      · exact .fail _ h
      · exact inContext_congruent (hS.fill _) h

lemma resolveAll_agrees {b : Block} {names : List String}
    (hx : ∀ x cx, Asks run b step names f x cx → RunsAlike S Q run run' true x cx)
    (h : f.Beside S T g) :
    Agree (Beside S T) Eq (resolveAll run b step names) f (resolveAll run' b step names) g := by
  induction names generalizing f g with
  | nil => exact .pure rfl h
  | cons name rest ih =>
    have hinput : Agree (Beside S T) Eq (resolveInput run b step name) f
        (resolveInput run' b step name) g :=
      resolveInput_agrees hT hS (fun x bound => hx x _ (.here bound)) h
    refine hinput.bind ?_
    rintro v f₁ _ g₁ given - rfl h₁
    refine (ih (fun x cx asks => hx x cx (.later given asks)) h₁).bind ?_
    rintro vs f₂ _ g₂ - - rfl h₂
    exact .pure rfl h₂

/-! ### Work -/

omit hS in
lemma runPasses_agrees {starts : List (Run Unit)} (hs : ∀ x ∈ starts, Congruent S x)
    (hlist : ∀ k c, Pass run steps starts f k c → ListsAlike S Q run run' steps c)
    (h : f.Beside S T g) :
    Agree (Beside S T) Eq (runPasses (runBody run steps) starts) f
      (runPasses (runBody run' steps) starts) g := by
  induction starts generalizing f g with
  | nil => exact .pure rfl h
  | cons start rest ih =>
    have hstart := inContext_congruent (hs start List.mem_cons_self) h
    refine hstart.bind fun _ f₁ _ g₁ begins _ _ h₁ => ?_
    have hbody := runBody_agrees hT (hlist 0 _ (.here begins)) h₁
    refine hbody.bind fun _ f₂ _ g₂ body _ _ h₂ => ?_
    refine (hasReturned_agrees hT h₂).bind ?_
    rintro b f₃ _ g₃ hb - rfl h₃
    rw [hasReturned_run] at hb
    cases hb
    split
    · next stays =>
      refine ih (fun x hx => hs x (List.mem_cons_of_mem _ hx)) (fun k c hp => ?_) h₃
      exact hlist (k + 1) c (.later begins body (by simpa using stays) hp)
    · exact .pure rfl h₃

lemma runTrial_agrees {handler : List Step} {errorBinding : Option String}
    (hlist : ∀ k xs c, Opens run f (.trial steps handler errorBinding) k xs c →
      ListsAlike S Q run run' xs c) (h : f.Beside S T g) :
    Agree (Beside S T) Eq (runTrial run steps handler errorBinding) f
      (runTrial run' steps handler errorBinding) g := by
  have htries := hlist 0 _ _ (.attempt steps handler errorBinding) _ h.context
  refine (inContext_agrees htries h.result).bind fun rs f₁ rs' g₁ ran _ hrs h₁ => ?_
  rcases StepResult.find?_fatal hT.others hrs with ⟨hn, hn'⟩ | ⟨r, r', hr, hr', hsame⟩
  · rw [hn, hn']
    exact adopt_agrees hT hrs h₁
  · rw [hr, hr']
    refine (note_agrees h₁ (hT.children _ _ rs rs' h₁.result hrs)).bind
      fun _ f₂ _ g₂ hf₂ _ _ h₂ => ?_
    have hcaught : bindCaught errorBinding r' = bindCaught errorBinding r := by
      rw [bindCaught, bindCaught, failureMessage, failureMessage,
        show r'.stepId = r.stepId from congrArg (·.stepId) hsame.symm,
        show r'.error = r.error from congrArg (·.error) hsame.symm]
    rw [hcaught]
    refine (inContext_congruent (hS.bindCaught errorBinding r) h₂).bind
      fun _ f₃ _ g₃ begins _ _ h₃ => ?_
    cases hf₂
    exact runBody_agrees hT
      (hlist 1 _ _ (.handler (Frame.inContext_eq ran).1 hr (Frame.inContext_eq begins).1)) h₃

/-- Work is done alike if the lists are that it opens. -/
lemma carryOut_agrees {s : Signal}
    (hlist : ∀ k xs c, Opens run f (s.work step) k xs c → ListsAlike S Q run run' xs c)
    (h : f.Beside S T g) :
    Agree (Beside S T) Eq (carryOut run (s.work step)) f (carryOut run' (s.work step)) g := by
  generalize hw : s.work step = w at hlist
  cases w with
  | passes starts steps =>
    have hpasses := runPasses_agrees hT (hS.work_starts hw) (fun k c hp => hlist k _ c (.pass hp)) h
    exact hpasses.bind fun _ _ _ _ _ _ _ h₁ => bodyOutput_agrees hT h₁
  | trial steps handler errorBinding =>
    exact (runTrial_agrees hT hS hlist h).bind fun _ _ _ _ _ _ _ h₁ => bodyOutput_agrees hT h₁
  | frame args steps expectReturn =>
    refine (inContext_congruent (hS.work_args hw) h).bind ?_
    rintro bindings f₁ _ g₁ given - rfl h₁
    refine runFrame_agrees hT.others hT.children hS.opened
      (fun c d hcd => hS.closed _ _ c d h₁.context hcd _) (hS.bindEach bindings _ _ h₁.context)
      (fun c bound => ?_) h₁
    exact hlist 0 _ _ (.frame (bindArguments_done (Frame.inContext_eq given).1 bound))
  | leave v =>
    refine .get ?_
    rw [hS.depth _ _ h.context]
    split
    · exact (inContext_congruent (hS.log _ _ _ _) h).bind fun _ _ _ _ _ _ _ h₁ => .pure rfl h₁
    · have hleave : T { f.result with returned := true } { g.result with returned := true } :=
        hT.change (k := fun r => { r with returned := true }) (fun _ => rfl) h.result
      exact (note_agrees h hleave).bind fun _ _ _ _ _ _ _ h₁ => .pure rfl h₁
  | define name procedure =>
    exact (inContext_congruent (hS.defineLogged _ _) h).bind fun _ _ _ _ _ _ _ h₁ => .pure rfl h₁

/-! ### One step -/

lemma invoke_agrees {block : Block} {params : Dict Value}
    (hblock : Agree S Answer.Alike (block.executor params) f.context (block.executor params)
      g.context) (h : f.Beside S T g) :
    Agree (Beside S T) Answer.Alike (invoke block params) f (invoke block params) g := by
  refine .get ?_
  rw [hS.collected _ _ h.context]
  refine (inContext_agrees hblock h.result).bind fun a f₁ a' g₁ _ _ ha h₁ => ?_
  exact (markSoft_agrees hT hS _ h₁).bind fun _ _ _ _ _ _ _ h₂ => .pure ha h₂

lemma prepare_agrees (hblocks : m'.blocks = m.blocks)
    (hx : ∀ block, m.blocks.lookup step.type = some block → ∀ x cx,
      Asks run block step (inputNames block step) f x cx → RunsAlike S Q run run' true x cx)
    (h : f.Beside S T g) :
    Agree (Beside S T) Eq (m.prepare run step) f (m'.prepare run' step) g := by
  unfold prepare
  rw [hblocks]
  split
  · exact .fail _ h
  · next block known =>
    refine (resolveAll_agrees hT hS (hx block known) h).bind ?_
    rintro params f₁ _ g₁ - - rfl h₁
    have hcurrent : Agree (Beside S T) Eq
        (inContext (Action.modify fun c => { c with currentStep := some step })) f₁
        (inContext (Action.modify fun c => { c with currentStep := some step })) g₁ :=
      inContext_agrees (.modify (hS.entered _ _ h₁.context step)) h₁.result
    exact hcurrent.bind fun _ _ _ _ _ _ _ h₂ => .pure rfl h₂

/-- A failure is settled alike on related records. -/
lemma settled_related (e : Failure) {b b' : Context} (hb : S b b') {r r' : StepResult}
    (hr : T r r') (h : S c d) :
    Agree S T (Action.lift (settled b step r e)) c (Action.lift (settled b' step r' e)) d := by
  have hsame (r : StepResult) : settled b step r e = settled b' step r e := by
    have hfailed (e : BlockError) : failedWith b step e r = failedWith b' step e r := by
      rw [failedWith, failedWith, (hS.trial _ _ hb).testName, (hS.trial _ _ hb).rowValue]
    cases e <;> simp only [settled, hfailed]
  rw [hsame, settled_inShell b' step r, settled_inShell b' step r', hT.own r r' hr]
  cases settled b' step r'.shell e with
  | ok x => exact .pure (hT.shelled r r' x hr) h
  | error e => exact .fail e h

omit hT hS in
/-- What steps come to is related where values and failures are put on related records alike. -/
lemma conclude_agrees {step' : Step} {nested nested' : Bool} {P : StepResult → StepResult → Prop}
    (hleft : ∀ c' d', S c' d' →
      S { c' with currentStep := c.currentStep } { d' with currentStep := d.currentStep })
    (h : Agree (Beside S T) Eq (m.evaluate run nested step) ⟨c, .blank step⟩
      (m'.evaluate run' nested' step') ⟨d, .blank step'⟩)
    (hvalue : ∀ r r' v, T r r' → P { r with output := v } { r' with output := v })
    (hfailure : ∀ (b b' : Context) (r r' : StepResult) (e : Failure), S b b' → T r r' →
      ∀ c' d', S c' d' → Agree S P (Action.lift (settled b step r e)) c'
        (Action.lift (settled b' step' r' e)) d') :
    Agree S P (m.conclude run nested step) c (m'.conclude run' nested' step') d := by
  rcases h.cases with ⟨v, f, _, g, hf, hg, rfl, h⟩ | ⟨e, f, g, hf, hg, h⟩ | ⟨f, g, hf, hg, h⟩
  · exact .of_run (conclude_of_done hf) (conclude_of_done hg) (.done (hvalue _ _ _ h.result))
      (hleft _ _ h.context)
  · exact .congr (conclude_of_failed hf) (conclude_of_failed hg)
      (hfailure _ _ _ _ e h.context h.result _ _ (hleft _ _ h.context))
  · exact .of_run (conclude_of_exhausted hf) (conclude_of_exhausted hg) .exhausted h.context

/-- **A step comes to its result alike** if it is announced alike, if its block answers alike, and
if the steps right inside it are run alike. -/
lemma Start.concludes_alike {a : Start} (hblocks : m'.blocks = m.blocks)
    (hannounce : ∀ d, S a.before d → Agree (Beside S T) Eq (m.announce a.nested a.step) a.fresh
      (m'.announce a.nested a.step) ⟨d, .blank a.step⟩)
    (hblock : ∀ f block params f', m.announce a.nested a.step a.fresh = (.done (), f) →
      m.prepare (a.inner m) a.step f = (.done (block, params), f') →
        ∀ d, S f'.context d → f'.context.currentStep = d.currentStep →
          Agree S Answer.Alike (block.executor params) f'.context (block.executor params) d)
    (hinner : ∀ b, m.Contains a b →
      RunsAlike S Q (m.runWith a.layers) (m'.runWith a.layers) b.nested b.step b.before)
    (hcd : S a.before d) :
    Agree S T (m.conclude (a.inner m) a.nested a.step) a.before
      (m'.conclude (m'.runWith a.layers) a.nested a.step) d := by
  refine conclude_agrees (fun c' d' h => hS.left _ _ _ _ hcd h) ?_
    (fun r r' v hr => hT.change (k := fun r => { r with output := v }) (fun _ => rfl) hr)
    fun b b' r r' e hb hr c' d' h => settled_related hT hS e hb hr h
  -- Whatever is run inside the step is run one layer below it. The lowest layer runs nothing, on
  -- either side: there what the step asks for is alike without being inside of it.
  let P (n : Nat) (nested : Bool) (x : Step) (c : Context) : Prop :=
    RunsAlike S Q (m.runWith n) (m'.runWith n) nested x c
  have hbottom (nested : Bool) (x : Step) (c : Context) : P 0 nested x c := fun _ h => .exhaust h
  have hconsult : Agree (Beside S T) Answer.Alike (m.consult (a.inner m) a.nested a.step) a.fresh
      (m'.consult (m'.runWith a.layers) a.nested a.step) ⟨d, .blank a.step⟩ := by
    refine (hannounce d hcd).bind fun _ f _ g announced _ _ h => ?_
    refine (prepare_agrees hT hS hblocks (fun block known x cx asks => ?_) h).bind ?_
    · exact asks.of_contains (P := P) hbottom hinner announced known
    · rintro ⟨block, params⟩ f' _ g' prepared prepared' rfl h'
      have hcurrent := (prepare_currentStep prepared).trans (prepare_currentStep prepared').symm
      exact invoke_agrees hT hS
        (hblock f block params f' announced prepared _ h'.context hcurrent) h'
  refine hconsult.bind fun answer f answer' g answered _ halike h => ?_
  cases halike with
  | value v => exact .pure rfl h
  | @signal s s' hwork =>
    rw [respond, respond, perform_eq, perform_eq, ← hwork a.step]
    refine carryOut_agrees hT hS (fun k xs c opened => ?_) h
    refine listsAlike hT.others fun i x cx started => ?_
    exact started.of_contains (P := P) hbottom hinner answered opened

end Lists

/-! ### A machine beside itself -/

/-- What watches a machine makes no difference between related contexts. -/
structure WatchedEvenly (m : Machine) (S : Context → Context → Prop) : Prop where
  beforeStep : ∀ h ∈ m.hooks, ∀ f, h.beforeStep = some f → ∀ step, Congruent S (f step)
  afterStep : ∀ h ∈ m.hooks, ∀ f, h.afterStep = some f → ∀ step r, Congruent S (f step r)
  artifact : ∀ hook, m.artifact = some hook → ∀ step f, Congruent S (hook step f)

lemma announce_agrees (hS : Likeness S)
    (hbefore : ∀ h ∈ m.hooks, ∀ f, h.beforeStep = some f → ∀ step, Congruent S (f step))
    (nested : Bool) (step : Step) (h : f.Beside S T g) :
    Agree (Beside S T) Eq (m.announce nested step) f (m.announce nested step) g := by
  refine (inContext_congruent hS.ensureRunning h).bind fun _ f₁ _ g₁ _ _ _ h₁ => ?_
  split
  · exact inContext_congruent (.runAll fun k hk w hw => hbefore k hk w hw step) h₁
  · exact .pure rfl h₁

namespace WatchedEvenly

variable (hm : m.WatchedEvenly S) (hS : Likeness S)
include hm hS

lemma report (nested : Bool) (step : Step) (r : StepResult) :
    Congruent S (m.report nested step r) := by
  have hattach : Congruent S (m.attachArtifact step r) := by
    unfold Machine.attachArtifact
    split
    · next hook hk =>
      refine (hm.artifact hook (artifactHookFor_eq hk) step r.failure).attempt.bind fun e => ?_
      split
      · exact .pure _
      · exact (hS.log _ _ _ _).bind fun _ => .pure _
    · exact .pure _
  have hobserve (r : StepResult) : Congruent S (m.observe nested step r) := by
    unfold Machine.observe
    split
    · exact .pure _
    · have hhooks : Congruent S
          (Hooks.runAll m.hooks fun h => h.afterStep.map fun f => f step r) :=
        .runAll fun k hk w hw => hm.afterStep k hk w hw step r
      refine hhooks.attempt.bind fun e => ?_
      split
      · exact .pure _
      · exact hS.log _ _ _ _
  exact hattach.bind fun r' => (hobserve r').bind fun _ => .pure _

/-- **A machine runs a step alike in related contexts** if the block of the step answers alike, and
if the steps right inside it are run alike. -/
lemma runs_alike {a : Start}
    (hblock : ∀ f block params f', m.announce a.nested a.step a.fresh = (.done (), f) →
      m.prepare (a.inner m) a.step f = (.done (block, params), f') →
        ∀ d, S f'.context d → f'.context.currentStep = d.currentStep →
          Agree S Answer.Alike (block.executor params) f'.context (block.executor params) d)
    (hinner : ∀ b, m.Contains a b →
      RunsAlike S Eq (m.runWith a.layers) (m.runWith a.layers) b.nested b.step b.before) :
    RunsAlike S Eq (m.runWith (a.layers + 1)) (m.runWith (a.layers + 1)) a.nested a.step
      a.before := by
  intro d hcd
  have hconclude := Start.concludes_alike StepResult.Resemblance.eq hS rfl
    (fun d hd => announce_agrees hS hm.beforeStep a.nested a.step ⟨hd, rfl⟩) hblock hinner hcd
  refine hconclude.bind ?_
  rintro r c' _ d' - - rfl h
  exact hm.report hS a.nested a.step r c' d' h

end WatchedEvenly

end Machine

end BlockSuite
