import BlockSuite.Proofs.Machine.Record

/-!
Which steps are started. The work of a signal opens lists of steps, one for each pass of a loop, one
for each slot of a trial, and a list starts its steps one after the other. A step that leaves a
procedure is the last one that is started: in its list, and in all lists of the work it belongs to.
-/

namespace BlockSuite.Machine

open BlockSuite.Frame (inContext note)

/-- The step that a list starts at a position, and the context it is started in. -/
inductive StartsAt (run : Step → Run StepResult) : List Step → Context → Nat → Step → Context →
    Prop
  | here (step : Step) (rest : List Step) (c : Context) : StartsAt run (step :: rest) c 0 step c
  | later {step x : Step} {rest : List Step} {c c' c'' : Context} {r : StepResult} {i : Nat}
    (head : run step c = (.done r, c')) (hr : r.stops = false)
    (next : StartsAt run rest c' i x c'') : StartsAt run (step :: rest) c (i + 1) x c''

/-- The context in which a pass opens its list of steps. -/
inductive Pass (run : Runner) (steps : List Step) : List (Run Unit) → Frame → Nat → Context → Prop
  | here {start : Run Unit} {rest : List (Run Unit)} {f f' : Frame}
    (begins : inContext start f = (.done (), f')) : Pass run steps (start :: rest) f 0 f'.context
  | later {start : Run Unit} {rest : List (Run Unit)} {f f' f'' : Frame} {k : Nat} {c : Context}
    (begins : inContext start f = (.done (), f')) (body : runBody run steps f' = (.done (), f''))
    (stays : f''.result.returned = false) (next : Pass run steps rest f'' k c) :
    Pass run steps (start :: rest) f (k + 1) c

/-- The lists of steps that some work opens, by number, and the contexts they are run in. -/
inductive Opens (run : Runner) (f : Frame) : Work → Nat → List Step → Context → Prop
  | pass {starts : List (Run Unit)} {steps : List Step} {k : Nat} {c : Context}
    (h : Pass run steps starts f k c) : Opens run f (.passes starts steps) k steps c
  | attempt (steps handler : List Step) (errorBinding : Option String) :
    Opens run f (.trial steps handler errorBinding) 0 steps f.context
  | handler {steps handler : List Step} {errorBinding : Option String} {rs : List StepResult}
    {r : StepResult} {c c' : Context}
    (attempt : runList (run false) steps f.context = (.done rs, c))
    (fails : rs.find? (·.isFatal) = some r)
    (begins : bindCaught errorBinding r c = (.done (), c')) :
    Opens run f (.trial steps handler errorBinding) 1 handler c'
  | frame {args : Run (Dict Value)} {steps : List Step} {expectReturn : Bool}
    {bindings : Dict Value} {c : Context}
    (begins : bindArguments args f.context = (.done bindings, c)) :
    Opens run f (.frame args steps expectReturn) 0 steps (openFrame c)

variable {run : Runner} {steps : List Step} {f f' : Frame} {c c' : Context} {r : StepResult}
  {rs : List StepResult}

/-! ### Positions in a list -/

namespace StartsAt

variable {run : Step → Run StepResult} {ran rest : List Step} {i j : Nat} {x y : Step}
  {cx cy : Context}

lemma of_chain (h : Chain run c ran rs c') (hc : Calm rs) (step : Step) (rest : List Step) :
    StartsAt run (ran ++ step :: rest) c ran.length step c' := by
  induction h with
  | nil => exact .here _ _ _
  | cons head _ ih =>
    refine .later head (hc _ List.mem_cons_self) ?_
    exact ih fun x hx => hc x (List.mem_cons_of_mem _ hx)

/-- A list ends with a step that stops it. -/
lemma runList (h : StartsAt run steps c i x cx) (hx : run x cx = (.done r, c'))
    (hs : r.stops = true) : ∃ rs, Machine.runList run steps c = (.done (rs ++ [r]), c') ∧
      Calm rs := by
  induction h with
  | here step rest c => exact ⟨[], runList_of_stop (.nil c) .nil hx hs rest, .nil⟩
  | later head hr _ ih =>
    obtain ⟨rs, hrun, hc⟩ := ih hx
    refine ⟨_ :: rs, ?_, .cons hr hc⟩
    rw [runList_cons, Action.bind_of_done head]
    simp only [hr, Bool.false_eq_true, if_false]
    rw [Action.bind_of_done hrun]
    rfl

/-- No step is started behind one that stops the list. -/
lemma le_of_stops (h : StartsAt run steps c i x cx) (hx : run x cx = (.done r, c'))
    (hs : r.stops = true) (h' : StartsAt run steps c j y cy) : j ≤ i := by
  induction h generalizing j with
  | here step rest c =>
    cases h' with
    | here => exact Nat.le_refl _
    | later head hr next =>
      rw [hx] at head
      cases head
      rw [hs] at hr
      cases hr
  | later head hr next ih =>
    cases h' with
    | here => exact Nat.zero_le _
    | later head' hr' next' =>
      rw [head] at head'
      cases head'
      exact Nat.succ_le_succ (ih hx next')

end StartsAt

/-- Where a list ends with a result that stops it, that is the result of a step of the list. -/
lemma exists_startsAt {run : Step → Run StepResult}
    (h : runList run steps c = (.done (rs ++ [r]), c')) (hs : r.stops = true) :
    ∃ i x cx, StartsAt run steps c i x cx ∧ run x cx = (.done r, c') := by
  rcases runList_cases h with ⟨rs', -, hc, hd⟩ | ⟨ran, x, rest, rs', c₁, rfl, hch, hc, hx⟩
  · cases hd
    have := hc r (by simp)
    rw [hs] at this
    cases this
  · rcases hx with ⟨r', hr, -, hd⟩ | ⟨_, _, hb⟩
    · obtain ⟨-, hrr⟩ := List.append_inj' (Outcome.done.inj hd) rfl
      cases hrr
      exact ⟨_, x, c₁, .of_chain hch hc x rest, hr⟩
    · exact hb.not_done.elim

/-! ### Bodies that leave a procedure -/

/-- Results of which the last one, and no other, leaves a procedure. -/
structure Left (rs : List StepResult) (r : StepResult) : Prop where
  calm : Calm rs
  breaks : r.breaks = false
  returned : r.returned = true

lemma Left.forall_breaks (h : Left rs r) : ∀ x ∈ rs ++ [r], x.breaks = false :=
  h.calm.breaks_concat h.breaks

/-- The record of a step that is left with the last of some results. -/
def leaving (before : StepResult) (rs : List StepResult) (r : StepResult) : StepResult :=
  { before with children := before.children ++ (rs ++ [r]), returned := true, output := r.output }

lemma mem_leaving (before : StepResult) (rs : List StepResult) (r : StepResult) :
    r ∈ (leaving before rs r).children := by
  simp [leaving]

lemma adopt_left (h : Left rs r) (f : Frame) :
    Frame.adopt (rs ++ [r]) f = (.done (), ⟨f.context, leaving f.result rs r⟩) := by
  rw [adopt_run, Action.bind_of_done (raiseFor_calm h.forall_breaks _), Frame.note_run,
    takeOver_last h.calm.returned h.returned]
  rfl

lemma runBody_left (h : runList (run false) steps f.context = (.done (rs ++ [r]), c'))
    (hl : Left rs r) : runBody run steps f = (.done (), ⟨c', leaving f.result rs r⟩) := by
  rw [runBody, Action.bind_of_done (Frame.inContext_run h), adopt_left hl]

lemma Adopted.left_of_returned {before after : StepResult} {o : Outcome Unit}
    (h : Adopted rs before o after) (hb : before.returned = false) (hr : after.returned = true) :
    ∃ pre r, rs = pre ++ [r] ∧ Left pre r := by
  cases h with
  | calm => exact absurd hr (by simp [hb])
  | broken => exact absurd hr (by simp [hb])
  | left hrs hc hbr hx => exact ⟨_, _, hrs, hc, hbr, hx⟩

lemma runBody_returned (ha : run.Yields StepResult.Accounts) {o : Outcome Unit}
    (h : runBody run steps f = (o, f')) (hf : f.result.returned = false)
    (hr : f'.result.returned = true) :
    ∃ rs r, runList (run false) steps f.context = (.done (rs ++ [r]), f'.context) ∧ Left rs r := by
  rcases runBody_cases ha h with ⟨rs, hl, had⟩ | ⟨o', -, hres, -⟩
  · obtain ⟨pre, r, rfl, hL⟩ := had.left_of_returned hf hr
    exact ⟨pre, r, hl, hL⟩
  · rw [hres, hf] at hr
    cases hr

/-! ### Passes -/

namespace Pass

variable {starts : List (Run Unit)} {k k' : Nat} {c₂ : Context}

/-- A pass that leaves a procedure is the last one. -/
lemma departs (h : Pass run steps starts f k c)
    (hl : runList (run false) steps c = (.done (rs ++ [r]), c')) (hL : Left rs r) :
    ∃ f', runPasses (runBody run steps) starts f = (.done (), f') ∧ f'.result.returned = true ∧
      f'.result.output = r.output ∧ r ∈ f'.result.children := by
  induction h with
  | @here start rest f f₁ begins =>
    have hbody := runBody_left hl hL
    refine ⟨⟨c', leaving f₁.result rs r⟩, ?_, rfl, rfl, mem_leaving _ rs r⟩
    rw [runPasses, Action.bind_of_done begins, Action.bind_of_done hbody,
      Action.bind_of_done (hasReturned_run _)]
    rfl
  | later begins body stays next ih =>
    obtain ⟨f', hrun, hrest⟩ := ih hl
    refine ⟨f', ?_, hrest⟩
    rw [runPasses, Action.bind_of_done begins, Action.bind_of_done body,
      Action.bind_of_done (hasReturned_run _), stays]
    exact hrun

/-- No pass is started behind one that leaves a procedure. -/
lemma le_of_left (h : Pass run steps starts f k c)
    (hl : runList (run false) steps c = (.done (rs ++ [r]), c')) (hL : Left rs r)
    (h' : Pass run steps starts f k' c₂) : k' ≤ k ∧ (k' = k → c₂ = c) := by
  induction h generalizing k' with
  | here begins =>
    cases h' with
    | here begins' =>
      rw [begins] at begins'
      cases begins'
      exact ⟨Nat.le_refl _, fun _ => rfl⟩
    | later begins' body stays next =>
      rw [begins] at begins'
      cases begins'
      rw [runBody_left hl hL] at body
      cases body
      cases stays
  | later begins body stays next ih =>
    cases h' with
    | here begins' => exact ⟨Nat.zero_le _, fun h => by cases h⟩
    | later begins' body' stays' next' =>
      rw [begins] at begins'
      cases begins'
      rw [body] at body'
      cases body'
      obtain ⟨hle, heq⟩ := ih hl next'
      exact ⟨Nat.succ_le_succ hle, fun h => heq (Nat.succ.inj h)⟩

end Pass

lemma runPasses_returned (ha : run.Yields StepResult.Accounts) {starts : List (Run Unit)}
    {o : Outcome Unit} (h : runPasses (runBody run steps) starts f = (o, f'))
    (hf : f.result.returned = false) (hr : f'.result.returned = true) :
    ∃ k c rs r c', Pass run steps starts f k c ∧
      runList (run false) steps c = (.done (rs ++ [r]), c') ∧ Left rs r := by
  induction starts generalizing f with
  | nil =>
    obtain ⟨-, rfl⟩ := Prod.mk.inj h
    rw [hf] at hr
    cases hr
  | cons start rest ih =>
    rcases Action.bind_cases h with ⟨_, f₁, h₁, h⟩ | ⟨o', h₁, -⟩
    · have hf₁ : f₁.result.returned = false := by rw [(Frame.inContext_eq h₁).2, hf]
      rcases Action.bind_cases h with ⟨_, f₂, h₂, h⟩ | ⟨o', h₂, -⟩
      · rcases hr₂ : f₂.result.returned with _ | _
        · rw [Action.bind_of_done (hasReturned_run f₂), hr₂] at h
          obtain ⟨k, c, rs, r, c', hp, hrest⟩ := ih h hr₂
          exact ⟨k + 1, c, rs, r, c', .later h₁ h₂ hr₂ hp, hrest⟩
        · obtain ⟨rs, r, hl, hL⟩ := runBody_returned ha h₂ hf₁ hr₂
          exact ⟨0, _, rs, r, _, .here h₁, hl, hL⟩
      · obtain ⟨rs, r, hl, hL⟩ := runBody_returned ha h₂ hf₁ hr
        exact ⟨0, _, rs, r, _, .here h₁, hl, hL⟩
    · rw [(Frame.inContext_eq h₁).2, hf] at hr
      cases hr

/-! ### Work -/

lemma find?_left (h : Left rs r) : (rs ++ [r]).find? (·.isFatal) = none := by
  rw [List.find?_eq_none]
  intro x hx
  have hb := h.forall_breaks x hx
  rw [StepResult.breaks, Bool.or_eq_false_iff] at hb
  simp [hb.1]

namespace Opens

variable {w : Work} {k k' : Nat} {steps' : List Step} {c₂ : Context}

/-- No list is opened behind one that leaves a procedure. -/
lemma le_of_left (h : Opens run f w k steps c)
    (hl : runList (run false) steps c = (.done (rs ++ [r]), c')) (hL : Left rs r)
    (h' : Opens run f w k' steps' c₂) : k' ≤ k ∧ (k' = k → steps' = steps ∧ c₂ = c) := by
  cases h with
  | pass hp =>
    cases h' with
    | pass hp' =>
      obtain ⟨hle, heq⟩ := hp.le_of_left hl hL hp'
      exact ⟨hle, fun h => ⟨rfl, heq h⟩⟩
  | attempt =>
    cases h' with
    | attempt => exact ⟨Nat.le_refl _, fun _ => ⟨rfl, rfl⟩⟩
    | handler attempt fails begins =>
      rw [hl] at attempt
      cases attempt
      rw [find?_left hL] at fails
      cases fails
  | handler attempt fails begins =>
    cases h' with
    | attempt => exact ⟨Nat.zero_le _, fun h => by cases h⟩
    | handler attempt' fails' begins' =>
      rw [attempt] at attempt'
      cases attempt'
      rw [fails] at fails'
      cases fails'
      rw [begins] at begins'
      cases begins'
      exact ⟨Nat.le_refl _, fun _ => ⟨rfl, rfl⟩⟩
  | frame begins =>
    cases h' with
    | frame begins' =>
      rw [begins] at begins'
      cases begins'
      exact ⟨Nat.le_refl _, fun _ => ⟨rfl, rfl⟩⟩

/-- Work without a frame hands on that its step leaves a procedure, and the value. -/
lemma departs (h : Opens run f w k steps c)
    (hl : runList (run false) steps c = (.done (rs ++ [r]), c')) (hL : Left rs r)
    (hw : w.expects = none) :
    ∃ f', carryOut run w f = (.done r.output, f') ∧ f'.result.returned = true ∧
      r ∈ f'.result.children := by
  cases h with
  | pass hp =>
    obtain ⟨f', hrun, hret, hout, hmem⟩ := hp.departs hl hL
    refine ⟨f', ?_, hret, hmem⟩
    rw [carryOut, Action.bind_of_done hrun, bodyOutput_run, hout]
  | attempt steps catcher errorBinding =>
    refine ⟨⟨c', leaving f.result rs r⟩, ?_, rfl, mem_leaving _ rs r⟩
    have hrun : runTrial run steps catcher errorBinding f =
        (.done (), ⟨c', leaving f.result rs r⟩) := by
      rw [runTrial, Action.bind_of_done (Frame.inContext_run hl), find?_left hL]
      exact adopt_left hL _
    rw [carryOut, Action.bind_of_done hrun, bodyOutput_run]
    rfl
  | @handler tries _ errorBinding rs' x c₁ _ attempt fails begins =>
    let before := { f.result with children := f.result.children ++ rs' }
    refine ⟨⟨c', leaving before rs r⟩, ?_, rfl, mem_leaving _ rs r⟩
    have hrun : runTrial run tries steps errorBinding f =
        (.done (), ⟨c', leaving before rs r⟩) := by
      rw [runTrial, Action.bind_of_done (Frame.inContext_run attempt), fails]
      dsimp only
      rw [Action.bind_of_done (Frame.note_run _ _),
        Action.bind_of_done (Frame.inContext_run (f := ⟨c₁, before⟩) begins),
        runBody_left hl hL]
    rw [carryOut, Action.bind_of_done hrun, bodyOutput_run]
    rfl
  | frame begins => cases hw

/-- A frame takes the value, if it is expected, and hands on nothing. -/
lemma frame_departs {args : Run (Dict Value)} {body : List Step} {expectReturn : Bool}
    (h : Opens run f (.frame args body expectReturn) k steps c)
    (hl : runList (run false) steps c = (.done (rs ++ [r]), c')) (hL : Left rs r) :
    ∃ f', carryOut run (.frame args body expectReturn) f =
        (.done (if expectReturn then r.output else .null), f') ∧
      f'.result.returned = f.result.returned ∧ r ∈ f'.result.children := by
  cases h with
  | @frame args steps expectReturn bindings c begins =>
    obtain ⟨bindings', c₀, hargs, hbind⟩ := Action.bind_done begins
    obtain ⟨_, c₁, hbind, heq⟩ := Action.bind_done hbind
    cases heq
    have hvalue : frameOutput expectReturn (rs ++ [r]) =
        if expectReturn then r.output else .null := by
      have hfind : (rs ++ [r]).find? (·.returned) = some r := by
        have hn : rs.find? (·.returned) = none := by
          rw [List.find?_eq_none]
          intro x hx
          simp [hL.calm.returned x hx]
        rw [List.find?_append, hn, Option.none_or, List.find?_singleton, hL.returned]
        rfl
      rw [frameOutput, hfind]
    rcases hrun : runFrame run steps expectReturn bindings { f with context := c₀ } with ⟨o, f'⟩
    have hcarry : carryOut run (.frame args steps expectReturn) f = (o, f') := by
      rw [carryOut, Action.bind_of_done (Frame.inContext_run hargs), hrun]
    cases runFrame_cases hrun with
    | unbound binds hb =>
      rw [hbind] at binds
      cases binds
      cases hb
    | unfinished binds hbody =>
      rw [hbind] at binds
      cases binds
      rw [hl] at hbody
      cases hbody
    | failed binds hbody =>
      rw [hbind] at binds
      cases binds
      rw [hl] at hbody
      cases hbody
    | ended binds hbody raises =>
      rw [hbind] at binds
      cases binds
      rw [hl] at hbody
      cases hbody
      rw [Action.bind_of_done (raiseFor_calm hL.forall_breaks _)] at raises
      cases raises
      rw [← hvalue]
      exact ⟨_, hcarry, rfl, by simp⟩

end Opens

/-- **Where the record of a step comes to leave a procedure**: the step leaves an open frame itself,
or the last step of a list that its work has opened does. -/
theorem carryOut_returned (ha : run.Yields StepResult.Accounts) {w : Work} {o : Outcome Value}
    (h : carryOut run w f = (o, f')) (hf : f.result.returned = false)
    (hr : f'.result.returned = true) :
    (∃ v, w = .leave v ∧ f.context.callDepth ≠ 0) ∨
      w.expects = none ∧ ∃ k steps c rs r c', Opens run f w k steps c ∧
        runList (run false) steps c = (.done (rs ++ [r]), c') ∧ Left rs r := by
  have hsame (hres : f'.result.returned = f.result.returned) : False := by
    rw [hres, hf] at hr
    cases hr
  cases w with
  | passes starts steps =>
    have hpasses {o : Outcome Unit} (h : runPasses (runBody run steps) starts f = (o, f')) :
        ∃ k c rs r c', Pass run steps starts f k c ∧
          runList (run false) steps c = (.done (rs ++ [r]), c') ∧ Left rs r :=
      runPasses_returned ha h hf hr
    obtain ⟨o', h, -⟩ := Action.bind_valued (fun _ f => ⟨_, bodyOutput_run f⟩) h
    obtain ⟨k, c, rs, r, c', hp, hrest⟩ := hpasses h
    exact .inr ⟨rfl, k, steps, c, rs, r, c', .pass hp, hrest⟩
  | trial steps catcher errorBinding =>
    obtain ⟨o', h, -⟩ := Action.bind_valued (fun _ f => ⟨_, bodyOutput_run f⟩) h
    refine .inr ⟨rfl, ?_⟩
    rcases runTrial_cases h with ⟨o'', -, hres, -⟩ | ⟨rs, c, hl, ⟨hn, h⟩ | ⟨x, hx, h⟩⟩
    · exact (hsame (by rw [hres])).elim
    · obtain ⟨hc, had⟩ := adopt_cases (ended_of_runList hl) (forall_runList ha hl) h
      obtain ⟨pre, r, rfl, hL⟩ := had.left_of_returned hf hr
      exact ⟨0, steps, f.context, pre, r, c, .attempt _ _ _, hl, hL⟩
    · rcases Action.bind_cases h with ⟨_, f₁, h₁, h⟩ | ⟨o'', h₁, -⟩
      · obtain ⟨hbegin, hres⟩ := Frame.inContext_eq h₁
        have hf₁ : f₁.result.returned = false := by rw [hres, hf]
        obtain ⟨rs', r, hl', hL⟩ := runBody_returned ha h hf₁ hr
        exact ⟨1, catcher, f₁.context, rs', r, f'.context, .handler hl hx hbegin, hl', hL⟩
      · rw [(Frame.inContext_eq h₁).2, hf] at hr
        cases hr
  | frame args steps expectReturn =>
    rcases Action.bind_cases h with ⟨bindings, f₁, h₁, h⟩ | ⟨o', h₁, -⟩
    · have hres := (Frame.inContext_eq h₁).2
      rw [← hres] at hsame
      refine (hsame ?_).elim
      cases runFrame_cases h with
      | ended binds body raises =>
        rw [frameResult_same raises]
      | _ => rfl
    · exact (hsame (by rw [(Frame.inContext_eq h₁).2])).elim
  | leave v =>
    by_cases hd : f.context.callDepth = 0
    · rw [carryOut_leave_stray hd] at h
      obtain ⟨o', h₁, -⟩ := Action.bind_valued (fun _ _ => ⟨_, rfl⟩) h
      exact (hsame (by rw [(Frame.inContext_eq h₁).2])).elim
    · exact .inl ⟨v, rfl, hd⟩
  | define name procedure =>
    obtain ⟨o', h₁, -⟩ := Action.bind_valued (fun _ _ => ⟨_, rfl⟩) h
    exact (hsame (by rw [(Frame.inContext_eq h₁).2])).elim

end BlockSuite.Machine
