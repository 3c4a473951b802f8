import BlockSuite.Proofs.Machine.Origin

/-!
Where the results in a tree come from. What stands on the record of a step is the result of a step
that was run right inside it: of a nested step that was to give an input, or of a step of a list
that the signal has opened. So the results in the trees of a list of steps are those of the steps
that the list has started, and of the steps run inside them, at any depth.
-/

namespace BlockSuite.Machine

open BlockSuite.Frame (inContext note)
open BlockSuite.Action (Keeps Meets)

variable {m : Machine} {run : Runner} {steps : List Step} {step : Step} {f f' : Frame}
  {c c' : Context} {r : StepResult} {rs : List StepResult}

/-! ### Records -/

/-- A result of a list of steps that comes to its results. -/
def ResultOf (run : Runner) (steps : List Step) (c : Context) (r : StepResult) : Prop :=
  ∃ rs c', runList (run false) steps c = (.done rs, c') ∧ r ∈ rs

lemma Chain.exists_startsAt {run : Step → Run StepResult} (h : Chain run c steps rs c')
    (hc : Calm rs) (rest : List Step) (hr : r ∈ rs) :
    ∃ i x cx cx', StartsAt run (steps ++ rest) c i x cx ∧ run x cx = (.done r, cx') := by
  induction h with
  | nil => cases hr
  | @cons c c₁ _ x y xs ys head tail ih =>
    rcases List.mem_cons.mp hr with rfl | hr
    · exact ⟨0, x, c, c₁, .here x _ c, head⟩
    · obtain ⟨i, z, cz, cz', hz, hran⟩ := ih (fun y hy => hc y (List.mem_cons_of_mem _ hy)) hr
      exact ⟨i + 1, z, cz, cz', .later head (hc _ List.mem_cons_self) hz, hran⟩

/-- The results of a list are those of steps that it has started. -/
lemma ResultOf.exists_startsAt (h : ResultOf run steps c r) :
    ∃ i x cx cx', StartsAt (run false) steps c i x cx ∧ run false x cx = (.done r, cx') := by
  obtain ⟨rs, c', hrun, hr⟩ := h
  rcases runList_cases hrun with ⟨rs', hch, hc, hd⟩ | ⟨ran, x, rest, rs', c₁, rfl, hch, hc, hx⟩
  · cases hd
    simpa using hch.exists_startsAt hc [] hr
  · rcases hx with ⟨y, hy, -, hd⟩ | ⟨_, _, hb⟩
    · cases hd
      rcases List.mem_append.mp hr with hr | hr
      · exact hch.exists_startsAt hc _ hr
      · rw [List.mem_singleton.mp hr]
        exact ⟨_, x, c₁, c', .of_chain hch hc x rest, hy⟩
    · exact hb.not_done.elim

section Records

variable (ha : run.Yields StepResult.Accounts)
include ha

lemma resolveInput_given {b : Block} {name : String} {o : Outcome Value}
    (h : resolveInput run b step name f = (o, f')) (hr : r ∈ f'.result.given) :
    r ∈ f.result.given ∨ ∃ x c', Dict.get? step.params name = some (.nested x) ∧
      run true x f.context = (.done r, c') := by
  cases resolveInput_cases ha h with
  | direct => exact .inl hr
  | given bound ran calm =>
    refine (mem_given_withInput hr).symm.imp_right ?_
    rintro rfl
    exact ⟨_, _, bound, ran⟩
  | broken bound ran breaks failure =>
    refine (mem_given_withInput hr).symm.imp_right ?_
    rintro rfl
    exact ⟨_, _, bound, ran⟩

/-- The inputs on record are the results of the nested steps. -/
lemma resolveAll_given {b : Block} {names : List String} {o : Outcome (Dict Value)}
    (h : resolveAll run b step names f = (o, f')) (hr : r ∈ f'.result.given) :
    r ∈ f.result.given ∨ ∃ x cx c', Asks run b step names f x cx ∧
      run true x cx = (.done r, c') := by
  induction names generalizing f f' o with
  | nil =>
    cases h
    exact .inl hr
  | cons name rest ih =>
    have hfirst {o : Outcome Value} {f₁ : Frame} (h : resolveInput run b step name f = (o, f₁))
        (hr : r ∈ f₁.result.given) : r ∈ f.result.given ∨ ∃ x cx c',
          Asks run b step (name :: rest) f x cx ∧ run true x cx = (.done r, c') := by
      refine (resolveInput_given ha h hr).imp_right ?_
      rintro ⟨x, c', bound, ran⟩
      exact ⟨x, _, c', .here bound, ran⟩
    rcases Action.bind_cases h with ⟨v, f₁, h₁, h⟩ | ⟨o', h₁, -⟩
    · obtain ⟨o', h, -⟩ := Action.bind_valued (fun _ _ => ⟨_, rfl⟩) h
      rcases ih h hr with hr | ⟨x, cx, c', asks, ran⟩
      · exact hfirst h₁ hr
      · exact .inr ⟨x, cx, c', .later h₁ asks, ran⟩
    · exact hfirst h₁ hr

lemma runBody_children {o : Outcome Unit} (h : runBody run steps f = (o, f')) :
    ∃ rest, f'.result.children = f.result.children ++ rest ∧
      ∀ r ∈ rest, ResultOf run steps f.context r := by
  rcases runBody_cases ha h with ⟨rs, hl, had⟩ | ⟨o, -, hr, -⟩
  · exact ⟨rs, had.children, fun r hr => ⟨rs, _, hl, hr⟩⟩
  · exact ⟨[], by rw [hr, List.append_nil], by simp⟩

lemma runPasses_children {starts : List (Run Unit)} {o : Outcome Unit}
    (h : runPasses (runBody run steps) starts f = (o, f')) :
    ∃ rest, f'.result.children = f.result.children ++ rest ∧
      ∀ r ∈ rest, ∃ k c, Pass run steps starts f k c ∧ ResultOf run steps c r := by
  induction starts generalizing f with
  | nil =>
    cases h
    exact ⟨[], by rw [List.append_nil], by simp⟩
  | cons start rest ih =>
    rcases Action.bind_cases h with ⟨_, f₁, h₁, h⟩ | ⟨o', h₁, -⟩
    swap
    · exact ⟨[], by rw [(Frame.inContext_eq h₁).2, List.append_nil], by simp⟩
    have hr₁ := (Frame.inContext_eq h₁).2
    have hbody {o : Outcome Unit} {f₂ : Frame} (h : runBody run steps f₁ = (o, f₂)) :
        ∃ more, f₂.result.children = f.result.children ++ more ∧
          ∀ r ∈ more, ∃ k c, Pass run steps (start :: rest) f k c ∧ ResultOf run steps c r := by
      obtain ⟨more, hmore, hresult⟩ := runBody_children ha h
      exact ⟨more, by rw [hmore, hr₁], fun r hr => ⟨0, _, .here h₁, hresult r hr⟩⟩
    rcases Action.bind_cases h with ⟨_, f₂, h₂, h⟩ | ⟨o', h₂, -⟩
    swap
    · exact hbody h₂
    rw [Action.bind_of_done (hasReturned_run f₂)] at h
    cases hret : f₂.result.returned with
    | true =>
      rw [hret] at h
      cases h
      exact hbody h₂
    | false =>
      rw [hret] at h
      obtain ⟨first, hfirst, hresult⟩ := hbody h₂
      obtain ⟨more, hmore, hlater⟩ := ih h
      refine ⟨first ++ more, by rw [hmore, hfirst, List.append_assoc], fun r hr => ?_⟩
      rcases List.mem_append.mp hr with hr | hr
      · exact hresult r hr
      · obtain ⟨k, c, hp, hr⟩ := hlater r hr
        exact ⟨k + 1, c, .later h₁ h₂ hret hp, hr⟩

/-- A result of a list that some work opens, but for a try slot. -/
def Adds (run : Runner) (f : Frame) (w : Work) (r : StepResult) : Prop :=
  ∃ k steps c, Opens run f w k steps c ∧ w.tries k = false ∧ ResultOf run steps c r

/-- What some work makes of a record: behind the results of a try slot stand those of the other
lists that it opens. -/
def Extends (run : Runner) (f : Frame) (w : Work) (r' : StepResult) : Prop :=
  ∃ rest, r'.children = f.result.children ++ tried run f.context w ++ rest ∧
    ∀ r ∈ rest, Adds run f w r

omit ha in
lemma Extends.plain {w : Work} {r' : StepResult} (hw : tried run f.context w = [])
    (hr : r'.children = f.result.children ++ rs) (hadds : ∀ r ∈ rs, Adds run f w r) :
    Extends run f w r' :=
  ⟨rs, by rw [hr, hw, List.append_nil], hadds⟩

omit ha in
lemma Extends.same {w : Work} {r' : StepResult} (hw : tried run f.context w = [])
    (hr : r' = f.result) : Extends run f w r' :=
  .plain hw (by rw [hr, List.append_nil]) (by simp)

lemma runTrial_extends {tries handler : List Step} {errorBinding : Option String}
    {o : Outcome Unit} (h : runTrial run tries handler errorBinding f = (o, f')) :
    Extends run f (.trial tries handler errorBinding) f'.result := by
  rcases runTrial_cases h with ⟨o, hl, hr, hb⟩ | ⟨rs, c, hl, ⟨hn, h⟩ | ⟨x, hx, h⟩⟩
  · refine .same ?_ hr
    cases hb <;> simp only [tried, triedBy, hl]
  · have ht : tried run f.context (.trial tries handler errorBinding) = rs := by
      simp only [tried, triedBy, hl]
    obtain ⟨-, had⟩ := adopt_cases (ended_of_runList hl) (forall_runList ha hl) h
    exact ⟨[], by rw [had.children, ht, List.append_nil], by simp⟩
  · have ht : tried run f.context (.trial tries handler errorBinding) = rs := by
      simp only [tried, triedBy, hl]
    rcases Action.bind_cases h with ⟨_, f₁, h₁, h⟩ | ⟨o, h₁, -⟩
    · obtain ⟨hbegin, hr₁⟩ := Frame.inContext_eq h₁
      obtain ⟨rest, hrest, hresult⟩ := runBody_children ha h
      refine ⟨rest, by rw [hrest, hr₁, ht], fun r hr => ?_⟩
      exact ⟨1, handler, _, .handler hl hx hbegin, rfl, hresult r hr⟩
    · exact ⟨[], by rw [(Frame.inContext_eq h₁).2, ht, List.append_nil], by simp⟩

omit ha in
lemma runFrame_extends {args : Run (Dict Value)} {bindings : Dict Value} {expectReturn : Bool}
    {f₁ : Frame} {o : Outcome Value} (hargs : inContext args f = (.done bindings, f₁))
    (h : runFrame run steps expectReturn bindings f₁ = (o, f')) :
    Extends run f (.frame args steps expectReturn) f'.result := by
  obtain ⟨hargs, hr⟩ := Frame.inContext_eq hargs
  cases runFrame_cases h with
  | unbound binds hb => exact .same rfl hr
  | unfinished binds body => exact .same rfl hr
  | failed binds body => exact .same rfl hr
  | @ended c c' rs o f' binds body raises =>
    have hopen := bindArguments_done hargs binds
    have hrecord : f'.result.children = f.result.children ++ rs := by
      rw [frameResult_same raises, hr]
    refine .plain rfl hrecord fun r hr => ?_
    exact ⟨0, steps, _, .frame hopen, rfl, rs, c', body, hr⟩

/-- The children that some work adds to a record are the results of the lists it opens. -/
lemma carryOut_extends {w : Work} {o : Outcome Value} (h : carryOut run w f = (o, f')) :
    Extends run f w f'.result := by
  cases w with
  | passes starts steps =>
    obtain ⟨o, h, -⟩ := Action.bind_valued (fun _ f => ⟨_, bodyOutput_run f⟩) h
    obtain ⟨rest, hrest, hresult⟩ := runPasses_children ha h
    refine .plain rfl hrest fun r hr => ?_
    obtain ⟨k, c, hp, hr⟩ := hresult r hr
    exact ⟨k, steps, c, .pass hp, rfl, hr⟩
  | trial tries handler errorBinding =>
    obtain ⟨o, h, -⟩ := Action.bind_valued (fun _ f => ⟨_, bodyOutput_run f⟩) h
    exact runTrial_extends ha h
  | frame args steps expectReturn =>
    rcases Action.bind_cases h with ⟨bindings, f₁, h₁, h⟩ | ⟨o, h₁, -⟩
    · exact runFrame_extends h₁ h
    · exact .same rfl (Frame.inContext_eq h₁).2
  | leave v =>
    by_cases hd : f.context.callDepth = 0
    · rw [carryOut_leave_stray hd] at h
      obtain ⟨o', h₁, -⟩ := Action.bind_valued (fun _ _ => ⟨_, rfl⟩) h
      exact .same rfl (Frame.inContext_eq h₁).2
    · rw [carryOut_leave hd] at h
      cases h
      exact .plain rfl (List.append_nil _).symm (by simp)
  | define name procedure =>
    obtain ⟨o', h₁, -⟩ := Action.bind_valued (fun _ _ => ⟨_, rfl⟩) h
    exact .same rfl (Frame.inContext_eq h₁).2

/-- Up to the answer of its block a step has the results of its nested steps on record. -/
lemma consult_given {nested : Bool} {o : Outcome Answer}
    (h : m.consult run nested step ⟨c, .blank step⟩ = (o, f)) (hr : r ∈ f.result.given) :
    ∃ f₀ block x cx c', m.announce nested step ⟨c, .blank step⟩ = (.done (), f₀) ∧
      m.blocks.lookup step.type = some block ∧
      Asks run block step (inputNames block step) f₀ x cx ∧ run true x cx = (.done r, c') := by
  rcases Action.bind_cases h with ⟨_, f₀, hannounce, h⟩ | ⟨o', hannounce, -⟩
  swap
  · rw [announce_result hannounce] at hr
    cases hr
  have hprepare {o : Outcome (Block × Dict Value)} {f : Frame}
      (h : m.prepare run step f₀ = (o, f)) (hr : r ∈ f.result.given) :
      ∃ block x cx c', m.blocks.lookup step.type = some block ∧
        Asks run block step (inputNames block step) f₀ x cx ∧ run true x cx = (.done r, c') := by
    have hblank : r ∉ f₀.result.given := by
      rw [announce_result hannounce]
      exact List.not_mem_nil
    cases hb : m.blocks.lookup step.type with
    | none =>
      simp only [prepare, hb] at h
      cases h
      exact absurd hr hblank
    | some block =>
      have hresolve {o : Outcome (Dict Value)} {f : Frame}
          (h : resolveAll run block step (inputNames block step) f₀ = (o, f))
          (hr : r ∈ f.result.given) : ∃ x cx c',
            Asks run block step (inputNames block step) f₀ x cx ∧ run true x cx = (.done r, c') :=
        (resolveAll_given ha h hr).resolve_left hblank
      refine ⟨block, ?_⟩
      simp only [true_and, prepare, hb] at h ⊢
      rcases Action.bind_cases h with ⟨params, f₁, h₁, h⟩ | ⟨o', h₁, -⟩
      · cases h
        exact hresolve h₁ hr
      · exact hresolve h₁ hr
  obtain ⟨block, x, cx, c', hknown, hasks, hran⟩ : ∃ block x cx c',
      m.blocks.lookup step.type = some block ∧
        Asks run block step (inputNames block step) f₀ x cx ∧ run true x cx = (.done r, c') := by
    rcases Action.bind_cases h with ⟨p, f₁, h₁, h⟩ | ⟨o', h₁, -⟩
    · obtain ⟨status, soft, error, hmarked⟩ := invoke_marks h
      rw [hmarked] at hr
      exact hprepare h₁ hr
    · exact hprepare h₁ hr
  exact ⟨f₀, block, x, cx, c', hannounce, hknown, hasks, hran⟩

end Records

/-! ### Steps inside steps -/

/-- A step that is run right inside another one: a nested step that is to give an input, or a step
of a list that the signal has opened. -/
inductive Contains (m : Machine) (a b : Start) : Prop
  | input {f : Frame} {block : Block} (layers : a.layers = b.layers + 1)
    (nested : b.nested = true)
    (announced : m.announce a.nested a.step a.fresh = (.done (), f))
    (known : m.blocks.lookup a.step.type = some block)
    (asks : Asks (a.inner m) block a.step (inputNames block a.step) f b.step b.before) :
    Contains m a b
  | body {s : Signal} {f : Frame} {k i : Nat} {steps : List Step} {c : Context}
    (layers : a.layers = b.layers + 1) (nested : b.nested = false)
    (answered : m.consult (a.inner m) a.nested a.step a.fresh = (.done (.signal s), f))
    (opened : Opens (a.inner m) f (s.work a.step) k steps c)
    (started : StartsAt (a.inner m false) steps c i b.step b.before) : Contains m a b

lemma Contains.layers {a b : Start} (h : m.Contains a b) : a.layers = b.layers + 1 := by
  cases h with
  | input layers => exact layers
  | body layers => exact layers

section Inner

-- What holds of a step is said by how many layers run it, whether it is nested, and its context.
variable {a : Start} {P : Nat → Bool → Step → Context → Prop}
  (hbottom : ∀ nested x c, P 0 nested x c)
  (h : ∀ b, m.Contains a b → P a.layers b.nested b.step b.before)
include hbottom h

/-- What holds of all steps inside a step holds of the nested steps that are to give its inputs. -/
lemma Asks.of_contains {block : Block} {x : Step} {cx : Context}
    (announced : m.announce a.nested a.step a.fresh = (.done (), f))
    (known : m.blocks.lookup a.step.type = some block)
    (asks : Asks (a.inner m) block a.step (inputNames block a.step) f x cx) :
    P a.layers true x cx := by
  obtain ⟨n, nested, step, before⟩ := a
  cases n with
  | zero => exact hbottom true x cx
  | succ n => exact h ⟨n, true, x, cx⟩ (.input rfl rfl announced known asks)

/-- What holds of all steps inside a step holds of the steps of the lists that its signal opens. -/
lemma StartsAt.of_contains {s : Signal} {k i : Nat} {steps : List Step} {c cx : Context} {x : Step}
    (answered : m.consult (a.inner m) a.nested a.step a.fresh = (.done (.signal s), f))
    (opened : Opens (a.inner m) f (s.work a.step) k steps c)
    (started : StartsAt (a.inner m false) steps c i x cx) : P a.layers false x cx := by
  obtain ⟨n, nested, step, before⟩ := a
  cases n with
  | zero => exact hbottom false x cx
  | succ n => exact h ⟨n, false, x, cx⟩ (.body rfl rfl answered opened started)

end Inner

lemma Inside.contains {a b : Start} (h : m.Inside a b) : m.Contains a b := by
  cases h with
  | input layers nested announced known asks => exact .input layers nested announced known asks
  | body layers nested answered opened kept started =>
    exact .body layers nested answered opened started

namespace Activation

variable {a : m.Activation}

/-- The result of a nested step is that of an activation inside. -/
lemma inside_of_asks {f : Frame} {block : Block} {x : Step} {cx c' : Context}
    (announced : m.announce a.nested a.step a.fresh = (.done (), f))
    (known : m.blocks.lookup a.step.type = some block)
    (asks : Asks a.inner block a.step (inputNames block a.step) f x cx)
    (ran : a.inner true x cx = (.done r, c')) :
    ∃ b : m.Activation, m.Inside a.start b.start ∧ b.result = r := by
  obtain ⟨b, hlayers, hnested, rfl, rfl, hr⟩ := Activation.of_run ran
  exact ⟨b, .input hlayers hnested announced known asks, hr⟩

/-- The result of a step of a list is that of an activation inside. -/
lemma inside_of_opens {s : Signal} {f : Frame} {k : Nat} {steps : List Step} {c : Context}
    (answers : a.Answers (.signal s) f) (opened : Opens a.inner f (s.work a.step) k steps c)
    (h : ResultOf a.inner steps c r) : ∃ b : m.Activation, m.Contains a.start b.start ∧
      b.result = r ∧ ((s.work a.step).tries k = false → m.Inside a.start b.start) := by
  obtain ⟨i, x, cx, cx', started, ran⟩ := h.exists_startsAt
  obtain ⟨b, hlayers, hnested, rfl, rfl, hr⟩ := Activation.of_run ran
  exact ⟨b, .body hlayers hnested answers opened started, hr,
    fun kept => .body hlayers hnested answers opened kept started⟩

/-- What stands among the inputs of a result is the result of a step inside. -/
lemma inside_of_given (hr : r ∈ a.result.given) :
    ∃ b : m.Activation, m.Inside a.start b.start ∧ b.result = r := by
  obtain ⟨o, f, r₀, v, heval, hc, hresult⟩ := a.concluded
  have hgiven : a.result.given = f.result.given := by
    rw [← hc.given, hresult]
    rfl
  rw [hgiven] at hr
  have hconsult {o : Outcome Answer} {f : Frame}
      (h : m.consult a.inner a.nested a.step a.fresh = (o, f)) (hr : r ∈ f.result.given) :
      ∃ b : m.Activation, m.Inside a.start b.start ∧ b.result = r := by
    obtain ⟨f₀, block, x, cx, c', hannounce, hknown, hasks, hran⟩ :=
      consult_given a.inner_accounts h hr
    exact inside_of_asks hannounce hknown hasks hran
  rcases Action.bind_cases heval with ⟨answer, f₁, h₁, h⟩ | ⟨o', h₁, -⟩
  · cases answer with
    | value w =>
      cases h
      exact hconsult h₁ hr
    | signal s =>
      rw [respond, perform_eq] at h
      have hrecord := consult_consulted a.inner_accounts a.inner_accounts h₁
      have hcont := carryOut_continues a.inner_accounts a.inner_accounts hrecord.returned h
      rw [StepResult.given, hcont.inputs] at hr
      exact hconsult h₁ hr
  · exact hconsult h₁ hr

/-- What stands among the children of a result is the result of a step inside, but for what a try
slot has come to. -/
lemma inside_of_children (a : m.Activation) : ∃ rest, a.result.children = a.tried ++ rest ∧
    ∀ r ∈ rest, ∃ b : m.Activation, m.Inside a.start b.start ∧ b.result = r := by
  obtain ⟨o, f, r₀, v, heval, hc, hresult⟩ := a.concluded
  have hchildren : a.result.children = f.result.children := by rw [← hc.children, hresult]
  rw [hchildren]
  rcases Action.bind_cases heval with ⟨answer, f₁, h₁, h⟩ | ⟨o', h₁, hb⟩
  · have hrecord := consult_consulted a.inner_accounts a.inner_accounts h₁
    cases answer with
    | value w =>
      cases h
      have ht : a.tried = [] := by
        simp only [tried, trials, show m.consult a.inner a.nested a.step ⟨a.before, .blank a.step⟩ =
          _ from h₁]
      exact ⟨[], by rw [hrecord.children, ht, List.nil_append], by simp⟩
    | signal s =>
      rw [respond, perform_eq] at h
      have ht : a.tried = Machine.tried a.inner f₁.context (s.work a.step) := trials_of_signal h₁
      obtain ⟨rest, hrest, hadds⟩ := carryOut_extends a.inner_accounts h
      refine ⟨rest, by rw [hrest, hrecord.children, ht, List.nil_append], fun r hr => ?_⟩
      obtain ⟨k, steps, c, opened, kept, hresult⟩ := hadds r hr
      obtain ⟨b, -, hr, hinside⟩ := inside_of_opens h₁ opened hresult
      exact ⟨b, hinside kept, hr⟩
  · have hrecord := consult_consulted a.inner_accounts a.inner_accounts h₁
    have ht : a.tried = [] := trials_of_broken h₁ hb
    exact ⟨[], by rw [hrecord.children, ht, List.nil_append], by simp⟩

/-- What a try slot has come to are the results of steps inside. -/
lemma contains_of_tried (hr : r ∈ a.tried) :
    ∃ b : m.Activation, m.Contains a.start b.start ∧ b.result = r := by
  unfold tried trials at hr
  split at hr
  · next trySlot catchSlot errorBinding f hconsult =>
    unfold triedBy at hr
    split at hr
    · next rs c' hrun =>
      obtain ⟨b, hcontains, hb, -⟩ := inside_of_opens (a := a) hconsult (.attempt _ _ _)
        ⟨rs, c', hrun, hr⟩
      exact ⟨b, hcontains, hb⟩
    · cases hr
  · cases hr

/-- **Where results come from**: whatever stands on the record of a step is the result of a step
that was run right inside it. -/
lemma exists_contains (hr : r ∈ a.result.given ∨ r ∈ a.result.children) :
    ∃ b : m.Activation, m.Contains a.start b.start ∧ b.result = r := by
  rcases hr with hr | hr
  · obtain ⟨b, hb, hresult⟩ := inside_of_given hr
    exact ⟨b, hb.contains, hresult⟩
  · obtain ⟨rest, hrest, hinside⟩ := a.inside_of_children
    rw [hrest] at hr
    rcases List.mem_append.mp hr with hr | hr
    · exact contains_of_tried hr
    · obtain ⟨b, hb, hresult⟩ := hinside r hr
      exact ⟨b, hb.contains, hresult⟩

/-- The results in the tree of a result are those of steps inside, at any depth. -/
lemma exists_within (a : m.Activation) (hr : r ∈ a.result.walk) :
    ∃ b : m.Activation, Relation.ReflTransGen m.Contains a.start b.start ∧ b.result = r := by
  induction hn : a.layers using Nat.strongRecOn generalizing a with
  | _ n ih =>
    have hinside {y : StepResult} (hy : y ∈ a.result.given ∨ y ∈ a.result.children)
        (hr : r ∈ y.walk) :
        ∃ b : m.Activation, Relation.ReflTransGen m.Contains a.start b.start ∧ b.result = r := by
      obtain ⟨b, hab, rfl⟩ := exists_contains hy
      have hlayers : a.layers = b.layers + 1 := hab.layers
      obtain ⟨z, hz, hresult⟩ := ih b.layers (by omega) b hr rfl
      exact ⟨z, .head hab hz, hresult⟩
    rcases StepResult.mem_walk.mp hr with rfl | ⟨y, hy, hr⟩ | ⟨y, hy, hr⟩
    · exact ⟨a, .refl, rfl⟩
    · exact hinside (.inl hy) hr
    · exact hinside (.inr hy) hr

end Activation

/-- A step that is run for a list of steps: one that the list starts, or one inside that. -/
def RunsFor (m : Machine) (layers : Nat) (steps : List Step) (c : Context) (b : Start) : Prop :=
  ∃ (a : Start) (i : Nat), layers = a.layers + 1 ∧ a.nested = false ∧
    StartsAt (m.runWith layers false) steps c i a.step a.before ∧
    Relation.ReflTransGen m.Contains a b

lemma RunsFor.contains {layers : Nat} {a b : Start} (h : m.RunsFor layers steps c a)
    (hab : Relation.ReflTransGen m.Contains a b) : m.RunsFor layers steps c b := by
  obtain ⟨x, i, hlayers, hnested, started, hxa⟩ := h
  exact ⟨x, i, hlayers, hnested, started, hxa.trans hab⟩

/-- Every answer is that of the block of the step. -/
lemma consult_answers {run : Runner} {nested : Bool} {step : Step} {answer : Answer} {f f' : Frame}
    (h : m.consult run nested step f = (.done answer, f')) :
    ∃ block params c c', m.blocks.lookup step.type = some block ∧
      block.executor params c = (.done answer, c') := by
  obtain ⟨_, f₁, -, h⟩ := Action.bind_done h
  obtain ⟨⟨block, params⟩, f₂, prepared, h⟩ := Action.bind_done h
  change invoke block params f₂ = _ at h
  rw [invoke, Action.bind_of_done (Action.get_run f₂)] at h
  obtain ⟨answer', f₃, ran, h⟩ := Action.bind_done h
  obtain ⟨_, f₄, -, h⟩ := Action.bind_done h
  cases h
  exact ⟨block, params, _, _, prepare_lookup prepared, (Frame.inContext_eq ran).1⟩

lemma Asks.bound {run : Runner} {b : Block} {step x : Step} {names : List String} {f : Frame}
    {c : Context} (h : Asks run b step names f x c) :
    ∃ name, Dict.get? step.params name = some (.nested x) := by
  induction h with
  | here bound => exact ⟨_, bound⟩
  | later _ _ ih => exact ih

/-- A step that has no steps inside it: its inputs are values, and its block gives one. -/
structure Flat (m : Machine) (step : Step) : Prop where
  inputs : ∀ name x, Dict.get? step.params name ≠ some (.nested x)
  answers : ∀ block, m.blocks.lookup step.type = some block →
    ∀ params c s c', block.executor params c ≠ (.done (.signal s), c')

lemma Flat.not_contains {a b : Start} (h : m.Flat a.step) : ¬m.Contains a b := by
  intro hab
  cases hab with
  | @input f block layers nested announced known asks =>
    obtain ⟨name, hname⟩ := asks.bound
    exact h.inputs name _ hname
  | body layers nested answered opened started =>
    obtain ⟨block, params, c, c', known, ran⟩ := consult_answers answered
    exact h.answers block known params c _ c' ran

lemma StartsAt.mem {run : Step → Run StepResult} {i : Nat} {x : Step} {cx : Context}
    (h : StartsAt run steps c i x cx) : x ∈ steps := by
  induction h with
  | here => exact List.mem_cons_self
  | later _ _ _ ih => exact List.mem_cons_of_mem _ ih

/-- What holds of the steps of a list, and passes from a step to its nested steps and to those of
the lists that its signal opens, holds of all steps that are run for the list. -/
lemma RunsFor.forall_step {P : Step → Prop} (hsteps : ∀ x ∈ steps, P x)
    (hinputs : ∀ x y name, P x → Dict.get? x.params name = some (.nested y) → P y)
    (hlists : ∀ (a : Start) s f k xs c, P a.step →
      m.consult (a.inner m) a.nested a.step a.fresh = (.done (.signal s), f) →
      Opens (a.inner m) f (s.work a.step) k xs c → ∀ x ∈ xs, P x)
    {layers : Nat} {a : Start} (h : m.RunsFor layers steps c a) : P a.step := by
  obtain ⟨b, i, -, -, started, hba⟩ := h
  induction hba with
  | refl => exact hsteps _ started.mem
  | tail _ hcontains ih =>
    cases hcontains with
    | input layers nested announced known asks =>
      obtain ⟨name, hname⟩ := asks.bound
      exact hinputs _ _ name ih hname
    | body layers nested answered opened started =>
      exact hlists _ _ _ _ _ _ ih answered opened _ started.mem

/-- Where blocks ask for nothing but one slot to be run, what holds of the steps of a list, of which
none has inputs, and passes from a step to those of this slot, holds of all steps that are run for
the list. -/
lemma RunsFor.forall_grouped {P : Step → Prop} (slot : String)
    (hbranch : ∀ type block, m.blocks.lookup type = some block → ∀ params c s c',
      block.executor params c = (.done (.signal s), c') → s = .branch slot)
    (hsteps : ∀ x ∈ steps, P x) (hparams : ∀ x, P x → x.params = [])
    (hslot : ∀ x, P x → ∀ y ∈ x.slot slot, P y) {layers : Nat} {a : Start}
    (h : m.RunsFor layers steps c a) : P a.step := by
  refine h.forall_step hsteps (fun x y name hx hname => ?_)
    fun a s f k xs c ha answered opened x hx => ?_
  · rw [hparams x hx] at hname
    cases hname
  · obtain ⟨block, params, c₀, c₁, known, ran⟩ := consult_answers answered
    obtain rfl := hbranch _ _ known _ _ _ _ ran
    cases opened with
    | pass => exact hslot a.step ha x hx

/-- Where no step of a list has steps inside it, only those of the list are run for it. -/
lemma RunsFor.mem {layers : Nat} {a : Start} (hflat : ∀ step ∈ steps, m.Flat step)
    (h : m.RunsFor layers steps c a) : a.step ∈ steps := by
  obtain ⟨b, i, -, -, started, hba⟩ := h
  have hb : b.step ∈ steps := started.mem
  rcases Relation.ReflTransGen.cases_head hba with rfl | ⟨y, hy, -⟩
  · exact hb
  · exact absurd hy (hflat b.step hb).not_contains

section Inward

variable {P : Nat → Bool → Step → Context → Prop} {Q : Start → Prop}
  (hinward : ∀ a : Start, Q a → (∀ b, m.Contains a b → P a.layers b.nested b.step b.before) →
    P (a.layers + 1) a.nested a.step a.before)
include hinward

/-- What holds of a step where it holds of the steps right inside it, holds of a step if all steps
inside it are as this takes. -/
lemma Start.of_inside (a : Start) (h : ∀ b, Relation.ReflTransGen m.Contains a b → Q b) :
    P (a.layers + 1) a.nested a.step a.before := by
  induction hn : a.layers using Nat.strongRecOn generalizing a with
  | _ n ih =>
    rw [← hn]
    refine hinward a (h a .refl) fun b hab => ?_
    have hlayers := hab.layers
    rw [hlayers]
    exact ih b.layers (by omega) b (fun y hy => h y (.head hab hy)) rfl

/-- What holds of a step where it holds of the steps right inside it, holds of all steps that a list
starts if all steps that are run for the list are as this takes. -/
lemma StartsAt.of_inside (hbottom : ∀ nested x c, P 0 nested x c) {layers : Nat}
    (h : ∀ a, m.RunsFor layers steps c a → Q a) {i : Nat} {x : Step} {cx : Context}
    (started : StartsAt (m.runWith layers false) steps c i x cx) : P layers false x cx := by
  cases layers with
  | zero => exact hbottom false x cx
  | succ n =>
    exact Start.of_inside hinward ⟨n, false, x, cx⟩ fun b hb => h b ⟨_, i, rfl, rfl, started, hb⟩

end Inward

/-- **The results in the trees of a list are those of steps that are run for it.** -/
theorem exists_runsFor {layers : Nat}
    (h : runList (m.runWith layers false) steps c = (.done rs, c'))
    (hr : r ∈ StepResult.walkAll rs) :
    ∃ a : m.Activation, m.RunsFor layers steps c a.start ∧ a.result = r := by
  obtain ⟨y, hy, hr⟩ := StepResult.mem_walkAll.mp hr
  have htop : ResultOf (m.runWith layers) steps c y := ⟨rs, c', h, hy⟩
  obtain ⟨i, x, cx, cx', started, ran⟩ := htop.exists_startsAt
  obtain ⟨a, hlayers, hnested, rfl, rfl, rfl⟩ := Activation.of_run ran
  obtain ⟨b, hab, hresult⟩ := a.exists_within hr
  exact ⟨b, ⟨a.start, i, hlayers, hnested, started, hab⟩, hresult⟩

/-! ### What steps find when they are started -/

section Keeping

variable {R : Context → Context → Prop} (hR : Harmless (.keeping R))
include hR

section Run

variable (hrun : ∀ nested s, Keeps R (run nested s))
include hrun

lemma StartsAt.keeps {i : Nat} {x : Step} (h : StartsAt (run false) steps c i x c') : R c c' := by
  induction h with
  | here step rest c => exact hR.refl c
  | later head hr next ih => exact hR.trans _ _ _ (hrun _ _ _ _ _ head (by simp)) ih

lemma Asks.keeps {b : Block} {names : List String} {x : Step}
    (h : Asks run b step names f x c) : R f.context c := by
  induction h with
  | @here name rest f x bound => exact hR.refl f.context
  | @later name rest f f' v x c given next ih =>
    have hinput := hR.resolveInput (fun nested s => bears_keeping (hrun nested s)) b step name
    exact hR.trans _ _ _ (hinput.done given).1 ih

lemma Pass.keeps {starts : List (Run Unit)} {k : Nat}
    (hs : ∀ x ∈ starts, Meets (.keeping R) x) (h : Pass run steps starts f k c) :
    R f.context c := by
  induction h with
  | here begins => exact ((hs _ List.mem_cons_self).done (Frame.inContext_eq begins).1).1
  | later begins body stays next ih =>
    have hbegin := ((hs _ List.mem_cons_self).done (Frame.inContext_eq begins).1).1
    have hbody := hR.runBody (fun nested s => bears_keeping (hrun nested s)) steps
    have hnext := ih fun x hx => hs x (List.mem_cons_of_mem _ hx)
    exact hR.trans _ _ _ (hR.trans _ _ _ hbegin (hbody.done body).1) hnext

lemma Opens.keeps (hopen : ∀ c, R c (openFrame c)) {s : Signal} {k : Nat}
    (h : Opens run f (s.work step) k steps c) : R f.context c := by
  generalize hw : s.work step = w at h
  cases h with
  | pass hp => exact hp.keeps hR hrun (hR.work_starts hw)
  | attempt => exact hR.refl f.context
  | handler attempt fails begins =>
    have hbody := ((hR.chain (fun s => (hrun false s).meets) _).done attempt).1
    exact hR.trans _ _ _ hbody ((hR.bindCaught _ _).done begins).1
  | frame begins =>
    have hargs : Meets (.keeping R) (bindArguments _) :=
      hR.bind (hR.work_args hw) fun bindings _ =>
        hR.bind (hR.bindEach bindings) fun _ _ => hR.pure _
    exact hR.trans _ _ _ (hargs.done begins).1 (hopen _)

end Run

variable (hm : m.Respects R) (hopen : ∀ c, R c (openFrame c))
include hm hopen

lemma Contains.keeps {a b : Start} (h : m.Contains a b) : R a.before b.before := by
  have hrun (nested : Bool) (s : Step) : Keeps R (a.inner m nested s) :=
    runWith_keeps hR hm a.layers nested s
  cases h with
  | input layers nested announced known asks =>
    have hannounce := ((announce_keeps hR hm.beforeStep a.nested a.step).done announced).1
    exact hR.trans _ _ _ hannounce (asks.keeps hR hrun)
  | body layers nested answered opened started =>
    have hconsult := ((consult_keeps hR hm hrun a.nested a.step).done answered).1
    exact hR.trans _ _ _ hconsult
      (hR.trans _ _ _ (opened.keeps hR hrun hopen) (started.keeps hR hrun))

/-- **What the machine and all that is attached to it keep, is kept from the start of a list to that
of every step that is run for it.** -/
theorem RunsFor.keeps {layers : Nat} {b : Start} (h : m.RunsFor layers steps c b) :
    R c b.before := by
  obtain ⟨a, i, rfl, -, started, hab⟩ := h
  refine hR.trans _ _ _ (started.keeps hR fun n s => runWith_keeps hR hm _ n s) ?_
  induction hab with
  | refl => exact hR.refl _
  | tail _ hbc ih => exact hR.trans _ _ _ ih (hbc.keeps hR hm hopen)

end Keeping

end BlockSuite.Machine
