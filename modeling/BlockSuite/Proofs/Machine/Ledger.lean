import BlockSuite.Proofs.Machine.Contained
import BlockSuite.Proofs.Machine.Logged

/-!
What steps enter into a ledger. Something that is counted along a run, such as the failures that are
collected or the calls of a hook, may be told by the results of the steps: between two contexts it
has come to what some results stand for. If every step that is run inside a step enters into the
ledger what its result stands for, so do the inputs of the step and the lists that its signal opens,
and what is left is the part of the step itself: its announcement and the answer of its block.
-/

namespace BlockSuite.Machine

open BlockSuite.Frame (inContext note)
open BlockSuite.Action (Keeps Meets)
open BlockSuite.Context (SameMarks)

/-- What is told of two contexts by the results of steps, nested ones or steps of a list, that were
run in between. -/
abbrev Entry := Bool → Context → Context → List StepResult → Prop

/-- Two contexts between which nothing is noted. -/
def Unnoted {ε : Type} (seen : Context → List ε) (c c' : Context) : Prop := seen c' = seen c

/-- The notes in a journal, the first one first. -/
def notes (c : Context) : List String := c.shared.journal.notes.reverse

lemma notes_harmless : Harmless (.keeping (Unnoted notes)) where
  refl _ := rfl
  trans _ _ _ h h' := Eq.trans h' h
  records _ _ := rfl
  fault _ := trivial
  bindings _ _ := rfl
  currentStep _ _ := rfl
  procedures _ _ := rfl
  frame _ _ h := h
  error _ _ _ := trivial

/-- A ledger: nothing is entered between contexts that are related, and this is so of all that a
machine does itself; what one run enters after another is told by the results of both. -/
structure Ledger (R : Context → Context → Prop) (T : Entry) : Prop where
  harmless : Harmless (.keeping R)
  depth : ∀ c n, R c { c with callDepth := n }
  nothing : ∀ nested c c', R c c' → T nested c c' []
  append : ∀ nested c c' c'' rs rs', T nested c c' rs → T nested c' c'' rs' →
    T nested c c'' (rs ++ rs')

/-- A run that ends comes to a result, and has entered what that stands for. -/
def Books (T : Entry) (nested : Bool) (x : Run StepResult) (c : Context) : Prop :=
  ∀ o c', x c = (o, c') → o ≠ .exhausted → ∃ r, o = .done r ∧ T nested c c' [r]

lemma books_exhaust (T : Entry) (nested : Bool) (c : Context) :
    Books T nested Action.exhaust c := by
  intro o c' h hne
  cases h
  exact absurd rfl hne

/-- All steps that a list starts enter what their results stand for. -/
def AllBook (T : Entry) (run : Runner) (steps : List Step) (c : Context) : Prop :=
  ∀ i x cx, StartsAt (run false) steps c i x cx → Books T false (run false x) cx

variable {m : Machine} {run : Runner} {step : Step} {steps : List Step} {f f' : Frame}
  {c c' c'' : Context} {r : StepResult} {rs : List StepResult} {R : Context → Context → Prop}
  {T : Entry} {nested : Bool}

namespace Ledger

variable (hT : Ledger R T)
include hT

lemma refl (nested : Bool) (c : Context) : T nested c c [] :=
  hT.nothing nested c c (hT.harmless.refl c)

lemma before (h : R c c') (h' : T nested c' c'' rs) : T nested c c'' rs :=
  hT.append nested c c' c'' [] rs (hT.nothing nested c c' h) h'

lemma behind (h : T nested c c' rs) (h' : R c' c'') : T nested c c'' rs := by
  rw [← List.append_nil rs]
  exact hT.append nested c c' c'' rs [] h (hT.nothing nested c' c'' h')

/-! ### Lists and inputs -/

lemma runList (h : AllBook T run steps c) {o : Outcome (List StepResult)}
    (hrun : Machine.runList (run false) steps c = (o, c')) (ho : o ≠ .exhausted) :
    ∃ rs, o = .done rs ∧ T false c c' rs := by
  induction steps generalizing c o with
  | nil =>
    cases hrun
    exact ⟨[], rfl, hT.refl false c'⟩
  | cons step rest ih =>
    have hfirst := h 0 step c (.here step rest c)
    rw [runList_cons] at hrun
    rcases Action.bind_cases hrun with ⟨r, c₁, h₁, hrun⟩ | ⟨o', h₁, hb⟩
    swap
    · obtain ⟨r, rfl, -⟩ := hfirst _ _ h₁ (hb.ne_exhausted ho)
      cases hb
    obtain ⟨_, hd, hr⟩ := hfirst _ _ h₁ (by simp)
    cases hd
    split at hrun
    · cases hrun
      exact ⟨[r], rfl, hr⟩
    · next hstops =>
      have hrest : AllBook T run rest c₁ := fun i x cx hx =>
        h (i + 1) x cx (.later h₁ (by simpa using hstops) hx)
      rcases Action.bind_cases hrun with ⟨rs, c₂, h₂, hrun⟩ | ⟨o', h₂, hb⟩
      · cases hrun
        obtain ⟨_, hd, hrs⟩ := ih hrest h₂ (by simp)
        cases hd
        exact ⟨r :: rs, rfl, hT.append false c c₁ c' [r] rs hr hrs⟩
      · obtain ⟨rs, rfl, -⟩ := ih hrest h₂ (hb.ne_exhausted ho)
        cases hb

/-- The nested steps put on record what they stand for. -/
lemma resolveInput {b : Block} {name : String} {o : Outcome Value}
    (hx : ∀ x, Dict.get? step.params name = some (.nested x) →
      Books T true (run true x) f.context)
    (hfresh : Dict.has f.result.inputs name = false)
    (h : Machine.resolveInput run b step name f = (o, f')) (ho : o ≠ .exhausted) :
    (∃ rs, f'.result.given = f.result.given ++ rs ∧ T true f.context f'.context rs) ∧
      ∀ n, name ≠ n → Dict.has f'.result.inputs n = Dict.has f.result.inputs n := by
  by_cases hget : ∃ x, Dict.get? step.params name = some (.nested x)
  · obtain ⟨x, hget⟩ := hget
    simp only [Machine.resolveInput, hget] at h
    rcases Action.bind_cases h with ⟨r, f₁, h₁, h⟩ | ⟨o', h₁, hb⟩
    · obtain ⟨hrun, hr⟩ := Frame.inContext_eq h₁
      obtain ⟨_, hd, hbooked⟩ := hx x hget _ _ hrun (by simp)
      cases hd
      have hf' : f' = { f₁ with result := withInput f.result name r } := by
        rw [Action.bind_of_done (Frame.note_run _ f₁), hr] at h
        split at h <;> cases h <;> rfl
      subst hf'
      refine ⟨⟨[r], given_withInput hfresh, hbooked⟩, fun n hn => ?_⟩
      exact Dict.has_set_of_ne hn _
    · obtain ⟨hrun, -⟩ := Frame.inContext_eq h₁
      obtain ⟨r, rfl, -⟩ := hx x hget _ _ hrun (hb.ne_exhausted ho)
      cases hb
  · have hsame : (Machine.resolveInput run b step name f).2 = f :=
      resolveInput_same (fun x hx => hget ⟨x, hx⟩) f
    rw [h] at hsame
    dsimp only at hsame
    subst hsame
    exact ⟨⟨[], (List.append_nil _).symm, hT.refl true _⟩, fun _ _ => rfl⟩

lemma resolveAll {b : Block} {names : List String} {o : Outcome (Dict Value)}
    (hx : ∀ x cx, Asks run b step names f x cx → Books T true (run true x) cx)
    (hnd : names.Nodup) (hfresh : ∀ n ∈ names, Dict.has f.result.inputs n = false)
    (h : Machine.resolveAll run b step names f = (o, f')) (ho : o ≠ .exhausted) :
    ∃ rs, f'.result.given = f.result.given ++ rs ∧ T true f.context f'.context rs := by
  induction names generalizing f f' o with
  | nil =>
    cases h
    exact ⟨[], (List.append_nil _).symm, hT.refl true _⟩
  | cons name rest ih =>
    obtain ⟨hname, hnd⟩ := List.nodup_cons.mp hnd
    have hinput {o : Outcome Value} {f₁ : Frame}
        (h : Machine.resolveInput run b step name f = (o, f₁)) (ho : o ≠ .exhausted) :=
      hT.resolveInput (fun x hget => hx x _ (.here hget)) (hfresh name List.mem_cons_self) h ho
    rcases Action.bind_cases h with ⟨v, f₁, h₁, h⟩ | ⟨o', h₁, hb⟩
    · obtain ⟨⟨rs, hrs, hbooked⟩, hhas⟩ := hinput h₁ (by simp)
      have hrest {o : Outcome (Dict Value)} {f₂ : Frame}
          (h : Machine.resolveAll run b step rest f₁ = (o, f₂)) (ho : o ≠ .exhausted) :
          ∃ rs, f₂.result.given = f.result.given ++ rs ∧ T true f.context f₂.context rs := by
        -- Names are distinct, so that no result on record is replaced by a later one.
        have hfresh' (n : String) (hn : n ∈ rest) : Dict.has f₁.result.inputs n = false := by
          rw [hhas n fun heq => hname (heq ▸ hn)]
          exact hfresh n (List.mem_cons_of_mem _ hn)
        obtain ⟨rs', hrs', hbooked'⟩ :=
          ih (fun x cx hax => hx x cx (.later h₁ hax)) hnd hfresh' h ho
        exact ⟨rs ++ rs', by rw [hrs', hrs, List.append_assoc],
          hT.append true _ _ _ _ _ hbooked hbooked'⟩
      rcases Action.bind_cases h with ⟨vs, f₂, h₂, h⟩ | ⟨o', h₂, hb⟩
      · cases h
        exact hrest h₂ (by simp)
      · exact hrest h₂ (hb.ne_exhausted ho)
    · exact (hinput h₁ (hb.ne_exhausted ho)).1

end Ledger

/-! ### Work -/

/-- The children that are put on record stand for what has been entered. -/
def Grows (T : Entry) (f f' : Frame) : Prop :=
  ∃ rs, f'.result.children = f.result.children ++ rs ∧ T false f.context f'.context rs

namespace Ledger

variable (hT : Ledger R T)
include hT

lemma grows_same (hr : f'.result = f.result) (h : R f.context f'.context) : Grows T f f' :=
  ⟨[], by rw [hr, List.append_nil], hT.nothing _ _ _ h⟩

lemma grows_trans {f'' : Frame} (h : Grows T f f') (h' : Grows T f' f'') : Grows T f f'' := by
  obtain ⟨rs, hrs, hbooked⟩ := h
  obtain ⟨rs', hrs', hbooked'⟩ := h'
  exact ⟨rs ++ rs', by rw [hrs', hrs, List.append_assoc],
    hT.append false _ _ _ _ _ hbooked hbooked'⟩

/-- What enters nothing, and does not touch the record. -/
lemma grows_inContext {α : Type} {x : Run α} {o : Outcome α} (hx : Meets (.keeping R) x)
    (h : inContext x f = (o, f')) (ho : o ≠ .exhausted) : Grows T f f' := by
  obtain ⟨hrun, hr⟩ := Frame.inContext_eq h
  exact hT.grows_same hr (hx.keeps _ _ _ hrun ho)

lemma runFrame {expectReturn : Bool} {bindings : Dict Value} {o : Outcome Value}
    (hs : ∀ c, bindEach bindings f.context = (.done (), c) → AllBook T run steps (openFrame c))
    (h : Machine.runFrame run steps expectReturn bindings f = (o, f')) (ho : o ≠ .exhausted) :
    Grows T f f' := by
  have hbind := hT.harmless.bindEach bindings
  have hclose (before : Dict Value) (names : List String) (c : Context) :
      R c (closeFrame before names c) := by
    have hdepth : R c { c with callDepth := c.callDepth - 1 } := hT.depth c _
    exact hT.harmless.trans _ _ _ hdepth
      (hT.harmless.bindings _ (restored before names c.bindings))
  cases runFrame_cases h with
  | unbound binds hb => exact hT.grows_same rfl (hbind.keeps _ _ _ binds (hb.ne_exhausted ho))
  | unfinished binds body => exact absurd rfl ho
  | failed binds body =>
    obtain ⟨rs, hd, -⟩ := hT.runList (hs _ binds) body (by simp)
    cases hd
  | ended binds body raises =>
    cases frameResult_same raises
    obtain ⟨_, hd, hbooked⟩ := hT.runList (hs _ binds) body (by simp)
    cases hd
    have hopen : R f.context (openFrame _) :=
      hT.harmless.trans _ _ _ (hbind.done binds).1 (hT.depth _ _)
    exact ⟨_, rfl, hT.behind (hT.before hopen hbooked) (hclose _ _ _)⟩

variable (ha : run.Yields StepResult.Accounts)
include ha

lemma runBody {o : Outcome Unit} (hs : AllBook T run steps f.context)
    (h : Machine.runBody run steps f = (o, f')) (ho : o ≠ .exhausted) : Grows T f f' := by
  rcases runBody_cases ha h with ⟨rs, hl, had⟩ | ⟨o', hl, -, hb⟩
  · obtain ⟨_, hd, hbooked⟩ := hT.runList hs hl (by simp)
    cases hd
    exact ⟨rs, had.children, hbooked⟩
  · obtain ⟨rs, rfl, -⟩ := hT.runList hs hl (hb.ne_exhausted ho)
    cases hb

lemma runPasses {starts : List (Run Unit)} {o : Outcome Unit}
    (hstarts : ∀ x ∈ starts, Meets (.keeping R) x)
    (hs : ∀ k c, Pass run steps starts f k c → AllBook T run steps c)
    (h : Machine.runPasses (Machine.runBody run steps) starts f = (o, f')) (ho : o ≠ .exhausted) :
    Grows T f f' := by
  induction starts generalizing f with
  | nil =>
    cases h
    exact hT.grows_same rfl (hT.harmless.refl _)
  | cons start rest ih =>
    have hstart := hstarts start List.mem_cons_self
    rcases Action.bind_cases h with ⟨_, f₁, h₁, h⟩ | ⟨o', h₁, hb⟩
    swap
    · exact hT.grows_inContext hstart h₁ (hb.ne_exhausted ho)
    refine hT.grows_trans (hT.grows_inContext hstart h₁ (by simp)) ?_
    have hbody := hs 0 _ (.here h₁)
    rcases Action.bind_cases h with ⟨_, f₂, h₂, h⟩ | ⟨o', h₂, hb⟩
    swap
    · exact hT.runBody ha hbody h₂ (hb.ne_exhausted ho)
    refine hT.grows_trans (hT.runBody ha hbody h₂ (by simp)) ?_
    rw [Action.bind_of_done (hasReturned_run f₂)] at h
    cases hret : f₂.result.returned with
    | true =>
      rw [hret] at h
      cases h
      exact hT.grows_same rfl (hT.harmless.refl _)
    | false =>
      rw [hret] at h
      refine ih (fun x hx => hstarts x (List.mem_cons_of_mem _ hx)) (fun k c hp => ?_) h
      exact hs (k + 1) c (.later h₁ h₂ hret hp)

lemma runTrial {tries handler : List Step} {errorBinding : Option String} {o : Outcome Unit}
    (hs : ∀ k xs c, Opens run f (.trial tries handler errorBinding) k xs c → AllBook T run xs c)
    (h : Machine.runTrial run tries handler errorBinding f = (o, f')) (ho : o ≠ .exhausted) :
    Grows T f f' := by
  have htries := hs 0 _ _ (.attempt tries handler errorBinding)
  rcases runTrial_cases h with ⟨o', hl, -, hb⟩ | ⟨rs, c, hl, h⟩
  · obtain ⟨rs, rfl, -⟩ := hT.runList htries hl (hb.ne_exhausted ho)
    cases hb
  obtain ⟨_, hd, hbooked⟩ := hT.runList htries hl (by simp)
  cases hd
  rcases h with ⟨-, h⟩ | ⟨r, hr, h⟩
  · obtain ⟨hc, had⟩ := adopt_cases (ended_of_runList hl) (forall_runList ha hl) h
    refine ⟨rs, had.children, ?_⟩
    rw [hc]
    exact hbooked
  · have hfirst : Grows T f ⟨c, { f.result with children := f.result.children ++ rs }⟩ :=
      ⟨rs, rfl, hbooked⟩
    have hbind := hT.harmless.bindCaught errorBinding r
    rcases Action.bind_cases h with ⟨_, f₁, h₁, h⟩ | ⟨o', h₁, hb⟩
    · have hhandler := hs 1 _ _ (.handler hl hr (Frame.inContext_eq h₁).1)
      exact hT.grows_trans (hT.grows_trans hfirst (hT.grows_inContext hbind h₁ (by simp)))
        (hT.runBody ha hhandler h ho)
    · exact hT.grows_trans hfirst (hT.grows_inContext hbind h₁ (hb.ne_exhausted ho))

/-- **The lists that some work opens put on record what they stand for.** -/
lemma carryOut {s : Signal} {o : Outcome Value}
    (hs : ∀ k xs c, Opens run f (s.work step) k xs c → AllBook T run xs c)
    (h : Machine.carryOut run (s.work step) f = (o, f')) (ho : o ≠ .exhausted) :
    Grows T f f' := by
  generalize hw : s.work step = w at hs h
  cases w with
  | passes starts steps =>
    obtain ⟨o', h, hv⟩ := Action.bind_valued (fun _ f => ⟨_, bodyOutput_run f⟩) h
    exact hT.runPasses ha (hT.harmless.work_starts hw) (fun k c hp => hs k steps c (.pass hp)) h
      (hv.ne_exhausted ho)
  | trial tries handler errorBinding =>
    obtain ⟨o', h, hv⟩ := Action.bind_valued (fun _ f => ⟨_, bodyOutput_run f⟩) h
    exact hT.runTrial ha hs h (hv.ne_exhausted ho)
  | frame args steps expectReturn =>
    have hargs := hT.harmless.work_args hw
    rcases Action.bind_cases h with ⟨bindings, f₁, h₁, h⟩ | ⟨o', h₁, hb⟩
    · refine hT.grows_trans (hT.grows_inContext hargs h₁ (by simp))
        (hT.runFrame (fun c hc => ?_) h ho)
      exact hs 0 steps _ (.frame (bindArguments_done (Frame.inContext_eq h₁).1 hc))
    · exact hT.grows_inContext hargs h₁ (hb.ne_exhausted ho)
  | leave v =>
    by_cases hd : f.context.callDepth = 0
    · rw [carryOut_leave_stray hd] at h
      obtain ⟨o', h, hv⟩ := Action.bind_valued (fun _ _ => ⟨_, rfl⟩) h
      exact hT.grows_inContext (hT.harmless.log _ _ _ _) h (hv.ne_exhausted ho)
    · rw [carryOut_leave hd] at h
      cases h
      exact ⟨[], (List.append_nil _).symm, hT.refl false _⟩
  | define name procedure =>
    obtain ⟨o', h, hv⟩ := Action.bind_valued (fun _ _ => ⟨_, rfl⟩) h
    exact hT.grows_inContext (hT.harmless.defineLogged _ _) h (hv.ne_exhausted ho)

end Ledger

/-! ### The course of a step -/

/-- How a step goes on behind its block: it ends with the block, has the value that the block has
given, or does the work that it has asked for. -/
inductive Responds (run : Runner) (step : Step) (f : Frame) :
    Outcome Answer → Outcome Value → Frame → Prop
  | broken {o : Outcome Answer} {o' : Outcome Value} (h : Action.Broken o o') :
    Responds run step f o o' f
  | value (v : Value) : Responds run step f (.done (.value v)) (.done v) f
  | work {s : Signal} {o : Outcome Value} {f' : Frame}
    (worked : carryOut run (s.work step) f = (o, f')) (soft : f'.result.soft = f.result.soft) :
    Responds run step f (.done (.signal s)) o f'

/-- A record that differs from that of a step that starts in nothing but its inputs. -/
def Gathers (step : Step) (r : StepResult) : Prop :=
  ∃ xs, r = { StepResult.blank step with inputs := xs }

lemma gathers_blank (step : Step) : Gathers step (.blank step) :=
  (Resolves.of_eq (P := fun _ => True) rfl (.done ())).record

/-- How the evaluation of a step goes: it is not announced; its inputs do not all come to their
values; or its block is asked. Its inputs and its children enter what they stand for. -/
inductive Course (m : Machine) (T : Entry) (a : Start) : Outcome Value → Frame → Prop
  | unannounced {e : Failure} {f : Frame}
    (announced : m.announce a.nested a.step a.fresh = (.failed e, f)) :
    Course m T a (.failed e) f
  | unprepared {e : Failure} {f₀ f : Frame}
    (announced : m.announce a.nested a.step a.fresh = (.done (), f₀))
    (inputs : T true f₀.context f.context f.result.given) (record : Gathers a.step f.result) :
    Course m T a (.failed e) f
  | invoked {f₀ f₁ f₂ f : Frame} {block : Block} {params : Dict Value} {o₁ : Outcome Answer}
    {o : Outcome Value}
    (announced : m.announce a.nested a.step a.fresh = (.done (), f₀))
    (prepared : m.prepare (a.inner m) a.step f₀ = (.done (block, params), f₁))
    (inputs : T true f₀.context f₁.context f.result.given) (record : Gathers a.step f₁.result)
    (ran : invoke block params f₁ = (o₁, f₂)) (ended : o₁ ≠ .exhausted)
    (responds : Responds (a.inner m) a.step f₂ o₁ o f)
    (children : T false f₂.context f.context f.result.children) : Course m T a o f

/-- The steps inside a step enter what their results stand for. -/
def InnerBook (m : Machine) (T : Entry) (a : Start) : Prop :=
  ∀ b, m.Contains a b → Books T b.nested (m.runWith a.layers b.nested b.step) b.before

section Inner

variable {a : Start} (hx : m.InnerBook T a)
include hx

lemma InnerBook.asks {block : Block} {x : Step} {cx : Context}
    (announced : m.announce a.nested a.step a.fresh = (.done (), f))
    (known : m.blocks.lookup a.step.type = some block)
    (asks : Asks (a.inner m) block a.step (inputNames block a.step) f x cx) :
    Books T true (a.inner m true x) cx :=
  asks.of_contains (P := fun n nested x c => Books T nested (m.runWith n nested x) c)
    (fun nested _ c => books_exhaust T nested c) hx announced known

lemma InnerBook.opens {s : Signal} {k : Nat}
    (answered : m.consult (a.inner m) a.nested a.step a.fresh = (.done (.signal s), f))
    (opened : Opens (a.inner m) f (s.work a.step) k steps c) :
    AllBook T (a.inner m) steps c := fun _ _ _ started =>
  started.of_contains (P := fun n nested x c => Books T nested (m.runWith n nested x) c)
    (fun nested _ c => books_exhaust T nested c) hx answered opened

variable (hT : Ledger R T) (hdistinct : (Dict.keys a.step.params).Nodup)
include hT hdistinct

/-- Inputs are the only results on record until the block is asked. -/
lemma InnerBook.prepare {f₀ : Frame} (h₀ : m.announce a.nested a.step a.fresh = (.done (), f₀))
    {o : Outcome (Block × Dict Value)} (h : m.prepare (a.inner m) a.step f₀ = (o, f))
    (hne : o ≠ .exhausted) :
    T true f₀.context f.context f.result.given ∧ Gathers a.step f.result := by
  have ha : (a.inner m).Yields StepResult.Accounts := m.runWith_accounts a.layers
  have hr₀ : f₀.result = .blank a.step := announce_result h₀
  cases hb : m.blocks.lookup a.step.type with
  | none =>
    simp only [Machine.prepare, hb] at h
    cases h
    rw [hr₀]
    exact ⟨hT.refl true _, gathers_blank a.step⟩
  | some block =>
    have hresolve {o : Outcome (Dict Value)} {f₁ : Frame}
        (h : resolveAll (a.inner m) block a.step (inputNames block a.step) f₀ = (o, f₁))
        (hne : o ≠ .exhausted) : T true f₀.context f₁.context f₁.result.given ∧
          Gathers a.step f₁.result := by
      obtain ⟨rs, hrs, hbooked⟩ := hT.resolveAll (fun x cx asks => hx.asks h₀ hb asks)
        (nodup_inputNames block hdistinct) (fun n _ => by rw [hr₀]; rfl) h hne
      obtain ⟨inputs, hinputs⟩ := (resolveAll_resolves ha ha h).record
      refine ⟨?_, inputs, by rw [hinputs, hr₀]⟩
      rw [hrs, hr₀]
      exact hbooked
    simp only [Machine.prepare, hb] at h
    rcases Action.bind_cases h with ⟨params, f₂, h₂, h⟩ | ⟨o', h₂, hb⟩
    · cases h
      obtain ⟨hbooked, hrecord⟩ := hresolve h₂ (by simp)
      exact ⟨hT.behind hbooked (hT.harmless.currentStep _ _), hrecord⟩
    · exact hresolve h₂ (hb.ne_exhausted hne)

/-- The block of a step answers: what is left is what it asks for. -/
lemma InnerBook.course_answered {answer : Answer} {f₂ : Frame} {o : Outcome Value}
    (hconsult : m.consult (a.inner m) a.nested a.step a.fresh = (.done answer, f₂))
    (h : respond (a.inner m) a.step answer f₂ = (o, f)) (hne : o ≠ .exhausted) :
    Course m T a o f := by
  have ha : (a.inner m).Yields StepResult.Accounts := m.runWith_accounts a.layers
  obtain ⟨_, f₀, h₀, hrest⟩ := Action.bind_done hconsult
  obtain ⟨⟨block, params⟩, f₁, h₁, hinvoke⟩ := Action.bind_done hrest
  obtain ⟨hinputs, hrecord⟩ := hx.prepare hT hdistinct h₀ h₁ (by simp)
  obtain ⟨status, soft, error, hmarks⟩ := invoke_marks hinvoke
  have hconsulted := consult_consulted ha ha hconsult
  have hgiven : f₂.result.given = f₁.result.given := by rw [hmarks]; rfl
  cases answer with
  | value v =>
    cases h
    refine .invoked h₀ h₁ (by rwa [hgiven]) hrecord hinvoke (by simp) (.value v) ?_
    rw [hconsulted.children]
    exact hT.refl false _
  | signal s =>
    rw [respond, perform_eq] at h
    have hcont := carryOut_continues ha ha hconsulted.returned h
    obtain ⟨rs, hrs, hbooked⟩ := hT.carryOut ha (fun _ _ _ => hx.opens hconsult) h hne
    have hsame : f.result.given = f₁.result.given := by
      rw [← hgiven, StepResult.given, hcont.inputs, StepResult.given]
    refine .invoked h₀ h₁ (by rwa [hsame]) hrecord hinvoke (by simp) (.work h hcont.soft) ?_
    rwa [hrs, hconsulted.children, List.nil_append]

/-- The block of a step does not answer: it is not asked, or it fails. -/
lemma InnerBook.course_failed {e : Failure}
    (hconsult : m.consult (a.inner m) a.nested a.step a.fresh = (.failed e, f)) :
    Course m T a (.failed e) f := by
  have ha : (a.inner m).Yields StepResult.Accounts := m.runWith_accounts a.layers
  rcases Action.bind_cases hconsult with ⟨_, f₀, h₀, hrest⟩ | ⟨o₀, h₀, hb₀⟩
  swap
  · obtain rfl := hb₀.of_failed
    exact .unannounced h₀
  rcases Action.bind_cases hrest with ⟨⟨block, params⟩, f₁, h₁, hinvoke⟩ | ⟨o₀, h₁, hb₁⟩
  · obtain ⟨hinputs, hrecord⟩ := hx.prepare hT hdistinct h₀ h₁ (by simp)
    obtain ⟨-, hsame⟩ := invoke_failed hinvoke
    refine .invoked h₀ h₁ (by rwa [hsame]) hrecord hinvoke (by simp) (.broken (.failed e)) ?_
    rw [(consult_consulted ha ha hconsult).children]
    exact hT.refl false _
  · obtain rfl := hb₁.of_failed
    obtain ⟨hinputs, hrecord⟩ := hx.prepare hT hdistinct h₀ h₁ (by simp)
    exact .unprepared h₀ hinputs hrecord

/-- **The evaluation of a step takes one of these courses.** -/
lemma InnerBook.course {o : Outcome Value}
    (h : m.evaluate (a.inner m) a.nested a.step a.fresh = (o, f)) (hne : o ≠ .exhausted) :
    Course m T a o f := by
  rcases Action.bind_cases h with ⟨answer, f₂, hconsult, h⟩ | ⟨o₁, hconsult, hb⟩
  · exact hx.course_answered hT hdistinct hconsult h hne
  · cases hb with
    | failed e => exact hx.course_failed hT hdistinct hconsult
    | exhausted => exact absurd rfl hne

/-- What a step has done when it has come to its result: nothing but to fail at its announcement, or
to enter what its inputs stand for, have its block answer, and enter what its children stand for. -/
inductive Outline (m : Machine) (R : Context → Context → Prop) (T : Entry) (a : Start)
    (r : StepResult) (c : Context) : Prop
  | unannounced {e : Failure} {f : Frame}
    (announced : m.announce a.nested a.step a.fresh = (.failed e, f)) (left : R f.context c)
    (inputs : r.given = []) (children : r.children = []) : Outline m R T a r c
  | announced {f : Frame} {c₁ c₂ : Context}
    (announced : m.announce a.nested a.step a.fresh = (.done (), f))
    (inputs : T true f.context c₁ r.given) (answered : R c₁ c₂)
    (children : T false c₂ c r.children) : Outline m R T a r c

omit hx hT hdistinct in
lemma Outline.withArtifact {a : Start} (h : m.Outline R T a r c) (v : Value) :
    m.Outline R T a { r with artifact := v } c := by
  cases h with
  | unannounced announced left inputs children =>
    exact .unannounced announced left inputs children
  | announced announced inputs answered children =>
    exact .announced announced inputs answered children

/-- Where executors enter nothing, the inputs and the children of a step are all that is entered
between its announcement and its result. -/
lemma InnerBook.outline (hexecutor : ∀ type block, m.blocks.lookup type = some block →
      ∀ params, Keeps R (block.executor params))
    (h : m.conclude (a.inner m) a.nested a.step a.before = (.done r, c)) :
    m.Outline R T a r c := by
  obtain ⟨o, f, hevaluate, hc, rfl⟩ := conclude_done h
  have hne : o ≠ .exhausted := by
    rintro rfl
    cases hc
  have hleft : R f.context { f.context with currentStep := a.before.currentStep } :=
    hT.harmless.currentStep _ _
  have hplain {x : StepResult} (h : Gathers a.step x) : x.children = [] := by
    obtain ⟨xs, rfl⟩ := h
    rfl
  cases hx.course hT hdistinct hevaluate hne with
  | unannounced announced =>
    have hblank := announce_result announced
    refine .unannounced announced hleft ?_ ?_
    · rw [hc.given, hblank]
      rfl
    · rw [hc.children, hblank]
      rfl
  | unprepared announced inputs record =>
    refine .announced announced (by rwa [hc.given]) (hT.harmless.refl _) ?_
    rw [hc.children, hplain record]
    exact hT.nothing _ _ _ hleft
  | @invoked f₀ f₁ f₂ _ block params o₁ _ announced prepared inputs record ran ended responds
      children =>
    have hinvoke := invoke_keeps hT.harmless (hexecutor _ _ (prepare_lookup prepared) params)
    have hanswered : R f₁.context f₂.context := hinvoke.keeps _ _ _ ran ended
    refine .announced announced (by rwa [hc.given]) hanswered ?_
    rw [hc.children]
    exact hT.behind children hleft

end Inner

/-- A list enters what its results stand for if every step that is run for it does where the steps
right inside it do. -/
lemma AllBook.of_runsFor {Q : Start → Prop} {layers : Nat}
    (hinner : ∀ a, Q a → m.InnerBook T a →
      Books T a.nested (m.runWith (a.layers + 1) a.nested a.step) a.before)
    (h : ∀ a, m.RunsFor layers steps c a → Q a) : AllBook T (m.runWith layers) steps c :=
  fun _ _ _ started =>
    started.of_inside (P := fun n nested x c => Books T nested (m.runWith n nested x) c) hinner
      (fun nested _ c => books_exhaust T nested c) h

/-! ### Results that are lost -/

/-- The result of a step is lost. -/
def Start.Lost (m : Machine) (a : Start) : Prop :=
  ∃ r c, m.conclude (a.inner m) a.nested a.step a.before = (.done r, c) ∧
    m.Unlogged a.nested a.step r c

/-- Where the records of a run can be written, and nothing that is attached to the machine changes
what they are marked with, no result is lost. -/
lemma RunsFor.not_lost (hm : m.Respects SameMarks) (hc : c.Loggable) {layers : Nat} {a : Start}
    (h : m.RunsFor layers steps c a) : ¬a.Lost m := by
  rintro ⟨r, c₁, hconclude, hlost⟩
  have hbefore : SameMarks c a.before := h.keeps sameMarks_harmless hm fun _ => ⟨rfl, rfl⟩
  have hbehind := ((conclude_keeps sameMarks_harmless hm
    (fun _ _ => runWith_keeps sameMarks_harmless hm _ _ _) a.nested a.step).done hconclude).1
  exact hlost.not_loggable hm ((hc.congr hbefore).congr hbehind)

/-- If besides executors and the hooks before steps only raise what can be recorded, every step that
ends comes to a result. -/
lemma RunsFor.not_escapes (ht : m.Tells) (hm : m.Respects SameMarks) (hc : c.Loggable)
    {layers : Nat} {a : Start} (h : m.RunsFor layers steps c a) :
    ¬m.Escapes (a.inner m) a.nested a.step a.before := by
  intro hescapes
  cases hescapes with
  | unrecorded raised unfit => exact unfit (raised.recordable ht)
  | unlogged concluded lost => exact h.not_lost hm hc ⟨_, _, concluded, lost⟩

/-- A step whose inputs have distinct names, and which comes to a result unless it never ends. -/
structure Start.Returns (m : Machine) (a : Start) : Prop where
  distinct : (Dict.keys a.step.params).Nodup
  returns : ¬m.Escapes (a.inner m) a.nested a.step a.before

lemma Start.Returns.done {a : Start} (ha : a.Returns m) {o : Outcome StepResult}
    (h : m.runWith (a.layers + 1) a.nested a.step a.before = (o, c)) (hne : o ≠ .exhausted) :
    ∃ r, o = .done r ∧ SameStep (.blank a.step) r := by
  cases o with
  | done r => exact ⟨r, rfl, Activation.sameStep ⟨a.layers, a.nested, a.step, a.before, r, c, h⟩⟩
  | failed e =>
    exact absurd ((runLayer_failed_iff (m.runWith_recordable a.layers)).mp ⟨e, c, h⟩) ha.returns
  | exhausted => exact absurd rfl hne

end BlockSuite.Machine
