import BlockSuite.Proofs.Machine.Cancelled

/-!
How high steps are, and how deep they are run. The height of a step is that of the tree of its
nested inputs and its slots. Where no block has steps run that are not those of its own step, every
step that is run inside another one is lower than that, however often loops come back to it. So a
list of steps comes to its end as soon as there are as many layers as it is high, and it makes no
difference if there are more.
-/

namespace BlockSuite

namespace Step

/-! ### Heights -/

mutual

/-- How many steps stand inside each other in a step, itself included. -/
def height : Step → Nat
  | ⟨_, _, params, slots⟩ => max (heightInputs params) (heightSlots slots) + 1

def heightInput : Input → Nat
  | .nested s => height s
  | .literal _ => 0

def heightInputs : List (String × Input) → Nat
  | [] => 0
  | (_, i) :: rest => max (heightInput i) (heightInputs rest)

def heightSlots : List (String × List Step) → Nat
  | [] => 0
  | (_, steps) :: rest => max (heightAll steps) (heightSlots rest)

/-- How many steps stand inside each other in a list of steps. -/
def heightAll : List Step → Nat
  | [] => 0
  | s :: rest => max (height s) (heightAll rest)

end

variable {step x : Step}

lemma height_le_of_mem {steps : List Step} (h : x ∈ steps) : x.height ≤ heightAll steps := by
  induction steps with
  | nil => cases h
  | cons s rest ih =>
    rw [heightAll]
    rcases List.mem_cons.mp h with rfl | h
    · exact Nat.le_max_left _ _
    · exact Nat.le_trans (ih h) (Nat.le_max_right _ _)

lemma height_eq (step : Step) :
    step.height = max (heightInputs step.params) (heightSlots step.slots) + 1 := by
  cases step
  rw [height]

/-- A nested step is lower than the step whose input it is to give. -/
lemma height_lt_of_nested {name : String} (h : Dict.get? step.params name = some (.nested x)) :
    x.height < step.height := by
  have hinputs (params : List (String × Input)) (h : Dict.get? params name = some (.nested x)) :
      x.height ≤ heightInputs params := by
    induction params with
    | nil => cases h
    | cons e rest ih =>
      obtain ⟨k, i⟩ := e
      rw [Dict.get?_cons] at h
      rw [heightInputs]
      split at h
      · cases h
        exact Nat.le_max_left _ _
      · exact Nat.le_trans (ih h) (Nat.le_max_right _ _)
  rw [height_eq step]
  exact Nat.lt_succ_of_le (Nat.le_trans (hinputs _ h) (Nat.le_max_left _ _))

/-- The steps of a slot are lower than the step. -/
lemma heightAll_slot (step : Step) (name : String) : heightAll (step.slot name) < step.height := by
  have hslots (slots : List (String × List Step)) :
      heightAll ((Dict.get? slots name).getD []) ≤ heightSlots slots := by
    induction slots with
    | nil => exact Nat.zero_le _
    | cons e rest ih =>
      rw [Dict.get?_cons, heightSlots]
      split
      · exact Nat.le_max_left _ _
      · exact Nat.le_trans ih (Nat.le_max_right _ _)
  rw [height_eq step]
  exact Nat.lt_succ_of_le (Nat.le_trans (hslots _) (Nat.le_max_right _ _))

end Step

/-- Whether a signal has steps run that need not be those of the step. -/
def Signal.brings : Signal → Bool
  | expand .. | call .. => true
  | _ => false

namespace Machine

open BlockSuite.Frame (inContext note)
open BlockSuite.Action (Ends EndAlike)

variable {m : Machine} {run run' : Runner} {step : Step} {steps : List Step}

/-- No block has steps run that are not those of its own step. -/
def ProcedureFree (m : Machine) : Prop :=
  ∀ type block, m.blocks.lookup type = some block → ∀ params c s c',
    block.executor params c = (.done (.signal s), c') → s.brings = false

/-- Blocks come to their ends, and so does whatever watches the machine. -/
structure Halting (m : Machine) : Prop extends m.Prompt where
  executor : ∀ type block, m.blocks.lookup type = some block →
    ∀ params, Ends (block.executor params)
  beforeStep : ∀ h ∈ m.hooks, ∀ f, h.beforeStep = some f → ∀ step, Ends (f step)

/-! ### Parts of a step -/

lemma note_ends (change : StepResult → StepResult) : Ends (note change) := .modify _

lemma inContext_endAlike {α : Type} {x y : Run α} (h : EndAlike x y) :
    EndAlike (inContext x) (inContext y) := h.zoom

lemma raiseFor_ends (rs : List StepResult) : Ends (Frame.raiseFor rs) := by
  unfold Frame.raiseFor
  split
  · exact .fail _
  · exact .pure _

lemma adopt_ends (rs : List StepResult) : Ends (Frame.adopt rs) :=
  (note_ends _).bind fun _ => (raiseFor_ends rs).bind fun _ => note_ends _

lemma markSoft_ends (before : Nat) : Ends (markSoft before) := by
  refine .get fun f => ?_
  dsimp only
  split
  · exact note_ends _
  · exact .pure _

lemma setVariable_ends (name : String) (v : Value) : Ends (Context.setVariable name v) :=
  (Ends.modify _).bind fun _ => Context.log_ends

lemma bindItem_ends (binding : String) (indexBinding : Option String) (i : Nat) (v : Value) :
    Ends (bindItem binding indexBinding i v) := by
  refine (setVariable_ends binding v).bind fun _ => ?_
  split
  · exact setVariable_ends _ _
  · exact .pure _

lemma bindCaught_ends (errorBinding : Option String) (r : StepResult) :
    Ends (bindCaught errorBinding r) := by
  refine Context.log_ends.bind fun _ => ?_
  split
  · exact setVariable_ends _ _
  · exact .pure _

lemma fill_ends (v : Value) : Ends (Context.fill v) := .get fun _ => .compute _

/-- A list of steps ends as its steps do. -/
lemma runList_endAlike {run run' : Step → Run StepResult}
    (h : ∀ x ∈ steps, EndAlike (run x) (run' x)) :
    EndAlike (runList run steps) (runList run' steps) := by
  induction steps with
  | nil => exact .of_ends (.pure _)
  | cons x rest ih =>
    rw [runList_cons, runList_cons]
    refine (h x List.mem_cons_self).bind fun r _ => ?_
    split
    · exact .of_ends (.pure _)
    · exact (ih fun y hy => h y (List.mem_cons_of_mem _ hy)).bind fun _ _ => .of_ends (.pure _)

section Inputs

variable (hrun : ∀ name x, Dict.get? step.params name = some (.nested x) →
  EndAlike (run true x) (run' true x))
include hrun

lemma resolveInput_endAlike (b : Block) (name : String) :
    EndAlike (resolveInput run b step name) (resolveInput run' b step name) := by
  unfold resolveInput
  split
  · next x bound =>
    refine (inContext_endAlike (hrun name x bound)).bind fun r _ => ?_
    refine .of_ends ((note_ends _).bind fun _ => ?_)
    split
    · exact .fail _
    · exact .pure _
  · exact .of_ends (fill_ends _).zoom
  · split
    · exact .of_ends (.pure _)
    · split
      · exact .of_ends (.fail _)
      · exact .of_ends (fill_ends _).zoom

lemma resolveAll_endAlike (b : Block) (names : List String) :
    EndAlike (resolveAll run b step names) (resolveAll run' b step names) := by
  induction names with
  | nil => exact .of_ends (.pure _)
  | cons name rest ih =>
    exact (resolveInput_endAlike hrun b name).bind fun v _ =>
      ih.bind fun vs _ => .of_ends (.pure _)

end Inputs

lemma runBody_endAlike (h : ∀ x ∈ steps, EndAlike (run false x) (run' false x)) :
    EndAlike (runBody run steps) (runBody run' steps) :=
  (inContext_endAlike (runList_endAlike h)).bind fun rs _ => .of_ends (adopt_ends rs)

/-- Passes end however many there are, for each of them runs the same steps. -/
lemma runPasses_endAlike {starts : List (Run Unit)} (hs : ∀ x ∈ starts, Ends x)
    (h : ∀ x ∈ steps, EndAlike (run false x) (run' false x)) :
    EndAlike (runPasses (runBody run steps) starts) (runPasses (runBody run' steps) starts) := by
  -- The passes are counted before the first of them, whatever the steps change meanwhile.
  induction starts with
  | nil => exact .of_ends (.pure _)
  | cons start rest ih =>
    refine (EndAlike.of_ends (hs start List.mem_cons_self).zoom).bind fun _ _ => ?_
    refine (runBody_endAlike h).bind fun _ _ => ?_
    refine (EndAlike.of_ends (x := hasReturned) fun _ => nofun).bind fun b _ => ?_
    split
    · exact ih fun x hx => hs x (List.mem_cons_of_mem _ hx)
    · exact .of_ends (.pure _)

lemma runTrial_endAlike {handler : List Step} (errorBinding : Option String)
    (h : ∀ x ∈ steps, EndAlike (run false x) (run' false x))
    (hhandler : ∀ x ∈ handler, EndAlike (run false x) (run' false x)) :
    EndAlike (runTrial run steps handler errorBinding)
      (runTrial run' steps handler errorBinding) := by
  refine (inContext_endAlike (runList_endAlike h)).bind fun rs _ => ?_
  split
  · exact .of_ends (adopt_ends rs)
  · next r _ =>
    refine (EndAlike.of_ends (note_ends _)).bind fun _ _ => ?_
    exact (EndAlike.of_ends (bindCaught_ends errorBinding r).zoom).bind fun _ _ =>
      runBody_endAlike hhandler

lemma bodyOutput_ends : Ends bodyOutput := fun _ => nofun

/-- What is done with the slots of a step ends as their steps do. -/
lemma perform_endAlike {s : Signal} (hs : s.brings = false)
    (h : ∀ name, ∀ x ∈ step.slot name, EndAlike (run false x) (run' false x)) :
    EndAlike (perform run step s) (perform run' step s) := by
  have hpasses {starts : List (Run Unit)} (slot : String) (hstarts : ∀ x ∈ starts, Ends x) :
      EndAlike (carryOut run (.passes starts (step.slot slot)))
        (carryOut run' (.passes starts (step.slot slot))) :=
    (runPasses_endAlike hstarts (h slot)).bind fun _ _ => .of_ends bodyOutput_ends
  rw [perform_eq, perform_eq]
  cases s with
  | branch slot =>
    refine hpasses slot fun x hx => ?_
    rw [List.mem_singleton.mp hx]
    exact .pure _
  | countedLoop times slot =>
    refine hpasses slot fun x hx => ?_
    rw [List.eq_of_mem_replicate hx]
    exact .pure _
  | collectionLoop items binding slot indexBinding =>
    refine hpasses slot fun x hx => ?_
    obtain ⟨i, _, rfl⟩ := List.mem_mapIdx.mp hx
    exact bindItem_ends _ _ _ _
  | tryCatch trySlot catchSlot errorBinding =>
    exact (runTrial_endAlike errorBinding (h trySlot) (h catchSlot)).bind fun _ _ =>
      .of_ends bodyOutput_ends
  | expand => cases hs
  | call => cases hs
  | leave v =>
    refine .of_ends (.get fun f => ?_)
    split
    · exact Context.log_ends.zoom.bind fun _ => .pure _
    · exact (note_ends _).bind fun _ => .pure _
  | define name params description returnType slot =>
    have hdefine (procedure : Procedure) : Ends (defineLogged name procedure) :=
      (Ends.modify _).bind fun _ => Context.log_ends
    exact .of_ends ((hdefine _).zoom.bind fun _ => .pure _)

/-! ### A step -/

lemma enter_endAlike {α : Type} {x y : Frame.Act α} (r : StepResult) (h : EndAlike x y) :
    EndAlike (Frame.enter r x) (Frame.enter r y) := by
  obtain ⟨hends, rfl⟩ := h
  refine .of_ends fun c => ?_
  have hx := hends ⟨c, r⟩
  unfold Frame.enter
  split
  · nofun
  · nofun
  · next hexhausted => exact absurd (by rw [hexhausted]) hx

section Layers

variable (hfree : m.ProcedureFree) (hm : m.Halting)
include hm

lemma announce_ends (nested : Bool) (step : Step) : Ends (m.announce nested step) := by
  have hrunning : Ends Context.ensureRunning := by
    refine .get fun c => ?_
    split
    · exact .fail _
    · exact .pure _
  refine hrunning.zoom.bind fun _ => ?_
  split
  · refine Ends.zoom (Hooks.runAll_ends fun k hk f hf => ?_)
    exact hm.beforeStep k hk f hf step
  · exact .pure _

variable (hinputs : ∀ name x, Dict.get? step.params name = some (.nested x) →
  EndAlike (run true x) (run' true x))
include hinputs

lemma consult_endAlike (nested : Bool) :
    EndAlike (m.consult run nested step) (m.consult run' nested step) := by
  have hprepare : EndAlike (m.prepare run step) (m.prepare run' step) := by
    unfold prepare
    split
    · exact .of_ends (.fail _)
    · next block known =>
      refine (resolveAll_endAlike hinputs block (inputNames block step)).bind fun params _ => ?_
      exact .of_ends ((Ends.modify _).zoom.bind fun _ => .pure _)
  have hannounce : EndAlike (m.announce nested step) (m.announce nested step) :=
    .of_ends (announce_ends hm nested step)
  refine hannounce.bind fun _ _ => hprepare.bind ?_
  rintro ⟨block, params⟩ ⟨f, f', prepared⟩
  have hexecutor := hm.executor step.type block (prepare_lookup prepared) params
  refine .of_ends (.get fun f => hexecutor.zoom.bind fun answer => ?_)
  exact (markSoft_ends _).bind fun _ => .pure _

variable (hslots : ∀ name, ∀ x ∈ step.slot name, EndAlike (run false x) (run' false x))
include hfree hslots

/-- A step ends as the steps do that are run right inside it. -/
lemma runLayer_endAlike (nested : Bool) :
    EndAlike (m.runLayer run nested step) (m.runLayer run' nested step) := by
  have hrespond (answer : Answer)
      (h : ∃ f f', m.consult run nested step f = (.done answer, f')) :
      EndAlike (respond run step answer) (respond run' step answer) := by
    cases answer with
    | value v => exact .of_ends (.pure _)
    | signal s =>
      obtain ⟨f, f', answered⟩ := h
      obtain ⟨block, params, c, c', known, ran⟩ := consult_answers answered
      exact perform_endAlike (hfree _ block known params c s c' ran) hslots
  have hevaluate : EndAlike (m.evaluate run nested step) (m.evaluate run' nested step) :=
    (consult_endAlike hm hinputs nested).bind hrespond
  have hconclude : EndAlike (m.conclude run nested step) (m.conclude run' nested step) := by
    refine (EndAlike.of_ends (x := Action.get) fun _ => nofun).bind fun before _ => ?_
    refine (enter_endAlike (.blank step) hevaluate).bind fun ended _ => .of_ends ?_
    refine .get fun c => (Ends.modify _).bind fun _ => ?_
    split
    · exact .pure _
    · exact .lift _
  exact hconclude.bind fun r _ => .of_ends (hm.report_ends nested r)

end Layers

/-- **With as many layers as it is high, or more, a step comes to its end**, and more of them make
no difference. -/
theorem runWith_endAlike (hfree : m.ProcedureFree) (hm : m.Halting) {n k : Nat} (nested : Bool)
    (hn : step.height ≤ n) (hk : step.height ≤ k) :
    EndAlike (m.runWith n nested step) (m.runWith k nested step) := by
  induction n generalizing k nested step with
  | zero =>
    rw [Step.height_eq] at hn
    omega
  | succ n ih =>
    cases k with
    | zero =>
      rw [Step.height_eq] at hk
      omega
    | succ k =>
      have hinner (nested : Bool) {x : Step} (hx : x.height < step.height) :
          EndAlike (m.runWith n nested x) (m.runWith k nested x) :=
        ih nested (by omega) (by omega)
      refine runLayer_endAlike hfree hm (fun name x bound => ?_) (fun name x hx => ?_) nested
      · exact hinner true (Step.height_lt_of_nested bound)
      · exact hinner false
          (Nat.lt_of_le_of_lt (Step.height_le_of_mem hx) (Step.heightAll_slot step name))

/-! ### Steps that are open together -/

/-- Steps that are open at the same time: the list has started the first of them, and each one is
run right inside the one before. -/
structure Open (m : Machine) (layers : Nat) (steps : List Step) (c : Context) (as : List Start) :
    Prop where
  first : ∀ a ∈ as.head?, ∃ i, layers = a.layers + 1 ∧ a.nested = false ∧
    StartsAt (m.runWith layers false) steps c i a.step a.before
  inside : as.IsChain m.Contains

/-- The lists that a signal opens are slots of the step. -/
lemma Opens.height_lt {s : Signal} (hs : s.brings = false) {f : Frame} {k : Nat} {c : Context}
    (h : Opens run f (s.work step) k steps c) : Step.heightAll steps < step.height := by
  cases s with
  | expand => cases hs
  | call => cases hs
  | leave => cases h
  | define => cases h
  | tryCatch => cases h <;> exact Step.heightAll_slot step _
  | branch | countedLoop | collectionLoop =>
    cases h
    exact Step.heightAll_slot step _

/-- What is run inside a step is lower than the step. -/
lemma Contains.height_lt (hfree : m.ProcedureFree) {a b : Start} (h : m.Contains a b) :
    b.step.height < a.step.height := by
  cases h with
  | input layers nested announced known asks =>
    obtain ⟨name, bound⟩ := asks.bound
    exact Step.height_lt_of_nested bound
  | body layers nested answered opened started =>
    obtain ⟨block, params, c, c', known, ran⟩ := consult_answers answered
    exact Nat.lt_of_le_of_lt (Step.height_le_of_mem started.mem)
      (opened.height_lt (hfree _ block known params c _ c' ran))

/-- There are no more steps inside each other than the first one is high. -/
lemma length_le_height (hfree : m.ProcedureFree) {a : Start} {rest : List Start}
    (h : (a :: rest).IsChain m.Contains) : (a :: rest).length ≤ a.step.height := by
  induction rest generalizing a with
  | nil =>
    rw [Step.height_eq]
    exact Nat.le_add_left _ _
  | cons b rest ih =>
    obtain ⟨hab, hrest⟩ := List.isChain_cons_cons.mp h
    exact Nat.succ_le_of_lt (Nat.lt_of_le_of_lt (ih hrest) (hab.height_lt hfree))

/-- **Steps come to their end where no procedure is run.** Whatever blocks answer with otherwise, a
list of steps ends with as many layers as it is high, or more, and in the same way with all of them:
there are never more steps open at a time than it is high. -/
theorem procedureFree_ends (hfree : m.ProcedureFree) (hm : m.Halting) (steps : List Step)
    (c : Context) :
    (∀ n, Step.heightAll steps ≤ n →
      (runList (m.runWith n false) steps c).1 ≠ .exhausted ∧
        runList (m.runWith n false) steps c =
          runList (m.runWith (Step.heightAll steps) false) steps c) ∧
      (Step.heightAll steps ≤ maxDepth →
        m.runSteps steps c = runList (m.runWith (Step.heightAll steps) false) steps c) ∧
      ∀ n as, m.Open n steps c as → as.length ≤ Step.heightAll steps := by
  have hlist {n : Nat} (hn : Step.heightAll steps ≤ n) : EndAlike
      (runList (m.runWith n false) steps)
      (runList (m.runWith (Step.heightAll steps) false) steps) := by
    refine runList_endAlike fun x hx => ?_
    have hheight : x.height ≤ Step.heightAll steps := Step.height_le_of_mem hx
    exact runWith_endAlike hfree hm false (Nat.le_trans hheight hn) hheight
  refine ⟨fun n hn => ⟨(hlist hn).ends c, congrFun (hlist hn).same c⟩,
    fun hn => congrFun (hlist hn).same c, fun n as h => ?_⟩
  cases as with
  | nil => exact Nat.zero_le _
  | cons a rest =>
    obtain ⟨i, -, -, started⟩ := h.first a rfl
    exact Nat.le_trans (length_le_height hfree h.inside) (Step.height_le_of_mem started.mem)

/-- A machine with a block that repeats steps and one that gives nothing. -/
def noting : Machine :=
  ofExecutors [("repeat", return .signal (.countedLoop 2 "DO")), ("note", return .value .null)]

/-- A step that gives an input to another one. -/
def number : Step := ⟨"number", "note", [], []⟩

/-- A step that repeats another one, and asks for its input before. -/
def notedTwice : Step :=
  ⟨"outer", "repeat", [("TIMES", .nested number)], [("DO", [⟨"inner", "note", [], []⟩])]⟩

lemma noting_answers {type : String} {block : Block}
    (h : noting.blocks.lookup type = some block) : ∃ answer : Answer,
      (answer = .signal (.countedLoop 2 "DO") ∨ answer = .value .null) ∧
        block.executor = fun _ => return answer := by
  obtain ⟨e, he, hexec⟩ := ofExecutors_lookup h
  rcases List.mem_cons.mp he with rfl | he
  · exact ⟨_, .inl rfl, hexec⟩
  · rw [List.mem_singleton.mp he] at hexec
    exact ⟨_, .inr rfl, hexec⟩

lemma noting_procedureFree : noting.ProcedureFree := by
  intro type block h params c s c' ran
  obtain ⟨answer, hanswer, hexec⟩ := noting_answers h
  rw [hexec] at ran
  cases ran
  rcases hanswer with hs | hs <;> cases hs
  rfl

lemma noting_halting : noting.Halting where
  afterStep k hk := by cases hk
  artifact hook hk := by cases hk
  beforeStep k hk := by cases hk
  executor type block h params := by
    obtain ⟨answer, -, hexec⟩ := noting_answers h
    rw [hexec]
    exact .pure answer

/-- Two steps are open at a time, and no more. -/
theorem procedureFree_ends_notedTwice : Step.heightAll [notedTwice] = 2 ∧
    (runList (noting.runWith 2 false) [notedTwice] silent).1 ≠ .exhausted ∧
    noting.runSteps [notedTwice] silent =
      runList (noting.runWith 2 false) [notedTwice] silent ∧
    noting.Open 2 [notedTwice] silent [⟨1, false, notedTwice, silent⟩, ⟨0, true, number, silent⟩] ∧
    ∀ n as, noting.Open n [notedTwice] silent as → as.length ≤ 2 := by
  have hheight : Step.heightAll [notedTwice] = 2 := rfl
  have hasks : noting.Contains ⟨1, false, notedTwice, silent⟩ ⟨0, true, number, silent⟩ :=
    .input rfl rfl rfl rfl (.here rfl)
  have hopened : noting.Open 2 [notedTwice] silent
      [⟨1, false, notedTwice, silent⟩, ⟨0, true, number, silent⟩] := by
    refine ⟨fun a ha => ?_, List.isChain_cons_cons.mpr ⟨hasks, .singleton _⟩⟩
    cases ha
    exact ⟨0, rfl, rfl, .here notedTwice [] silent⟩
  obtain ⟨hends, hsteps, hopen⟩ :=
    procedureFree_ends noting_procedureFree noting_halting [notedTwice] silent
  rw [hheight] at hends hsteps hopen
  exact ⟨hheight, (hends 2 (Nat.le_refl 2)).1, hsteps (by decide), hopened, hopen⟩

end Machine

end BlockSuite
