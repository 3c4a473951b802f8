import BlockSuite.Proofs.Library
import BlockSuite.Proofs.Machine.Cancelled
import BlockSuite.Proofs.Machine.Documented

/-!
Observers. The hooks behind steps and the artifact hook only see results. If they write nothing but
the journal, and nothing that runs looks at the journal, a list of steps comes to the same results
with them as without them, the artifacts aside, and leaves the same context, the journal aside:
whatever they raise is logged. Only where this cannot be written is a result lost.
-/

namespace BlockSuite

open BlockSuite.Action (Agree Congruent)
open BlockSuite.Context (Journaled Likeness SameMarks)

namespace StepResult

mutual

/-- A result without artifacts, its own and those of all results inside it. -/
def bare : StepResult → StepResult
  | ⟨id, type, status, time, output, error, _, inputs, children, soft, returned, failure⟩ =>
    ⟨id, type, status, time, output, error, .null, bareInputs inputs, bareAll children, soft,
      returned, failure⟩

def bareInputs : List (String × StepResult) → List (String × StepResult)
  | [] => []
  | (name, r) :: rest => (name, bare r) :: bareInputs rest

def bareAll : List StepResult → List StepResult
  | [] => []
  | r :: rest => bare r :: bareAll rest

end

lemma bareInputs_eq (l : List (String × StepResult)) :
    bareInputs l = l.map fun e => (e.1, e.2.bare) := by
  induction l with
  | nil => rfl
  | cons e rest ih => rw [bareInputs, ih, List.map_cons]

lemma bareAll_eq (rs : List StepResult) : bareAll rs = rs.map bare := by
  induction rs with
  | nil => rfl
  | cons r rest ih => rw [bareAll, ih, List.map_cons]

lemma bare_eq (r : StepResult) : r.bare =
    { r with
      artifact := .null
      inputs := r.inputs.map fun e => (e.1, e.2.bare)
      children := r.children.map bare } := by
  cases r
  rw [bare, bareInputs_eq, bareAll_eq]

lemma bare_shell (r : StepResult) : r.bare.shell = r.shell := by
  rw [bare_eq]
  rfl

lemma bare_artifact (r : StepResult) (v : Value) : bare { r with artifact := v } = bare r := by
  rw [bare_eq, bare_eq r]

/-- Where there is nothing on record about others, there are no artifacts. -/
lemma bare_of_empty {r : StepResult} (hr : r.artifact = .null) (hinputs : r.inputs = [])
    (hchildren : r.children = []) : r.bare = r := by
  cases r
  cases hr
  cases hinputs
  cases hchildren
  rfl

/-- The second result is the first one without artifacts. -/
def Bared (r r' : StepResult) : Prop := r' = r.bare

lemma bared_resemblance : Resemblance Bared Bared where
  own := by
    rintro r _ rfl
    exact (bare_shell r).symm
  others := by
    rintro r _ rfl
    exact (bare_shell r).symm
  shelled := by
    rintro r _ s rfl
    rw [Bared, bare_eq (r.inShell s), bare_eq r]
    rfl
  inputs := by
    rintro r _ x _ name rfl rfl
    rw [Bared, bare_eq (Machine.withInput r name x), bare_eq r]
    simp only [Machine.withInput, Dict.map_set]
  children := by
    rintro r _ rs rs' rfl hrs
    have hall : rs' = rs.map bare := by
      induction hrs with
      | nil => rfl
      | cons hr _ ih => rw [List.map_cons, ih, hr]
    rw [Bared, bare_eq { r with children := r.children ++ rs }, bare_eq r, hall]
    simp only [List.map_append]

end StepResult

namespace Context

lemma journaled_likeness : Likeness Journaled where
  trial := by rintro c _ ⟨rs, ns, rfl⟩; exact ⟨rfl, rfl, rfl⟩
  values := by rintro c _ ⟨rs, ns, rfl⟩ _; rfl
  collected := by rintro c _ ⟨rs, ns, rfl⟩; rfl
  depth := by rintro c _ ⟨rs, ns, rfl⟩; rfl
  cancelled := by rintro c _ ⟨rs, ns, rfl⟩; rfl
  level := by rintro c _ ⟨rs, ns, rfl⟩; rfl
  logged := by
    rintro c _ ⟨rs, ns, rfl⟩ level text
    rw [onJournal_log, onJournal_log]
    exact ⟨_, ns, rfl⟩
  bound := by rintro c _ ⟨rs, ns, rfl⟩ _ _; exact ⟨rs, ns, rfl⟩
  defined := by rintro c _ ⟨rs, ns, rfl⟩ _ _; exact ⟨rs, ns, rfl⟩
  entered := by rintro c _ ⟨rs, ns, rfl⟩ _; exact ⟨rs, ns, rfl⟩
  left := by rintro b _ c _ ⟨_, _, rfl⟩ ⟨rs, ns, rfl⟩; exact ⟨rs, ns, rfl⟩
  opened := by rintro c _ ⟨rs, ns, rfl⟩; exact ⟨rs, ns, rfl⟩
  closed := by rintro b _ c _ ⟨_, _, rfl⟩ ⟨rs, ns, rfl⟩ _; exact ⟨rs, ns, rfl⟩

end Context

namespace Library

/-- An assertion is handled alike whatever is written in the journal. -/
lemma handle_oblivious (x : Assertion) : Congruent Journaled (x.handle none none) := by
  rintro c _ ⟨rs, ns, rfl⟩
  have h : c.Journaled (c.onJournal fun j => { j with records := rs, notes := ns }) :=
    ⟨rs, ns, rfl⟩
  unfold Assertion.handle
  split
  · exact .pure rfl h
  refine .get ?_
  change Agree Journaled Eq _ c (if c.soft then _ else _) _
  dsimp only
  split
  · refine (Agree.lift _ h).bind ?_
    rintro e c₁ _ _ - - rfl ⟨rs₁, ns₁, rfl⟩
    have hcollects : Agree Journaled Eq
        (Action.modify fun c : Context => { c with softErrors := c.softErrors ++ [e] }) c₁
        (Action.modify fun c : Context => { c with softErrors := c.softErrors ++ [e] })
        (c₁.onJournal fun j => { j with records := rs₁, notes := ns₁ }) :=
      .modify ⟨rs₁, ns₁, rfl⟩
    exact hcollects.bind fun _ c₂ _ d₂ _ _ _ h₂ => Context.journaled_likeness.log _ _ _ _ c₂ d₂ h₂
  · exact .fail _ h

/-- Procedures are called alike whatever is written in the journal. -/
lemma callWith_oblivious (expectReturn : Bool) (params : Dict Value) :
    Congruent Journaled (callWith expectReturn params) := by
  refine (Context.journaled_likeness.elementary (elementary_needText params "NAME")).bind
    fun name => ?_
  have hprocedure : Congruent Journaled (Context.procedure name) := by
    intro c d h
    have hsame : d.shared.procedures = c.shared.procedures := by
      obtain ⟨rs, ns, rfl⟩ := h
      rfl
    refine .get ?_
    rw [hsame]
    split
    · exact .pure rfl h
    · exact .fail _ h
  refine hprocedure.bind fun p => ?_
  refine Congruent.bind (fun _ _ h => .lift _ h) fun bound => ?_
  split
  · exact .pure _
  · exact .fail _

/-- **No block of the library looks at the journal.** -/
theorem catalog_oblivious {block : Block} (h : block ∈ catalog) (params : Dict Value) :
    Congruent Journaled (block.executor params) := by
  rcases catalog_elementary h with rfl | (rfl | rfl) | helementary
  · rw [assertThat_executor]
    exact (Context.journaled_likeness.elementary (assertion_elementary params)).bind fun x =>
      (handle_oblivious x).bind fun _ => .pure _
  · exact callWith_oblivious _ params
  · exact callWith_oblivious _ params
  · exact Context.journaled_likeness.elementary (helementary params)

end Library

namespace Machine

open BlockSuite.StepResult (Bared)

variable {m : Machine} {nested : Bool} {step : Step} {steps : List Step} {c c' d : Context}
  {r r' : StepResult}

/-- A machine without its observers: the hooks behind steps, and the artifact hook. -/
def unwatched (m : Machine) : Machine :=
  { m with hooks := m.hooks.map fun h => { h with afterStep := none }, artifact := none }

lemma unwatched_beforeStep (m : Machine) (step : Step) :
    (Hooks.runAll m.unwatched.hooks fun h => h.beforeStep.map fun f => f step) =
      Hooks.runAll m.hooks fun h => h.beforeStep.map fun f => f step := by
  rw [Hooks.runAll, Hooks.runAll, unwatched, List.filterMap_map]
  rfl

lemma unwatched_announce (m : Machine) (nested : Bool) (step : Step) :
    m.unwatched.announce nested step = m.announce nested step := by
  rw [announce, announce, unwatched_beforeStep]

/-- Without observers a result is as it is. -/
lemma unwatched_report (m : Machine) (nested : Bool) (step : Step) (r : StepResult) :
    m.unwatched.report nested step r = pure r := by
  have hnone : m.unwatched.artifactHookFor step r = none := by
    rw [artifactHookFor]
    split <;> rfl
  have hattach : m.unwatched.attachArtifact step r = pure r := by
    rw [attachArtifact, hnone]
  have hcalls : (Hooks.runAll m.unwatched.hooks fun h => h.afterStep.map fun f => f step r) =
      pure () := by
    have hnil : (m.unwatched.hooks.filterMap fun h => h.afterStep.map fun f => f step r) = [] := by
      rw [unwatched, List.filterMap_map]
      exact List.filterMap_eq_nil_iff.mpr fun _ _ => rfl
    rw [Hooks.runAll, hnil]
    rfl
  have hobserve : m.unwatched.observe nested step r = pure () := by
    rw [observe, hcalls]
    split <;> rfl
  rw [report, hattach, pure_bind, hobserve, pure_bind]

/-- Nothing that runs looks at the journal: neither executors nor the hooks before steps. -/
structure Oblivious (m : Machine) : Prop where
  executor : ∀ type block, m.blocks.lookup type = some block →
    ∀ params, Congruent Journaled (block.executor params)
  beforeStep : ∀ h ∈ m.hooks, ∀ f, h.beforeStep = some f → ∀ step, Congruent Journaled (f step)

/-- A machine whose observers come to their ends, and write nothing but the journal. -/
structure Observed (m : Machine) : Prop extends m.Prompt, m.Oblivious where
  shown : m.Shown Journaled

/-- Observers leave a result as it is but for its artifact, unless it is lost. -/
lemma Observed.report_agrees (hm : m.Observed) (kept : ¬m.Unlogged nested step r c)
    (hr : Bared r r') (h : c.Journaled d) :
    Agree Journaled Bared (m.report nested step r) c (m.unwatched.report nested step r') d := by
  rw [unwatched_report]
  obtain ⟨r₁, c₁, hreport⟩ := (hm.toPrompt.report r).resolve_right kept
  obtain ⟨v, rfl⟩ := report_done hreport
  have hc : c.Journaled c₁ := ((journaled_journalFree.report hm.shown nested step r).done hreport).1
  exact .of_run hreport rfl (.done (hr.trans (StepResult.bare_artifact r v).symm)) (hc.symm.trans h)

/-- A step is run alike without observers. -/
abbrev Start.AlikeUnwatched (m : Machine) (layers : Nat) (nested : Bool) (x : Step) (c : Context) :
    Prop :=
  RunsAlike Journaled Bared (m.runWith layers) (m.unwatched.runWith layers) nested x c

/-- A step is run alike without observers if its result is not lost, and if the steps right inside
it are run alike. -/
lemma Start.alike_unwatched (hm : m.Observed) {a : Start} (kept : ¬a.Lost m)
    (h : ∀ b, m.Contains a b → Start.AlikeUnwatched m a.layers b.nested b.step b.before) :
    Start.AlikeUnwatched m (a.layers + 1) a.nested a.step a.before := by
  intro d hd
  have hannounce (d : Context) (hd : a.before.Journaled d) :
      Agree (Frame.Beside Journaled Bared) Eq (m.announce a.nested a.step) a.fresh
        (m.unwatched.announce a.nested a.step) ⟨d, .blank a.step⟩ := by
    rw [unwatched_announce]
    have hblank : Bared (.blank a.step) (.blank a.step) :=
      (StepResult.bare_of_empty rfl rfl rfl).symm
    exact announce_agrees Context.journaled_likeness hm.beforeStep a.nested a.step ⟨hd, hblank⟩
  have hblocks : m.unwatched.blocks = m.blocks := rfl
  have hconclude := Start.concludes_alike StepResult.bared_resemblance Context.journaled_likeness
    hblocks hannounce (fun f block params f' _ prepared d h _ => ?_) h hd
  swap
  · exact (hm.executor _ _ (prepare_lookup prepared) params _ d h).mono fun a _ heq =>
      heq ▸ .refl a
  -- Up to here nothing has been observed: what is left is that the result is shown, or not.
  refine hconclude.bind fun r c₁ r' d₁ hran _ hr h₁ => ?_
  exact hm.report_agrees (fun hlost => kept ⟨r, c₁, hran, hlost⟩) hr h₁

/-- A list is run alike without observers if no result is lost. -/
lemma Observed.runList_alike {layers : Nat} (hm : m.Observed)
    (kept : ∀ a, m.RunsFor layers steps c a → ¬a.Lost m) :
    ListsAlike Journaled Bared (m.runWith layers) (m.unwatched.runWith layers) steps c :=
  listsAlike StepResult.bared_resemblance.others fun _ _ _ started =>
    started.of_inside (P := Start.AlikeUnwatched m)
      (fun _ kept inner => Start.alike_unwatched hm kept inner) (fun _ _ _ _ h => .exhaust h) kept

/-- **Observers cannot change the outcome.** If the observers of a machine come to their ends and
write nothing but the journal, a list of steps is run as it is without them: it ends in the same
way, with the same results but for the artifacts, and leaves the same context but for the journal.
Each result has the artifact that the artifact hook has made of it; the hook is called once for
every result in the trees whose step has failed and whose block asks for it, and for no other one.
The exception are steps whose results are lost, and there are none where the records of the run can
be written. -/
theorem observers_are_harmless (m : Machine) (hm : m.Observed) (layers : Nat) (steps : List Step)
    (c : Context) :
    (∀ d, c.Journaled d →
      Agree Journaled (List.Forall₂ Bared) (runList (m.runWith layers false) steps) c
          (runList (m.unwatched.runWith layers false) steps) d ∨
        ∃ a, m.RunsFor layers steps c a ∧ a.Lost m) ∧
    (∀ rs c', runList (m.runWith layers false) steps c = (.done rs, c') →
      ∀ r ∈ StepResult.walkAll rs, ∃ step, SameStep (.blank step) r ∧ m.Attached step r) ∧
    (∀ {γ : Type} (calls : Context → List γ) (call : Step → Option Failure → γ),
      m.Documenting calls call →
      (∀ a, m.RunsFor layers steps c a → (Dict.keys a.step.params).Nodup) →
      ∀ o c', runList (m.runWith layers false) steps c = (o, c') → o ≠ .exhausted →
        (∃ rs, o = .done rs ∧ m.filed calls call false c c' rs) ∨
          ∃ a, m.RunsFor layers steps c a ∧ m.Escapes (a.inner m) a.nested a.step a.before) ∧
    (m.Respects SameMarks → c.Loggable → ∀ a, m.RunsFor layers steps c a → ¬a.Lost m ∧
      (m.Tells → ¬m.Escapes (a.inner m) a.nested a.step a.before)) := by
  refine ⟨fun d hd => ?_, fun rs c' h r hr => ?_, fun _ _ hcalls hdistinct o c' h ho => ?_,
    fun hmarks hlog a ha => ⟨ha.not_lost hmarks hlog, fun ht => ha.not_escapes ht hmarks hlog⟩⟩
  · by_cases hlost : ∃ a, m.RunsFor layers steps c a ∧ a.Lost m
    · exact .inr hlost
    · exact .inl (hm.runList_alike (fun a ha h => hlost ⟨a, ha, h⟩) d hd)
  · obtain ⟨a, -, rfl⟩ := exists_runsFor h hr
    exact ⟨a.step, a.sameStep, runWith_attached a.ran⟩
  · by_cases hescapes : ∃ a, m.RunsFor layers steps c a ∧
        m.Escapes (a.inner m) a.nested a.step a.before
    · exact .inr hescapes
    · have hreturns (a : Start) (ha : m.RunsFor layers steps c a) : a.Returns m :=
        ⟨hdistinct a ha, fun h => hescapes ⟨a, ha, h⟩⟩
      exact .inl (hcalls.filed_runList hreturns h ho)

/-! ### A machine that is observed -/

/-- What the blocks do: one opens a group, the other one fails. -/
def stumbling : Dict (Run Answer) :=
  [("group", return .signal (.branch "DO")), ("stumble", Action.fail (.raised (.leaf "stumbled")))]

/-- A machine of these blocks, which both want their failures to be documented. A hook behind steps
raises whenever it is called. The artifact hook notes its calls; it gives a photo of a step that
stumbles, and raises for any other one. -/
def photographed : Machine where
  blocks :=
    [stumbling.map fun e => (e.1, { type := e.1, snapshot := true, executor := fun _ => e.2 })]
  hooks := [{ afterStep := some fun _ _ => Action.fail (.raised (.leaf "blind")) }]
  artifact := some fun step _ => do
    Context.note step.id
    if step.type = "stumble" then return .text "photo"
    else Action.fail (.raised (.leaf "dark"))

lemma photographed_executor {type : String} {block : Block}
    (h : photographed.blocks.lookup type = some block) (params : Dict Value) :
    block.executor params = (pure (.signal (.branch "DO")) : Run Answer) ∨
      block.executor params = (Action.fail (.raised (.leaf "stumbled")) : Run Answer) := by
  obtain ⟨d, hd, hentry⟩ := Layers.mem_of_lookup h
  rw [List.mem_singleton.mp hd] at hentry
  obtain ⟨e, he, heq⟩ := List.mem_map.mp hentry
  cases heq
  obtain rfl | rfl : e = _ ∨ e = _ := by simpa [stumbling] using he
  · exact .inl rfl
  · exact .inr rfl

/-- What the blocks do leaves every context as it is. -/
lemma photographed_keeps {R : Context → Context → Prop} (hrefl : ∀ c, R c c) {type : String}
    {block : Block} (h : photographed.blocks.lookup type = some block) (params : Dict Value) :
    Action.Keeps R (block.executor params) := by
  intro c o c' hran _
  rcases photographed_executor h params with hexec | hexec <;>
    rw [hexec] at hran <;> cases hran <;> exact hrefl c

/-- Hooks behind steps leave every context as it is, and the artifact hook adds a note. -/
lemma photographed_artifact {hook : ArtifactHook} (h : photographed.artifact = some hook)
    {step : Step} {f : Option Failure} {o : Outcome Value} (ran : hook step f c = (o, c')) :
    c' = c.onJournal (·.note step.id) ∧ o ≠ .exhausted := by
  cases h
  rcases Action.bind_cases ran with ⟨_, c₁, hnote, hrest⟩ | ⟨o', hnote, hb⟩
  · cases hnote
    split at hrest <;> cases hrest <;> exact ⟨rfl, by simp⟩
  · cases hnote
    cases hb

/-- The hook behind steps leaves every context as it is. -/
lemma photographed_afterStep {k : Hooks} (hk : k ∈ photographed.hooks)
    {f : Step → StepResult → Run Unit} (hf : k.afterStep = some f) {o : Outcome Unit}
    (ran : f step r c = (o, c')) : c' = c ∧ o ≠ .exhausted := by
  rw [List.mem_singleton.mp hk] at hf
  cases hf
  cases ran
  exact ⟨rfl, by simp⟩

/-- No hook sees the start of a step. -/
lemma photographed_beforeStep {k : Hooks} (hk : k ∈ photographed.hooks) (f : Step → Run Unit) :
    k.beforeStep ≠ some f := by
  rw [List.mem_singleton.mp hk]
  nofun

lemma photographed_observed : photographed.Observed where
  afterStep k hk f hf step r c := by
    rcases h : f step r c with ⟨o, c'⟩
    exact (photographed_afterStep hk hf h).2
  artifact hook hk step f c := by
    rcases h : hook step f c with ⟨o, c'⟩
    exact (photographed_artifact hk h).2
  executor type block hb params := by
    rcases photographed_executor hb params with hexec | hexec <;> rw [hexec]
    · exact .pure _
    · exact .fail _
  beforeStep k hk f hf := absurd hf (photographed_beforeStep hk f)
  shown :=
    { afterStep := by
        intro k hk f hf step r c o c' ran _
        rw [(photographed_afterStep hk hf ran).1]
        exact .refl c
      artifact := by
        intro hook hk step f c o c' ran _
        rw [(photographed_artifact hk ran).1]
        exact ⟨_, _, rfl⟩ }

lemma photographed_documenting :
    photographed.Documenting notes fun step _ => step.id where
  own := notes_harmless
  depth _ _ := rfl
  executor _ _ hb params :=
    photographed_keeps (R := Unnoted notes) (fun _ => rfl) hb params
  beforeStep k hk f hf := absurd hf (photographed_beforeStep hk f)
  afterStep k hk f hf step r c o c' ran _ := by
    rw [(photographed_afterStep hk hf ran).1]
    rfl
  artifact := by
    refine ⟨_, rfl, fun step f c o c' ran _ => ?_⟩
    change notes c' = notes c ++ [step.id]
    rw [(photographed_artifact (f := f) rfl ran).1]
    exact List.reverse_cons

lemma photographed_marks : photographed.Respects SameMarks where
  executor _ _ hb params := photographed_keeps (fun _ => ⟨rfl, rfl⟩) hb params
  beforeStep k hk f hf := absurd hf (photographed_beforeStep hk f)
  afterStep k hk f hf step r c o c' ran _ := by
    rw [(photographed_afterStep hk hf ran).1]
    exact ⟨rfl, rfl⟩
  artifact hook hk step f c o c' ran _ := by
    rw [(photographed_artifact hk ran).1]
    exact ⟨rfl, rfl⟩

lemma photographed_tells : photographed.Tells where
  executor type block hb params c := by
    rcases photographed_executor hb params with hexec | hexec <;> rw [hexec]
    · exact ⟨trivial, trivial⟩
    · have hruntime : (Reason.leaf none none).isRuntime = true := rfl
      exact ⟨trivial, Failure.recordable_text hruntime "stumbled"⟩
  beforeStep k hk f hf := absurd hf (photographed_beforeStep hk f)

/-- A step that stumbles. -/
def stumble : Step := ⟨"leaf", "stumble", [], []⟩

/-- A step that stumbles inside a group. -/
def stumbleInGroup : Step := ⟨"box", "group", [], [("DO", [stumble])]⟩

lemma stumbleInGroup_runs {layers : Nat} {a : Start}
    (h : photographed.RunsFor layers [stumbleInGroup] c a) :
    a.step = stumbleInGroup ∨ a.step = stumble := by
  refine RunsFor.forall_grouped (P := fun x => x = stumbleInGroup ∨ x = stumble) "DO" ?_ ?_ ?_ ?_ h
  · intro type block hb params c s c' ran
    rcases photographed_executor hb params with hexec | hexec <;> rw [hexec] at ran <;> cases ran
    rfl
  · intro x hx
    exact .inl (List.mem_singleton.mp hx)
  · rintro x (rfl | rfl) <;> rfl
  · rintro x (rfl | rfl) y hy
    · exact .inr (List.mem_singleton.mp hy)
    · cases hy

theorem observers_are_harmless_photographed : photographed.Observed ∧
    ∃ rs c', runList (photographed.runWith 2 false) [stumbleInGroup] silent = (.done rs, c') ∧
      Agree Journaled (List.Forall₂ Bared)
        (runList (photographed.runWith 2 false) [stumbleInGroup]) silent
        (runList (photographed.unwatched.runWith 2 false) [stumbleInGroup]) silent ∧
      (∀ r ∈ StepResult.walkAll rs, ∃ step, SameStep (.blank step) r ∧
        photographed.Attached step r) ∧
      photographed.filed notes (fun step _ => step.id) false silent c' rs ∧
      notes c' = ["leaf", "box"] := by
  obtain ⟨hagree, hattached, hfiled, hkept⟩ :=
    observers_are_harmless photographed photographed_observed 2 [stumbleInGroup] silent
  have hsafe := hkept photographed_marks ⟨"[blocks] ", rfl, by decide⟩
  obtain ⟨rs, c', h⟩ := Action.exists_done
    (x := runList (photographed.runWith 2 false) [stumbleInGroup]) (s := silent) (by decide +kernel)
  have hnotes : notes (runList (photographed.runWith 2 false) [stumbleInGroup] silent).2 =
      ["leaf", "box"] := by decide +kernel
  rw [h] at hnotes
  refine ⟨photographed_observed, rs, c', h, ?_, hattached rs c' h, ?_, hnotes⟩
  · exact (hagree silent (.refl silent)).resolve_right fun ⟨a, ha, hlost⟩ => (hsafe a ha).1 hlost
  · have hdistinct (a : Start) (ha : photographed.RunsFor 2 [stumbleInGroup] silent a) :
        (Dict.keys a.step.params).Nodup := by
      rcases stumbleInGroup_runs ha with h | h <;> rw [h] <;> exact List.nodup_nil
    obtain ⟨_, hdone, hcalled⟩ :=
      (hfiled notes _ photographed_documenting hdistinct _ c' h (by simp)).resolve_right
        fun ⟨a, ha, hescapes⟩ => (hsafe a ha).2 photographed_tells hescapes
    cases hdone
    exact hcalled

/-- The run of a test with a percent sign in its name of which errors are logged. -/
def halfDone : Context :=
  { testName := some "50% done", shared := { journal := { level := .error } } }

/-- Behind the percent sign the failure of a hook that is shown a result cannot be logged: the list
fails, while without observers it comes to its results. -/
theorem observers_are_seen_halfDone : photographed.Observed ∧
    (∃ e c', runList (photographed.runWith 2 false) [stumbleInGroup] halfDone =
      (.failed e, c')) ∧
    ∃ rs c', runList (photographed.unwatched.runWith 2 false) [stumbleInGroup] halfDone =
      (.done rs, c') :=
  ⟨photographed_observed, Action.exists_failed (by decide +kernel),
    Action.exists_done (by decide +kernel)⟩

end Machine

end BlockSuite
