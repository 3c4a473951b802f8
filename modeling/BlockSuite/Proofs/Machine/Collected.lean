import Mathlib.Data.List.Forall2
import BlockSuite.Proofs.Machine.Assertion
import BlockSuite.Proofs.Machine.Ledger
import BlockSuite.Proofs.Machine.Placed

/-!
What is collected while steps run. Where executors take one assertion at most and hooks take none, a
failure that is collected belongs to one result, which is marked with it. The failures come in the
order of these results in their trees, the inputs of a result before and its children behind it. It
is only with the result of a step that a failure loses the one it belongs to.
-/

namespace BlockSuite

/-! ### Marked results in the order of their failures -/

namespace StepResult

mutual

/-- A result and all results inside it, its inputs before it and its children behind it. -/
def visit : StepResult → List StepResult
  | ⟨id, type, status, time, output, error, artifact, inputs, children, soft, returned, failure⟩ =>
    visitInputs inputs ++
      ⟨id, type, status, time, output, error, artifact, inputs, children, soft, returned,
        failure⟩ :: visitAll children

def visitInputs : List (String × StepResult) → List StepResult
  | [] => []
  | (_, r) :: rest => visit r ++ visitInputs rest

def visitAll : List StepResult → List StepResult
  | [] => []
  | r :: rest => visit r ++ visitAll rest

end

lemma visit_eq (r : StepResult) : r.visit = visitAll r.given ++ r :: visitAll r.children := by
  have hinputs (l : List (String × StepResult)) : visitInputs l = visitAll (l.map (·.2)) := by
    induction l with
    | nil => rfl
    | cons e rest ih => rw [visitInputs, List.map_cons, visitAll, ih]
  cases r
  rw [visit, hinputs]
  rfl

lemma visitAll_append (rs rs' : List StepResult) :
    visitAll (rs ++ rs') = visitAll rs ++ visitAll rs' := by
  induction rs with
  | nil => rfl
  | cons r rest ih => rw [List.cons_append, visitAll, ih, visitAll, List.append_assoc]

/-- The results in some trees that are marked with a failure that was collected. -/
def marked (rs : List StepResult) : List StepResult := (visitAll rs).filter (·.soft)

lemma marked_append (rs rs' : List StepResult) : marked (rs ++ rs') = marked rs ++ marked rs' := by
  rw [marked, visitAll_append, List.filter_append]
  rfl

lemma marked_singleton (r : StepResult) :
    marked [r] = marked r.given ++ ([r].filter (·.soft) ++ marked r.children) := by
  rw [marked, visitAll, visitAll, List.append_nil, visit_eq, List.filter_append,
    ← List.singleton_append, List.filter_append]
  rfl

end StepResult

/-- A failure that was collected is the one that a result is marked with. -/
structure SoftError.Marks (e : SoftError) (r : StepResult) : Prop where
  stepId : e.stepId = some r.stepId
  stepType : e.stepType = some r.stepType
  error : r.error = some ⟨e.message, none, some "soft_assertion"⟩

/-- What is collected from one context to another are the failures that some results are marked
with. -/
def Context.Tally (c c' : Context) (rs : List StepResult) : Prop :=
  ∃ es, c'.softErrors = c.softErrors ++ es ∧
    List.Forall₂ SoftError.Marks es (StepResult.marked rs)

namespace Context

variable {c c' c'' : Context} {rs rs' : List StepResult}

lemma SameSoft.tally (h : SameSoft c c') : Tally c c' [] := by
  refine ⟨[], ?_, .nil⟩
  rw [List.append_nil]
  exact h

lemma Tally.append (h : Tally c c' rs) (h' : Tally c' c'' rs') : Tally c c'' (rs ++ rs') := by
  obtain ⟨es, hes, hmarks⟩ := h
  obtain ⟨es', hes', hmarks'⟩ := h'
  refine ⟨es ++ es', by rw [hes', hes, List.append_assoc], ?_⟩
  rw [StepResult.marked_append]
  exact List.rel_append hmarks hmarks'

lemma Tally.before (h : SameSoft c c') (h' : Tally c' c'' rs) : Tally c c'' rs :=
  h.tally.append h'

lemma Tally.behind (h : Tally c c' rs) (h' : SameSoft c' c'') : Tally c c'' rs := by
  rw [← List.append_nil rs]
  exact h.append h'.tally

end Context

namespace Machine

open BlockSuite.Action (Meets)
open BlockSuite.Context (SameSoft Tally SameMarks)

lemma sameSoft_harmless : Harmless (.keeping SameSoft) where
  toJournalFree := sameSoft_journalFree
  bindings _ _ := rfl
  currentStep _ _ := rfl
  procedures _ _ := rfl
  frame _ _ h := h
  error _ _ _ := trivial

variable {m : Machine} {run : Runner} {step : Step} {steps : List Step} {f f' : Frame}
  {c c' : Context} {r : StepResult} {rs : List StepResult}

/-! ### What a block collects -/

/-- Whatever an executor does, it takes one assertion at most, for the current step. Where the
assertion is collected as a failure, a plain value is answered. -/
def TakesOne (x : Run Answer) (c : Context) : Prop :=
  ∀ o c', x c = (o, c') → o ≠ .exhausted → SameSoft c c' ∨
    ∃ (a : Assertion) (c₁ c₂ : Context) (v : Value), SameSoft c c₁ ∧
      c₁.currentStep = c.currentStep ∧ a.handle none none c₁ = (.done (), c₂) ∧
      SameSoft c₂ c' ∧ o = .done (.value v)

/-- What is collected from one context to another is what a record is marked with. -/
inductive Marked (c c' : Context) (r : StepResult) : Prop
  | unmarked (same : SameSoft c c') (soft : r.soft = false)
  | marked (e : SoftError) (collected : c'.softErrors = c.softErrors ++ [e]) (soft : r.soft = true)
    (marks : e.Marks r)

/-- Taking an assertion collects one failure of the current step, or nothing. -/
lemma handle_done {x : Assertion} (hc : c.currentStep = some step)
    (h : x.handle none none c = (.done (), c')) : SameSoft c c' ∨
      ∃ e, c'.softErrors = c.softErrors ++ [e] ∧ e.stepId = some step.id ∧
        e.stepType = some step.type := by
  cases Assertion.handle_cases h with
  | held holds => exact .inl rfl
  | @collected e _ _ fails soft record logged =>
    have hlog := ((sameSoft_journalFree.log _ _ _ _).done logged).1
    exact .inr ⟨e, hlog, Assertion.currentRecord_ok hc record⟩

/-- An executor that takes an assertion and then answers takes one, if a failure that is collected
can be logged. -/
lemma takesOne_handle {x : Assertion} {v : Value}
    (hlog : ∀ es, ∃ c', Context.log .warning "Soft assertion failed: %s" [x.message] .null
      { c with softErrors := es } = (.done (), c')) :
    TakesOne (do x.handle; return .value v) c := by
  intro o c' h ho
  rcases Action.bind_cases h with ⟨_, c₁, h₁, h⟩ | ⟨o', h₁, hb⟩
  · cases h
    exact .inr ⟨x, c, c', v, rfl, rfl, h₁, rfl, rfl⟩
  · cases Assertion.handle_cases h₁ with
    | held => cases hb
    | raised fails hard => exact .inl rfl
    | unfit fails soft record => exact .inl rfl
    | @collected e _ _ fails soft record logged =>
      obtain ⟨c₂, hdone⟩ := hlog (c.softErrors ++ [e])
      rw [hdone] at logged
      cases logged
      cases hb

lemma markSoft_same {n : Nat} (h : f.context.softErrors.length = n) :
    markSoft n f = (.done (), f) := by
  rw [markSoft, Action.bind_of_done (Action.get_run f), if_neg (by omega)]
  rfl

/-- A block that takes one assertion at most has its step marked with what it collects. -/
lemma invoke_marked {block : Block} {params : Dict Value} {o : Outcome Answer}
    (takes : TakesOne (block.executor params) f.context)
    (current : f.context.currentStep = some step) (same : SameStep (.blank step) f.result)
    (soft : f.result.soft = false) (h : invoke block params f = (o, f'))
    (ho : o ≠ .exhausted) :
    Marked f.context f'.context f'.result ∧
      (f'.result.soft = true → ∃ v, o = .done (.value v)) := by
  have hunmarked {f₁ : Frame} (hs : SameSoft f.context f₁.context)
      (hr : f₁.result = f.result) : Marked f.context f₁.context f₁.result ∧
        (f₁.result.soft = true → ∃ v, o = .done (.value v)) := by
    refine ⟨.unmarked hs (by rw [hr, soft]), fun hsoft => ?_⟩
    rw [hr, soft] at hsoft
    cases hsoft
  rw [invoke, Action.bind_of_done (Action.get_run f)] at h
  rcases Action.bind_cases h with ⟨answer, f₁, h₁, h⟩ | ⟨o', h₁, hb⟩
  · obtain ⟨hexec, hr⟩ := Frame.inContext_eq h₁
    rcases takes _ _ hexec (by simp) with hs | ⟨a, c₁, c₂, v, hs₁, hc₁, hhandle, hs₂, hv⟩
    · rw [Action.bind_of_done (markSoft_same (congrArg List.length hs))] at h
      cases h
      exact hunmarked hs hr
    · rcases handle_done (hc₁.trans current) hhandle with hs | ⟨e, hcollected, hid, htype⟩
      · have hall : SameSoft f.context f₁.context := (hs₂.trans hs).trans hs₁
        rw [Action.bind_of_done (markSoft_same (congrArg List.length hall))] at h
        cases h
        exact hunmarked hall hr
      · have hall : f₁.context.softErrors = f.context.softErrors ++ [e] := by
          rw [hs₂, hcollected, hs₁]
        rw [Action.bind_of_done (Refutes.markSoft_collected hall (Nat.le_refl _))] at h
        cases h
        cases hv
        refine ⟨.marked e hall rfl ⟨?_, ?_, rfl⟩, fun _ => ⟨v, rfl⟩⟩
        · rw [hid, hr, same.id]
          rfl
        · rw [htype, hr, same.type]
          rfl
  · obtain ⟨hexec, hr⟩ := Frame.inContext_eq h₁
    rcases takes _ _ hexec (hb.ne_exhausted ho) with hs | ⟨_, _, _, v, -, -, -, -, rfl⟩
    · exact hunmarked hs hr
    · cases hb

/-! ### What steps collect -/

namespace Marked

variable {r' : StepResult}

lemma same (h : Marked c c' r) (hr : r.soft = false) : SameSoft c c' := by
  cases h with
  | unmarked same => exact same
  | marked e collected soft =>
    rw [soft] at hr
    cases hr

lemma congr (h : Marked c c' r) (hsoft : r'.soft = r.soft) (hstep : SameStep r r')
    (herror : r'.error = r.error) : Marked c c' r' := by
  cases h with
  | unmarked same soft => exact .unmarked same (hsoft.trans soft)
  | marked e collected soft marks =>
    refine .marked e collected (hsoft.trans soft) ⟨?_, ?_, herror.trans marks.error⟩
    · rw [marks.stepId, hstep.id]
    · rw [marks.stepType, hstep.type]

end Marked

/-- How a record counts what is collected: the inputs first, then what the record itself is marked
with, then the children. -/
def Counts (c : Context) (r : StepResult) (c' : Context) : Prop :=
  ∃ c₁ c₂, Tally c c₁ r.given ∧ Marked c₁ c₂ r ∧ Tally c₂ c' r.children

lemma Counts.tally (h : Counts c r c') : Tally c c' [r] := by
  obtain ⟨c₁, c₂, ⟨es₁, h₁, hgiven⟩, hmarked, ⟨es₂, h₂, hchildren⟩⟩ := h
  cases hmarked with
  | unmarked same soft =>
    refine ⟨es₁ ++ es₂, by rw [h₂, same, h₁, List.append_assoc], ?_⟩
    rw [StepResult.marked_singleton, List.filter_cons_of_neg (by simp [soft])]
    exact List.rel_append hgiven hchildren
  | marked e collected soft marks =>
    refine ⟨es₁ ++ e :: es₂, ?_, ?_⟩
    · rw [h₂, collected, h₁]
      simp
    · rw [StepResult.marked_singleton, List.filter_cons_of_pos soft]
      exact List.rel_append hgiven (.cons marks hchildren)

/-- A step of whose inputs none has the name of another, and which raises what can be recorded. Its
block takes one assertion at most. -/
structure Start.Orderly (m : Machine) (a : Start) : Prop where
  distinct : (Dict.keys a.step.params).Nodup
  recordable : ∀ e, m.Raises (a.inner m) a.nested a.step a.before e → e.Recordable
  takesOne : ∀ f block params f', m.announce a.nested a.step a.fresh = (.done (), f) →
    m.prepare (a.inner m) a.step f = (.done (block, params), f') →
    TakesOne (block.executor params) f'.context

/-- What is collected is entered by the results that are marked with it. -/
lemma tally_ledger : Ledger SameSoft fun _ => Tally where
  harmless := sameSoft_harmless
  depth _ _ := rfl
  nothing _ _ _ := SameSoft.tally
  append _ _ _ _ _ _ := Tally.append

section Start

variable {a : Start} (hw : m.Watched SameSoft) (ho : a.Orderly m)
  (hx : m.InnerBook (fun _ => Tally) a)
include hw ho hx

lemma evaluate_counts {o : Outcome Value}
    (h : m.evaluate (a.inner m) a.nested a.step a.fresh = (o, f)) (hne : o ≠ .exhausted) :
    Counts a.before f.result f.context ∧ (f.result.soft = true → ∃ v, o = .done v) := by
  have hannounce := announce_keeps sameSoft_harmless hw.beforeStep a.nested a.step
  have hunmarked {x : Step} {r : StepResult} (h : Gathers x r) : r.soft = false := by
    obtain ⟨xs, rfl⟩ := h
    rfl
  have hleft {o : Outcome Unit} {f : Frame}
      (h : m.announce a.nested a.step a.fresh = (o, f)) (hne : o ≠ .exhausted) :
      SameSoft a.before f.context := hannounce.keeps _ _ _ h hne
  cases hx.course tally_ledger ho.distinct h hne with
  | unannounced announced =>
    rw [announce_result announced]
    refine ⟨⟨a.before, f.context, SameSoft.tally rfl, ?_, SameSoft.tally rfl⟩, nofun⟩
    exact .unmarked (hleft announced (by simp)) rfl
  | unprepared announced inputs record =>
    have hsoft := hunmarked record
    obtain ⟨xs, hrecord⟩ := record
    refine ⟨⟨f.context, f.context, inputs.before (hleft announced (by simp)),
      .unmarked rfl hsoft, ?_⟩, fun h => ?_⟩
    · rw [hrecord]
      exact SameSoft.tally rfl
    · rw [hsoft] at h
      cases h
  | @invoked f₀ f₁ f₂ _ block params o₁ _ announced prepared inputs record ran ended responds
      children =>
    have hstep : SameStep (.blank a.step) f₁.result := by
      obtain ⟨xs, hrecord⟩ := record
      rw [hrecord]
      exact ⟨rfl, rfl⟩
    obtain ⟨hmarked, hvalue⟩ := invoke_marked (ho.takesOne _ _ _ _ announced prepared)
      (prepare_currentStep prepared) hstep (hunmarked record) ran ended
    have hgiven := inputs.before (hleft announced (by simp))
    cases responds with
    | broken hb =>
      refine ⟨⟨f₁.context, f.context, hgiven, hmarked, children⟩, fun h => ?_⟩
      obtain ⟨v, rfl⟩ := hvalue h
      cases hb
    | value v => exact ⟨⟨f₁.context, f.context, hgiven, hmarked, children⟩, fun _ => ⟨v, rfl⟩⟩
    | work worked soft =>
      have hsoft : f₂.result.soft = false := by
        by_contra hsoft
        obtain ⟨v, hv⟩ := hvalue (by simpa using hsoft)
        cases hv
      refine ⟨⟨f₁.context, f₂.context, hgiven, ?_, children⟩, fun h => ?_⟩
      · exact .unmarked (hmarked.same hsoft) (soft.trans hsoft)
      · rw [soft, hsoft] at h
        cases h

lemma conclude_counts {o : Outcome StepResult}
    (h : m.conclude (a.inner m) a.nested a.step a.before = (o, c)) (hne : o ≠ .exhausted) :
    ∃ r, o = .done r ∧ Counts a.before r c := by
  cases conclude_cases h with
  | value ran =>
    obtain ⟨⟨c₁, c₂, hgiven, hmarked, hchildren⟩, -⟩ := evaluate_counts hw ho hx ran (by simp)
    exact ⟨_, rfl, c₁, c₂, hgiven, hmarked.congr rfl ⟨rfl, rfl⟩ rfl, hchildren.behind rfl⟩
  | @settled e f r ran record =>
    obtain ⟨⟨c₁, c₂, hgiven, hmarked, hchildren⟩, hvalue⟩ := evaluate_counts hw ho hx ran (by simp)
    have hsoft : f.result.soft = false := by
      by_contra hsoft
      obtain ⟨v, hv⟩ := hvalue (by simpa using hsoft)
      cases hv
    have hconcluded : Concluded f.result (.failed e) r := .failure (settled_ok record)
    refine ⟨r, rfl, c₁, c₂, ?_, .unmarked (hmarked.same hsoft) ?_, ?_⟩
    · rwa [hconcluded.given]
    · cases settled_ok record with
      | skipped => exact hsoft
      | _ => rfl
    · rw [hconcluded.children]
      exact hchildren.behind rfl
  | @unsettled e e' f ran record =>
    have hrecordable : e.Recordable := by
      rcases evaluate_failed (m.runWith_recordable a.layers) ran with hrec | hraises
      · exact hrec
      · exact ho.recordable e hraises
    obtain ⟨r, hr⟩ := settled_isOk.mpr hrecordable
    rw [hr] at record
    cases record
  | unfinished ran => exact absurd rfl hne

/-- **What is collected while a step runs is in its tree**, unless its result is lost. -/
lemma books_of_inner (hkept : ¬a.Lost m) :
    Books (fun _ => Tally) a.nested (m.runWith (a.layers + 1) a.nested a.step) a.before := by
  intro o c' h hne
  rcases Action.bind_cases h with ⟨r, c₁, h₁, h⟩ | ⟨o', h₁, hb⟩
  · obtain ⟨_, hd, c₂, c₃, hgiven, hmarked, hchildren⟩ := conclude_counts hw ho hx h₁ (by simp)
    cases hd
    have hsame := (sameSoft_journalFree.report hw.shown a.nested a.step r).keeps _ _ _ h hne
    cases o with
    | done r' =>
      obtain ⟨v, rfl⟩ := report_done h
      refine ⟨_, rfl, Counts.tally ⟨c₂, c₃, hgiven, ?_, hchildren.behind hsame⟩⟩
      exact hmarked.congr rfl ⟨rfl, rfl⟩ rfl
    | failed e => exact absurd ⟨r, c₁, h₁, report_failed_iff.mp ⟨e, c', h⟩⟩ hkept
    | exhausted => exact absurd rfl hne
  · obtain ⟨r, rfl, -⟩ := conclude_counts hw ho hx h₁ (hb.ne_exhausted hne)
    cases hb

end Start

/-- **Soft assertions are accounted for.** Where hooks leave the failures alone that are collected
and every step is orderly, a list collects the failures that the results in its trees are marked
with, in their order, unless the result of a step is lost on the way. No result is lost where the
records of the run can be written, if nothing that is attached to the machine changes the marks. -/
theorem collected_is_marked (m : Machine) (hw : m.Watched SameSoft) (layers : Nat)
    (steps : List Step) (c c' : Context) (rs : List StepResult)
    (ho : ∀ a, m.RunsFor layers steps c a → a.Orderly m)
    (h : runList (m.runWith layers false) steps c = (.done rs, c')) :
    (Tally c c' rs ∨ ∃ a, m.RunsFor layers steps c a ∧ a.Lost m) ∧
      (m.Respects SameMarks → c.Loggable → ∀ a, m.RunsFor layers steps c a → ¬a.Lost m) := by
  constructor
  · by_cases hlost : ∃ a, m.RunsFor layers steps c a ∧ a.Lost m
    · exact .inr hlost
    have hinside (a : Start) (ha : m.RunsFor layers steps c a) : a.Orderly m ∧ ¬a.Lost m :=
      ⟨ho a ha, fun hb => hlost ⟨a, ha, hb⟩⟩
    have hall : AllBook (fun _ => Tally) (m.runWith layers) steps c :=
      .of_runsFor (fun a ha hx => books_of_inner hw ha.1 hx ha.2) hinside
    obtain ⟨_, hd, htally⟩ := tally_ledger.runList hall h (by simp)
    cases hd
    exact .inl htally
  · exact fun hmarks hlog a hruns => hruns.not_lost hmarks hlog

/-! ### A check inside a group -/

/-- A machine that runs groups and checks. A hook fails on being shown the result of a check. -/
def watchedChecks : Machine :=
  { checking with
    hooks := [{ afterStep := some fun step _ =>
      if step.type == "check" then Action.fail (.raised (.leaf "blind")) else pure () }] }

/-- A check that does not hold. -/
def leaf : Step := ⟨"leaf", "check", [], []⟩

/-- A group of this check alone. -/
def box : Step := ⟨"box", "group", [], [("DO", [leaf])]⟩

lemma watchedChecks_watched : watchedChecks.Watched SameSoft where
  beforeStep k hk f hf := by
    rw [List.mem_singleton.mp hk] at hf
    cases hf
  afterStep k hk f hf step r := by
    rw [List.mem_singleton.mp hk] at hf
    cases hf
    dsimp only
    split
    · intro c o c' h _
      cases h
      rfl
    · exact (sameSoft_journalFree.pure ()).keeps
  artifact hook hk := by cases hk

/-- An executor of the machine opens a group or takes a check. -/
lemma watchedChecks_executor {type : String} {block : Block}
    (h : watchedChecks.blocks.lookup type = some block) (params : Dict Value) :
    block.executor params = (return .signal (.branch "DO")) ∨
      block.executor params = (do
        Assertion.handle { holds := false, message := .text "wrong total" }
        return .value .null) := by
  obtain ⟨x, hx, hexec⟩ := ofExecutors_lookup (show checking.blocks.lookup type = _ from h)
  rw [hexec]
  obtain rfl | rfl : x = _ ∨ x = _ := by simpa [checking] using hx
  · exact .inl rfl
  · exact .inr rfl

section Box

variable (hc : c.shared.cancelled = false)
include hc

lemma announce_box (nested : Bool) (step : Step) (r : StepResult) :
    watchedChecks.announce nested step ⟨c, r⟩ = (.done (), ⟨c, r⟩) := by
  have hrunning := ensureRunning_of_running hc
  rw [announce, Action.bind_of_done (Frame.inContext_run (f := ⟨c, r⟩) hrunning)]
  cases nested <;> rfl

/-- The group asks for its slot. -/
lemma consult_box {run : Runner} {s : Signal}
    (h : watchedChecks.consult run false box ⟨c, .blank box⟩ = (.done (.signal s), f)) :
    s = .branch "DO" ∧ f = ⟨{ c with currentStep := some box }, .blank box⟩ := by
  rw [consult, Action.bind_of_done (announce_box hc _ _ _)] at h
  obtain ⟨⟨block, params⟩, f₁, hprepare, hinvoke⟩ := Action.bind_done h
  cases hprepare
  change invoke _ _ _ = _ at hinvoke
  rw [invoke, Action.bind_of_done (Action.get_run _)] at hinvoke
  obtain ⟨answer, f₂, hexec, hmark⟩ := Action.bind_done hinvoke
  cases hexec
  rw [Action.bind_of_done (markSoft_same rfl)] at hmark
  cases hmark
  exact ⟨rfl, rfl⟩

/-- The steps that are run for the group. -/
lemma box_runs {a : Start} (h : watchedChecks.RunsFor 2 [box] c a) :
    a = ⟨1, false, box, c⟩ ∨ a = ⟨0, false, leaf, { c with currentStep := some box }⟩ := by
  have htop {run : Step → Run StepResult} {s x : Step} {c cx : Context} {i : Nat}
      (h : StartsAt run [s] c i x cx) : x = s ∧ cx = c := by
    cases h with
    | here => exact ⟨rfl, rfl⟩
    | later _ _ next => cases next
  have hasks {block : Block} {names : List String} {f : Frame} {x : Step} {cx : Context}
      {run : Runner} : ¬Asks run block box names f x cx := by
    intro h
    induction h with
    | here bound => cases bound
    | later _ _ ih => exact ih
  obtain ⟨⟨n, nested, x, cx⟩, i, hn, rfl, started, hab⟩ := h
  obtain ⟨rfl, rfl⟩ := htop started
  cases hn
  rcases Relation.ReflTransGen.cases_head hab with rfl | ⟨⟨n, nested, y, cy⟩, hinside, hrest⟩
  · exact .inl rfl
  right
  have hlayers := hinside.layers
  cases hlayers
  have hb : (⟨0, nested, y, cy⟩ : Start) =
      ⟨0, false, leaf, { cx with currentStep := some box }⟩ := by
    cases hinside with
    | input layers nested announced known asks => exact (hasks asks).elim
    | body layers nested answered opened started =>
      cases nested
      obtain ⟨rfl, rfl⟩ := consult_box hc answered
      cases opened with
      | pass hp =>
        cases hp with
        | here begins =>
          cases begins
          obtain ⟨rfl, rfl⟩ := htop started
          rfl
        | later _ _ _ next => cases next
  rcases Relation.ReflTransGen.cases_head hrest with rfl | ⟨z, hbelow, -⟩
  · exact hb
  · cases hbelow.layers

lemma box_orderly (hk : c.shared.journal.keeps .warning = false) {a : Start}
    (h : watchedChecks.RunsFor 2 [box] c a) : a.Orderly watchedChecks := by
  have hcheck {c₁ : Context} (h : c₁.shared = c.shared) : TakesOne (do
      Assertion.handle { holds := false, message := .text "wrong total" }
      return .value .null) c₁ := by
    refine takesOne_handle fun es => ⟨_, Context.log_unkept ?_ _ _ _⟩
    change c₁.shared.journal.keeps .warning = false
    rw [h, hk]
  have htakes {block : Block} {params : Dict Value} {c₁ : Context} {type : String}
      (hb : watchedChecks.blocks.lookup type = some block) (h : c₁.shared = c.shared) :
      TakesOne (block.executor params) c₁ := by
    rcases watchedChecks_executor hb params with hexec | hexec <;> rw [hexec]
    · intro o c' h _
      cases h
      exact .inl rfl
    · exact hcheck h
  constructor
  · rcases box_runs hc h with rfl | rfl <;> exact List.nodup_nil
  · intro e hraises
    cases hraises with
    | hook listed running raised => cases raised
    | executor announced prepared raised =>
      rcases watchedChecks_executor (prepare_lookup prepared) _ with hexec | hexec <;>
        rw [hexec] at raised
      · cases raised
      · rcases Action.bind_cases raised with ⟨_, _, -, h⟩ | ⟨o, hhandle, hb⟩
        · cases h
        · obtain rfl := hb.of_failed
          rcases Assertion.handle_failed hhandle with hinternal | ⟨-, rfl⟩
          · exact hinternal.recordable
          · exact fun _ => ⟨_, rfl⟩
  · intro f block params f' announced prepared
    refine htakes (prepare_lookup prepared) ?_
    have hf (h : a.before.shared = c.shared) : f = a.fresh := by
      have hannounce := announce_box (c := a.before) (by rw [h, hc]) a.nested a.step (.blank a.step)
      exact (Prod.mk.inj (hannounce.symm.trans announced)).2.symm
    rcases box_runs hc h with rfl | rfl
    · obtain rfl := hf rfl
      cases prepared
      rfl
    · obtain rfl := hf rfl
      cases prepared
      rfl

end Box

/-- A run of a test in which assertions are soft. -/
def softSale : Context := { sale with soft := true }

theorem collected_is_marked_softSale : ∃ rs c',
    runList (watchedChecks.runWith 2 false) [box] softSale = (.done rs, c') ∧
    (Tally softSale c' rs ∨
      ∃ a, watchedChecks.RunsFor 2 [box] softSale a ∧ a.Lost watchedChecks) ∧
    (watchedChecks.Respects SameMarks → softSale.Loggable →
      ∀ a, watchedChecks.RunsFor 2 [box] softSale a → ¬a.Lost watchedChecks) := by
  obtain ⟨rs, c', h⟩ := Action.exists_done (x := runList (watchedChecks.runWith 2 false) [box])
    (s := softSale) (by decide +kernel)
  exact ⟨rs, c', h, collected_is_marked watchedChecks watchedChecks_watched 2 [box] softSale c' rs
    (fun a ha => box_orderly rfl rfl ha) h⟩

/-- The run of a test with a percent sign in its name, of which errors are logged. -/
def softHalf : Context :=
  { soft := true, testName := some "50% done", shared := { journal := { level := .error } } }

/-- Behind the percent sign the failure of the hook cannot be logged: the result of the check is
lost, and the failure that was collected has none. -/
theorem softHalf_loses_mark : softHalf.soft = true ∧ watchedChecks.Watched SameSoft ∧
    (∀ a, watchedChecks.RunsFor 2 [box] softHalf a → a.Orderly watchedChecks) ∧
    ∃ rs c', runList (watchedChecks.runWith 2 false) [box] softHalf = (.done rs, c') ∧
      ¬Tally softHalf c' rs := by
  refine ⟨rfl, watchedChecks_watched, fun a ha => box_orderly rfl rfl ha, ?_⟩
  obtain ⟨rs, c', h, hmarked⟩ := Action.exists_done_eq (s := softHalf) (b := 0)
    (x := runList (watchedChecks.runWith 2 false) [box])
    (g := fun rs => (StepResult.marked rs).length) (by decide +kernel)
  have hcollected : (runList (watchedChecks.runWith 2 false) [box] softHalf).2.softErrors.length =
      1 := by decide +kernel
  rw [h] at hcollected
  refine ⟨rs, c', h, ?_⟩
  rintro ⟨es, hes, hforall⟩
  have hlength : es.length = 1 := by
    rw [← hcollected, hes]
    rfl
  rw [hforall.length_eq, hmarked] at hlength
  cases hlength

end Machine

end BlockSuite
