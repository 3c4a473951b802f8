import BlockSuite.Collection
import BlockSuite.Proofs.Machine.Observed
import BlockSuite.Proofs.Session.Isolation
import BlockSuite.Proofs.Session.Shape

/-!
Collections against runs of whole suites. A collection runs the cases of a file one by one, with a
report of each, where a run of the whole suite gives results. Both do the same to the session, but
that a run of the whole suite also logs how its cases have ended. Where nothing that runs looks at
the journal, the reports therefore say of each case what its result says.
-/

namespace BlockSuite

open BlockSuite.Action (Agree Congruent)
open BlockSuite.Context (Journaled Likeness)

lemma Context.journaled_likeness_shared : Likeness.Shared Journaled where
  toLikeness := Context.journaled_likeness
  settled := by rintro c _ ⟨rs, ns, rfl⟩; exact ⟨rs, ns, rfl⟩
  forked := by rintro c _ ⟨rs, ns, rfl⟩ _ _ _ _ _; exact ⟨rs, ns, rfl⟩
  shared := by rintro b _ c _ ⟨_, _, rfl⟩ ⟨rs, ns, rfl⟩; exact ⟨rs, ns, rfl⟩

/-! ### Sessions beside each other -/

namespace Session

variable {s s' t : Session} {k : Case} {position : Option Position} {r : TestResult}
  {rs : List TestResult}

/-- Nothing that is attached to a session looks at the journal: neither executors nor hooks. -/
structure Oblivious (s : Session) : Prop extends s.machine.Oblivious where
  afterStep : ∀ h ∈ s.environment.hooks, ∀ f, h.afterStep = some f →
    ∀ step r, Congruent Journaled (f step r)
  artifact : ∀ hook, s.machine.artifact = some hook →
    ∀ step f, Congruent Journaled (hook step f)
  beforeTest : ∀ h ∈ s.environment.hooks, ∀ f, h.beforeTest = some f →
    ∀ k, Congruent Journaled (f k)
  afterTest : ∀ h ∈ s.environment.hooks, ∀ f, h.afterTest = some f →
    ∀ k r, Congruent Journaled (f k r)
  afterAll : ∀ h ∈ s.environment.hooks, ∀ f, h.afterAll = some f →
    ∀ suite, Congruent Journaled (f suite)

lemma Oblivious.even (h : s.Oblivious) : s.Even Journaled where
  machine :=
    { beforeStep := h.beforeStep
      afterStep := h.afterStep
      artifact := h.artifact
      executor := fun type block known params c d hcd _ =>
        (h.executor type block known params c d hcd).mono fun a _ heq => heq ▸ .refl a }
  beforeTest := h.beforeTest
  afterTest := h.afterTest

lemma Oblivious.congr (h : s.Oblivious) (hs : s.Same s') : s'.Oblivious := by
  obtain ⟨suite, environment, context, setupError⟩ := s
  obtain ⟨suite', environment', context', setupError'⟩ := s'
  obtain ⟨-, rfl : environment' = environment⟩ := hs
  exact { h with }

/-- The blocks of the library and those of procedures do not look at the journal. -/
lemma oblivious_of_plain (he : s.environment.Plain) : s.Oblivious := by
  have hhooks {h : Hooks} (hh : h ∈ s.environment.hooks) : False := by
    rw [he.hooks] at hh
    cases hh
  exact
    { executor := fun type block hb params => by
        rcases (he.blocks type block hb).2 with hmem | ⟨p, category, rfl⟩
        · exact Library.catalog_oblivious hmem params
        · exact .pure _
      beforeStep := fun _ hh => (hhooks hh).elim
      afterStep := fun _ hh => (hhooks hh).elim
      artifact := fun hook hk => by
        change s.environment.artifact = _ at hk
        rw [he.artifact] at hk
        cases hk
      beforeTest := fun _ hh => (hhooks hh).elim
      afterTest := fun _ hh => (hhooks hh).elim
      afterAll := fun _ hh => (hhooks hh).elim }

/-- Two sessions that differ in nothing but what is written in the journal. -/
abbrev Noted (s t : Session) : Prop := s.Beside Journaled t

lemma Noted.refl (s : Session) : s.Noted s := ⟨Journaled.refl _, rfl⟩

lemma Noted.trans {u : Session} (h : s.Noted t) (h' : t.Noted u) : s.Noted u := by
  obtain ⟨hcontext, hrest⟩ := h
  obtain ⟨hcontext', hrest'⟩ := h'
  exact ⟨hcontext.trans hcontext', by rw [hrest', hrest]⟩

lemma Noted.same (h : s.Noted t) : s.Same t := by
  rw [h.rest]
  exact ⟨rfl, rfl⟩

lemma Noted.setupError (h : s.Noted t) : t.setupError = s.setupError := by rw [h.rest]

/-- To tell how a case has ended is to write into the journal. -/
lemma telling_noted (s : Session) (r : TestResult) : s.Noted (s.telling r) := by
  obtain ⟨records, htold⟩ := (tell_run r s).2
  rw [htold]
  exact ⟨Context.journaled_withRecords s.context records, rfl⟩

lemma tellingAll_noted (s : Session) (rs : List TestResult) : s.Noted (s.tellingAll rs) := by
  induction rs generalizing s with
  | nil => exact .refl s
  | cons r rest ih => exact (telling_noted s r).trans (ih _)

/-- The phase after all cases ends alike whatever is written in the journal. -/
lemma afterAll_noted (hs : s.Oblivious) (h : s.Noted t) : (afterAll t).1 = (afterAll s).1 := by
  have hagree : Agree (Beside Journaled) Eq (runPhase "after_all" s.suite.afterAll Hooks.afterAll) s
      (runPhase "after_all" s.suite.afterAll Hooks.afterAll) t :=
    runPhase_beside Context.journaled_likeness_shared hs.even hs.afterAll h
  have hphase (u : Session) : afterAll u =
      runPhase "after_all" u.suite.afterAll Hooks.afterAll u := rfl
  rw [hphase, hphase, h.same.suite]
  exact hagree.outcome.eq.symm

end Session

namespace Collection

open BlockSuite.Session (Beside Noted Shape)

variable (path : String) {p : Progress} {k : Case} {row : Option Position} {s s' s₁ : Session}
  {runs : List (Case × Option Position)}

/-! ### Items one by one -/

/-- Where the item of a run of a case is found. -/
def nodeOf (path : String) (run : Case × Option Position) : String :=
  path ++ "::" ++ run.1.runName run.2

/-- A report of a case without tags. -/
def item (path : String) (run : Case × Option Position) (phase : Phase) (status : Status)
    (text : Option String) : Report :=
  { node := nodeOf path run, phase, status, text, tags := [] }

/-- The phase before all cases was run, and nothing broke off. -/
structure Progress.Running (p : Progress) : Prop where
  isOpen : p.isOpen = true
  whole : p.isBroken = false

/-- What keeps cases from being run: the phase before all cases came to no end, or it failed. -/
def Progress.barrier (path : String) (p : Progress) : Option (Phase × String) :=
  match p.fault, p.session.setupError with
  | some text, _ => some (.setup, text)
  | none, some r => some (.call, failureText path r)
  | none, none => none

/-- A case without tags is run behind the phase before all cases, unless something keeps it from
that; then it fails. -/
lemma runCase_untagged (ht : k.tags = []) (hp : p.isBroken = false) :
    runCase path p k row =
      match p.opened.barrier path with
      | some (phase, text) => { p.opened with
          reports := p.opened.reports ++ [item path (k, row) phase .failed (some text)] }
      | none => { p.opened with
          session := (Session.runCase k row p.opened.session).2
          reports := p.opened.reports ++ [item path (k, row) .call
            (outcome path (Session.runCase k row p.opened.session).1).1
            (outcome path (Session.runCase k row p.opened.session).1).2] } := by
  have hstatus (status : Status) :
      (if status == .failed then failureStatus [] else status) = status := by
    cases status <;> rfl
  rw [runCase, ht, hp]
  simp only [isBarred, List.contains_nil, Bool.or_self, Bool.false_eq_true, if_false, hstatus,
    Progress.barrier]
  cases p.opened.fault with
  | some text => rfl
  | none =>
    cases p.opened.session.setupError with
    | some r => rfl
    | none => rfl

lemma Progress.Running.opened (hp : p.Running) : p.opened = p := if_pos hp.isOpen

lemma running_opened (hp : p.isBroken = false) : p.opened.Running := by
  rw [Progress.opened]
  split
  · next h => exact ⟨h, hp⟩
  · exact ⟨rfl, hp⟩

lemma runCase_barred (ht : k.tags = []) (hp : p.Running) {phase : Phase} {text : String}
    (hb : p.barrier path = some (phase, text)) : runCase path p k row =
      { p with reports := p.reports ++ [item path (k, row) phase .failed (some text)] } := by
  rw [runCase_untagged path ht hp.whole, hp.opened, hb]

lemma runCase_free (ht : k.tags = []) (hp : p.Running) (hb : p.barrier path = none)
    {o : Outcome TestResult} (h : Session.runCase k row p.session = (o, s')) :
    runCase path p k row =
      { p with
        session := s'
        reports := p.reports ++
          [item path (k, row) .call (outcome path o).1 (outcome path o).2] } := by
  rw [runCase_untagged path ht hp.whole, hp.opened, hb, h]

/-- A case adds one report, and the phase before all cases is not run again. -/
lemma runCase_running (row : Option Position) (ht : k.tags = []) (hp : p.Running) :
    (runCase path p k row).Running ∧ ∃ report, report.node = nodeOf path (k, row) ∧
      (runCase path p k row).reports = p.reports ++ [report] := by
  cases hb : p.barrier path with
  | some b =>
    rw [runCase_barred path ht hp hb]
    exact ⟨⟨hp.isOpen, hp.whole⟩, item path (k, row) _ _ _, rfl, rfl⟩
  | none =>
    rw [runCase_free path ht hp hb rfl]
    exact ⟨⟨hp.isOpen, hp.whole⟩, item path (k, row) _ _ _, rfl, rfl⟩

/-- A report says of a case what its result says: that it has passed, that it was skipped, or that
it has failed. -/
structure Mirrors (report : Report) (r : TestResult) : Prop where
  phase : report.phase = .call
  passed : report.status = .passed ↔ r.status = .passed
  skipped : report.status = .skipped ↔ r.status = .skipped
  failed : report.status = .failed ↔ r.status = .failed ∨ r.status = .error

lemma item_mirrors (run : Case × Option Position) (r : TestResult) : Mirrors
    (item path run .call (outcome path (.done r)).1 (outcome path (.done r)).2) r := by
  refine ⟨rfl, ?_, ?_, ?_⟩ <;>
  · change (outcome path (.done r)).1 = _ ↔ _
    cases hstatus : r.status <;> simp [outcome, Outcome.ended, hstatus]

/-! ### All items of a file -/

/-- The progress behind the runs of some cases. -/
def runEach (path : String) (p : Progress) (runs : List (Case × Option Position)) : Progress :=
  runs.foldl (fun p run => runCase path p run.1 run.2) p

section Untagged

variable (ht : ∀ run ∈ runs, run.1.tags = [])
include ht

lemma runEach_running (hp : p.Running) :
    (runEach path p runs).Running ∧ ∃ calls, calls.map (·.node) = runs.map (nodeOf path) ∧
      (runEach path p runs).reports = p.reports ++ calls := by
  induction runs generalizing p with
  | nil => exact ⟨hp, [], rfl, (List.append_nil _).symm⟩
  | cons run rest ih =>
    obtain ⟨hrun, report, hnode, hreports⟩ :=
      runCase_running path run.2 (ht run List.mem_cons_self) hp
    obtain ⟨hrest, calls, hnodes, hcalls⟩ := ih (fun r hr => ht r (List.mem_cons_of_mem _ hr)) hrun
    refine ⟨hrest, report :: calls, by rw [List.map_cons, List.map_cons, hnode, hnodes], ?_⟩
    change (runEach path (runCase path p run.1 run.2) rest).reports = _
    rw [hcalls, hreports, List.append_assoc, List.singleton_append]

/-- The phase before all cases is run in front of the first one. -/
lemma runEach_opened (hruns : runs ≠ []) (hp : p.isBroken = false) :
    runEach path p runs = runEach path p.opened runs := by
  cases runs with
  | nil => exact absurd rfl hruns
  | cons run rest =>
    have hopened := running_opened hp
    have hfirst : runCase path p run.1 run.2 = runCase path p.opened run.1 run.2 := by
      rw [runCase_untagged path (ht run List.mem_cons_self) hp,
        runCase_untagged path (ht run List.mem_cons_self) hopened.whole, hopened.opened]
    change runEach path (runCase path p run.1 run.2) rest =
      runEach path (runCase path p.opened run.1 run.2) rest
    rw [hfirst]

/-- Where something keeps cases from being run, all of them fail. -/
lemma runEach_barred (hp : p.Running) {phase : Phase} {text : String}
    (hb : p.barrier path = some (phase, text)) : runEach path p runs =
      { p with
        reports := p.reports ++ runs.map fun run => item path run phase .failed (some text) } := by
  induction runs generalizing p with
  | nil => simp [runEach]
  | cons run rest ih =>
    change runEach path (runCase path p run.1 run.2) rest = _
    rw [runCase_barred path (ht run List.mem_cons_self) hp hb]
    have hp' : Progress.Running { p with
        reports := p.reports ++ [item path run phase .failed (some text)] } :=
      ⟨hp.isOpen, hp.whole⟩
    have hrest := ih (fun r hr => ht r (List.mem_cons_of_mem _ hr)) hp' hb
    rw [hrest]
    simp

/-- **Cases that are run one by one are reported as their results say**, up to the first that comes
to none: that one is reported to have failed. -/
lemma runEach_mirrors (hp : p.Running) (hf : p.fault = none) (hr : p.session.setupError = none)
    (hs : p.session.Oblivious) (hnoted : p.session.Noted s) {o : Outcome (List TestResult)}
    (h : Session.runCases runs s = (o, s')) (ho : o ≠ .exhausted) :
    ∃ calls, (runEach path p runs).reports = p.reports ++ calls ∧
      ((∃ rs, o = .done rs ∧ List.Forall₂ Mirrors calls rs ∧
          (runEach path p runs).session.Noted s') ∨
        (∃ f, o = .failed f) ∧ ∃ call ∈ calls, call.status = .failed) := by
  induction runs generalizing p s o with
  | nil =>
    cases h
    exact ⟨[], (List.append_nil _).symm, .inl ⟨[], rfl, .nil, hnoted⟩⟩
  | cons run rest ih =>
    obtain ⟨k, row⟩ := run
    have hk : k.tags = [] := ht _ List.mem_cons_self
    have hrest := fun run hr => ht run (List.mem_cons_of_mem (k, row) hr)
    have hbarrier : p.barrier path = none := by rw [Progress.barrier, hf, hr]
    have hagree : Agree (Beside Journaled) Eq (Session.runCase k row) p.session
        (Session.runCase k row) s :=
      Session.runCase_beside Context.journaled_likeness_shared hs.even hnoted
    rw [Session.runCases_cons] at h
    rcases hagree.cases with ⟨r, t, _, s₁, hleft, hright, rfl, hnoted₁⟩ |
      ⟨e, t, s₁, hleft, hright, -⟩ | ⟨t, s₁, hleft, hright, -⟩
    · rw [Action.bind_of_done hright, Action.bind_of_done (Session.tell_run r s₁).1] at h
      let report := item path (k, row) .call (outcome path (.done r)).1 (outcome path (.done r)).2
      let p₁ : Progress := { p with session := t, reports := p.reports ++ [report] }
      have hrun : runCase path p k row = p₁ := runCase_free path hk hp hbarrier hleft
      have hready : t.setupError = none := by
        rw [Session.runCase_shares hleft]
        exact hr
      have hoblivious := hs.congr (Session.same_sharing (Session.runCase_shares hleft))
      have hbehind : t.Noted (s₁.telling r) :=
        Session.Noted.trans hnoted₁ (Session.telling_noted s₁ r)
      have hp₁ : p₁.Running := ⟨hp.isOpen, hp.whole⟩
      have hreports {calls : List Report}
          (h : (runEach path p₁ rest).reports = p₁.reports ++ calls) :
          (runEach path p ((k, row) :: rest)).reports = p.reports ++ report :: calls := by
        change (runEach path (runCase path p k row) rest).reports = _
        rw [hrun, h, List.append_assoc, List.singleton_append]
      rcases Action.bind_cases h with ⟨rs, s₂, hruns, h⟩ | ⟨o', hruns, hb⟩
      · cases h
        obtain ⟨calls, hcalls, hrest⟩ := ih hrest hp₁ hf hready hoblivious hbehind hruns (by simp)
        refine ⟨report :: calls, hreports hcalls, ?_⟩
        rcases hrest with ⟨_, hrs, hmirrors, hlast⟩ | ⟨⟨_, hfailed⟩, -⟩
        · cases hrs
          refine .inl ⟨_, rfl, .cons (item_mirrors path (k, row) r) hmirrors, ?_⟩
          change (runEach path (runCase path p k row) rest).session.Noted _
          rw [hrun]
          exact hlast
        · cases hfailed
      · obtain ⟨calls, hcalls, hrest⟩ :=
          ih hrest hp₁ hf hready hoblivious hbehind hruns (hb.ne_exhausted ho)
        refine ⟨report :: calls, hreports hcalls, ?_⟩
        rcases hrest with ⟨_, hrs, -⟩ | ⟨⟨f, hfailed⟩, call, hmem, hcall⟩
        · rw [hrs] at hb
          cases hb
        · rw [hfailed] at hb
          cases hb
          exact .inr ⟨⟨f, rfl⟩, call, List.mem_cons_of_mem _ hmem, hcall⟩
    · rw [Action.bind_of_failed hright] at h
      cases h
      have hrun := runCase_free path hk hp hbarrier hleft
      obtain ⟨hrunning, -⟩ := runCase_running path row hk hp
      obtain ⟨-, calls, -, hcalls⟩ := runEach_running path hrest hrunning
      refine ⟨item path (k, row) .call .failed (some (saying e)) :: calls, ?_,
        .inr ⟨⟨e, rfl⟩, _, List.mem_cons_self, rfl⟩⟩
      change (runEach path (runCase path p k row) rest).reports = _
      rw [hcalls, hrun, List.append_assoc]
      rfl
    · rw [Action.bind_of_exhausted hright] at h
      cases h
      exact absurd rfl ho

end Untagged

/-! ### The whole file -/

lemma runs_ne_nil {suite : Suite} (h : suite.cases ≠ []) : suite.runs ≠ [] := by
  obtain ⟨k, hk⟩ := List.exists_mem_of_ne_nil _ h
  obtain ⟨row, hrow⟩ : ∃ row, row ∈ k.runs := by
    unfold Case.runs
    split
    · exact ⟨none, List.mem_singleton_self none⟩
    · next hdata =>
      have hlt : 0 < k.data.length := List.length_pos_iff.mpr (by simpa using hdata)
      exact ⟨_, List.mem_map_of_mem (List.mem_range.mpr hlt)⟩
  exact List.ne_nil_of_mem (List.mem_flatMap.mpr ⟨k, hk, List.mem_map_of_mem hrow⟩)

/-- What the phase before all cases leaves is what the first case starts from. -/
lemma opened_of_done {setup : Option TestResult}
    (h : Session.beforeAll s = (.done setup, s₁)) :
    Progress.opened { session := s } = { session := s₁, isOpen := true } ∧
      s₁.setupError = setup := by
  refine ⟨by rw [Progress.opened, h]; rfl, ?_⟩
  obtain ⟨s₀, -, ⟨r, hr, rfl⟩ | ⟨hnone, -⟩⟩ := Session.beforeAll_cases h
  · cases hr
    rfl
  · exact absurd rfl (hnone setup)

/-- Something keeps cases from being run where the phase before all cases does not end well. -/
lemma barrier_opened (h : (Session.beforeAll s).1 ≠ .done none) :
    ∃ phase text,
      Progress.barrier path (Progress.opened { session := s }) = some (phase, text) := by
  rcases hsetup : Session.beforeAll s with ⟨(_ | r) | f | _, s₁⟩
  · rw [hsetup] at h
    exact absurd rfl h
  · obtain ⟨hopened, hready⟩ := opened_of_done hsetup
    refine ⟨.call, failureText path r, ?_⟩
    rw [hopened, Progress.barrier, hready]
  · refine ⟨.setup, saying f, ?_⟩
    rw [Progress.opened, hsetup]
    rfl
  · obtain ⟨f, hf⟩ : ∃ f, (Session.beforeAll s).1.ended = .error f := by
      rw [hsetup]
      exact ⟨_, rfl⟩
    refine ⟨.setup, saying f, ?_⟩
    simp only [Progress.opened, hf, Bool.false_eq_true, if_false, Progress.barrier]

section Items

variable (ht : ∀ run ∈ runs, run.1.tags = []) (hruns : runs ≠ [])
include ht hruns

/-- The items of a file have one report each, in their order. -/
lemma runEach_whole : (runEach path { session := s } runs).Running ∧
    (runEach path { session := s } runs).reports.map (·.node) = runs.map (nodeOf path) := by
  have hfresh : (Progress.opened { session := s }).reports = [] := rfl
  obtain ⟨hrunning, calls, hnodes, hcalls⟩ :=
    runEach_running path ht (running_opened (p := { session := s }) rfl)
  rw [runEach_opened path ht hruns rfl]
  refine ⟨hrunning, ?_⟩
  rw [hcalls, hfresh, List.nil_append, hnodes]

lemma reports_ne_nil : (runEach path { session := s } runs).reports ≠ [] := by
  intro hnil
  have hnodes : (runEach path { session := s } runs).reports.map (·.node) =
      runs.map (nodeOf path) := (runEach_whole path ht hruns).2
  rw [hnil, List.map_nil] at hnodes
  exact hruns (List.map_eq_nil_iff.mp hnodes.symm)

/-- Where the phase before all cases does not end well, nothing else is run, and every item
fails. -/
lemma runEach_kept (h : (Session.beforeAll s).1 ≠ .done none) :
    (runEach path { session := s } runs).session = (Session.beforeAll s).2 ∧
      ∀ call ∈ (runEach path { session := s } runs).reports, call.status = .failed := by
  obtain ⟨phase, text, hbarrier⟩ := barrier_opened path h
  rw [runEach_opened path ht hruns rfl, runEach_barred path ht (running_opened rfl) hbarrier]
  refine ⟨rfl, fun call hcall => ?_⟩
  obtain ⟨run, -, rfl⟩ := List.mem_map.mp hcall
  rfl

/-- Where it does end well, each item says what the result of its case says, up to the first case
that comes to none. -/
lemma runEach_free (hs : s.Oblivious) (hsetup : Session.beforeAll s = (.done none, s₁))
    {o : Outcome (List TestResult)} (hcases : Session.runCases runs s₁ = (o, s'))
    (ho : o ≠ .exhausted) :
    (∃ rs, o = .done rs ∧ List.Forall₂ Mirrors (runEach path { session := s } runs).reports rs ∧
        (runEach path { session := s } runs).session.Noted s') ∨
      (∃ f, o = .failed f) ∧
        ∃ call ∈ (runEach path { session := s } runs).reports, call.status = .failed := by
  obtain ⟨hopened, hready⟩ := opened_of_done hsetup
  have hoblivious := hs.congr (Session.beforeAll_same hsetup)
  rw [runEach_opened path ht hruns rfl, hopened]
  have hrunning : Progress.Running { session := s₁, isOpen := true } := ⟨rfl, rfl⟩
  obtain ⟨calls, hcalls, hmirrors⟩ :=
    runEach_mirrors path ht hrunning rfl hready hoblivious (.refl s₁) hcases ho
  rw [hcalls]
  exact hmirrors

end Items

/-- **The items of a file say what the opening of a run comes to**: the phase before all cases, and
the runs of the cases. -/
lemma runEach_opening (hs : s.Oblivious) (hruns : s.suite.runs ≠ [])
    (ht : ∀ run ∈ s.suite.runs, run.1.tags = []) {o : Outcome (List TestResult)}
    (h : Session.opening s = (o, s')) (ho : o ≠ .exhausted) :
    let final := runEach path { session := s } s.suite.runs
    (∃ setup rs s₁, o = .done (setup.toList ++ rs) ∧ Session.beforeAll s = (.done setup, s₁) ∧
        (setup = none → List.Forall₂ Mirrors final.reports rs) ∧ final.session.Noted s') ∨
      (∃ f, o = .failed f) ∧ ∃ call ∈ final.reports, call.status = .failed := by
  dsimp only
  -- What keeps cases from being run is reported for each of them, and there is one.
  have hkept (hfail : (Session.beforeAll s).1 ≠ .done none) :
      ∃ call ∈ (runEach path { session := s } s.suite.runs).reports, call.status = .failed := by
    obtain ⟨call, hcall⟩ := List.exists_mem_of_ne_nil _ (reports_ne_nil path ht hruns)
    exact ⟨call, hcall, (runEach_kept path ht hruns hfail).2 call hcall⟩
  rcases Session.opening_cases h with ⟨_ | r, s₁, rs, hsetup, hcases, rfl⟩ |
    ⟨_ | r, s₁, o', hsetup, hcases, hb⟩ | ⟨o', hsetup, hb⟩
  · rcases runEach_free path ht hruns hs hsetup hcases (by simp) with
      ⟨_, hrs, hmirrors, hlast⟩ | ⟨⟨_, hf⟩, -⟩
    · cases hrs
      exact .inl ⟨none, rs, s₁, rfl, hsetup, fun _ => hmirrors, hlast⟩
    · cases hf
  · refine .inl ⟨some r, rs, s₁, rfl, hsetup, nofun, ?_⟩
    have hready : s₁.setupError = some r := (opened_of_done hsetup).2
    have hrow : ∀ run ∈ s.suite.runs, run.2 ∈ run.1.runs := fun run hrun => (Suite.mem_runs hrun).2
    have hleft := Session.runCases_leftOut (s := s₁) (by rw [hready]; rfl) hrow
    cases hcases.symm.trans hleft
    rw [(runEach_kept path ht hruns (by rw [hsetup]; simp)).1, hsetup]
    exact Session.tellingAll_noted s₁ _
  · rcases runEach_free path ht hruns hs hsetup hcases (hb.ne_exhausted ho) with
      ⟨_, rfl, -⟩ | ⟨⟨f, rfl⟩, hfails⟩
    · cases hb
    · cases hb
      exact .inr ⟨⟨f, rfl⟩, hfails⟩
  · cases hb with
    | failed f => exact .inr ⟨⟨f, rfl⟩, hkept (by rw [hsetup]; simp)⟩
    | exhausted => exact absurd rfl ho
  · cases hb with
    | failed f => exact .inr ⟨⟨f, rfl⟩, hkept (by rw [hsetup]; simp)⟩
    | exhausted => exact absurd rfl ho

/-- **The items of a file, and the phase after all cases, say what a run of the whole suite comes
to.** Where that comes to no results, an item or the phase fails. -/
lemma runEach_suite (hs : s.Oblivious) (hruns : s.suite.runs ≠ [])
    (ht : ∀ run ∈ s.suite.runs, run.1.tags = []) {o : Outcome (List TestResult)}
    (h : Session.runSuite s = (o, s')) (ho : o ≠ .exhausted) :
    let final := runEach path { session := s } s.suite.runs
    (∃ setup rs after, o = .done (setup.toList ++ rs ++ after.toList) ∧
        s.Shape setup rs after ∧ (Session.beforeAll s).1 = .done setup ∧
        (setup = none → List.Forall₂ Mirrors final.reports rs) ∧
        (Session.afterAll final.session).1 = .done after) ∨
      (∃ f, o = .failed f) ∧ ((∃ call ∈ final.reports, call.status = .failed) ∨
        ∃ f, (Session.afterAll final.session).1 = .failed f) := by
  dsimp only
  rcases Session.runSuite_cases h with ⟨before, s₂, o₂, hopening, hafter, rfl⟩ | ⟨-, rfl⟩
  swap
  · exact absurd rfl ho
  cases before with
  | error f =>
    have hfailed : ∃ e, Session.closed (.error f) o₂ = .failed e := by
      cases o₂ with
      | done after => exact ⟨f, rfl⟩
      | failed e => exact ⟨e, rfl⟩
      | exhausted => exact absurd rfl ho
    rcases runEach_opening path hs hruns ht (Action.attempt_error hopening) (by simp)
      with ⟨_, _, _, hdone, -⟩ | ⟨-, hfails⟩
    · cases hdone
    · exact .inr ⟨hfailed, .inl hfails⟩
  | ok rs₁ =>
    have hdone := Action.attempt_ok hopening
    rcases runEach_opening path hs hruns ht hdone (by simp) with
      ⟨setup, rs, s₁, hsplit, hsetup, hmirrors, hnoted⟩ | ⟨⟨_, hf⟩, -⟩
    swap
    · cases hf
    cases hsplit
    have hoblivious := hs.congr ((Session.opening_same hdone).trans hnoted.same.symm)
    have hfinal := Session.afterAll_noted hoblivious hnoted
    rw [hafter] at hfinal
    cases o₂ with
    | exhausted => exact absurd rfl ho
    | failed f => exact .inr ⟨⟨f, rfl⟩, .inr ⟨f, hfinal.symm⟩⟩
    | done after =>
      obtain ⟨_, _, _, hsplit, hshape, hsetup', -⟩ := Session.shape_of_done hdone hafter
      cases hsetup.symm.trans hsetup'
      cases List.append_cancel_left hsplit
      exact .inl ⟨setup, rs, after, rfl, hshape, by rw [hsetup], hmirrors, hfinal.symm⟩

/-- What is reported of the phase after all cases. -/
def closing (path : String) (report : String → Report) :
    Except Failure (Option TestResult) → List Report
  | .error f => [report (saying f)]
  | .ok (some r) => [report ("AssertionError: " ++ failureText path r)]
  | .ok none => []

/-- What is reported of a file: its items, and the phase after all cases if that has not ended
without a result. -/
lemma runMember_running {m : Member} (hruns : m.session.suite.runs ≠ [])
    (ht : ∀ run ∈ m.session.suite.runs, run.1.tags = [])
    (hp : (runEach m.path { session := m.session } m.session.suite.runs).Running) :
    ∃ teardown : Option Report,
      runMember m = ((runEach m.path { session := m.session } m.session.suite.runs).reports ++
        teardown.toList, true) ∧
      (∀ report ∈ teardown, report.phase = .teardown ∧ report.status = .failed) ∧
      (teardown = none ↔ (Session.afterAll
        (runEach m.path { session := m.session } m.session.suite.runs).session).1 =
          .done none) := by
  obtain ⟨k, row, hlast⟩ : ∃ k row, m.session.suite.runs.getLast? = some (k, row) :=
    ⟨_, _, List.getLast?_eq_getLast_of_ne_nil hruns⟩
  have htags : k.tags = [] := ht _ (List.mem_of_getLast? hlast)
  let final := runEach m.path { session := m.session } m.session.suite.runs
  let report (text : String) : Report := item m.path (k, row) .teardown .failed (some text)
  have hmember : runMember m = (final.reports ++
      (if final.isOpen && !final.isBroken then
        closing m.path report (Session.afterAll final.session).1.ended
      else []), !final.isBroken) := by
    rw [runMember]
    simp only [hlast, htags]
    rfl
  have hfails (text : String) :
      ∀ x ∈ some (report text), x.phase = .teardown ∧ x.status = .failed := by
    intro x hx
    rw [← Option.mem_some_iff.mp hx]
    exact ⟨rfl, rfl⟩
  have hopen : (final.isOpen && !final.isBroken) = true := by rw [hp.isOpen, hp.whole]; rfl
  rw [if_pos hopen, show final.isBroken = false from hp.whole] at hmember
  rcases hafter : (Session.afterAll final.session).1 with (_ | r) | f | _
  · rw [hafter] at hmember
    exact ⟨none, hmember, nofun, by simp⟩
  · rw [hafter] at hmember
    exact ⟨some _, hmember, hfails _, by simp⟩
  · rw [hafter] at hmember
    exact ⟨some _, hmember, hfails _, by simp⟩
  · rw [hafter] at hmember
    exact ⟨some _, hmember, hfails _, by simp⟩

lemma mirrors_failed {calls : List Report} {rs : List TestResult}
    (h : List.Forall₂ Mirrors calls rs) : (∃ call ∈ calls, call.status = .failed) ↔
      ∃ r ∈ rs, r.status = .failed ∨ r.status = .error := by
  induction h with
  | nil => simp
  | cons hcall _ ih => simp only [List.exists_mem_cons_iff, hcall.failed, ih]

/-- Results in their shape are as bad as the reports of them. -/
lemma verdicts_agree {setup after : Option TestResult} {rs : List TestResult} {calls : List Report}
    {teardown : Option Report} (hshape : s.Shape setup rs after) (hcalls : calls ≠ [])
    (hmirrors : setup = none → List.Forall₂ Mirrors calls rs)
    (hfails : setup ≠ none → ∀ call ∈ calls, call.status = .failed)
    (hteardown : ∀ report ∈ teardown, report.status = .failed)
    (hended : teardown = none ↔ after = none) :
    (∃ report ∈ calls ++ teardown.toList, report.status = .failed) ↔
      ∃ r ∈ setup.toList ++ rs ++ after.toList, r.status = .failed ∨ r.status = .error := by
  have hafter : (∃ report ∈ teardown.toList, report.status = .failed) ↔
      ∃ r ∈ after.toList, r.status = .failed ∨ r.status = .error := by
    cases teardown with
    | none => simp [hended.mp rfl]
    | some report =>
      cases after with
      | none => cases hended.mpr rfl
      | some r =>
        obtain ⟨steps, i, rfl⟩ := hshape.teardown r rfl
        simp [hteardown report rfl, Session.phaseError]
  cases setup with
  | none =>
    have hcases := mirrors_failed (hmirrors rfl)
    simp only [Option.toList_none, List.nil_append, List.mem_append, or_and_right, exists_or,
      hcases, hafter]
  | some r =>
    obtain ⟨steps, i, rfl⟩ := hshape.setup r rfl
    obtain ⟨call, hcall⟩ := List.exists_mem_of_ne_nil _ hcalls
    refine ⟨fun _ => ?_, fun _ => ?_⟩
    · exact ⟨s.phaseError "before_all" steps i, by simp, .inr rfl⟩
    · exact ⟨call, List.mem_append_left _ hcall, hfails (by simp) call hcall⟩

/-- **A collection and a run of the whole suite give the same verdict.** Where nothing that is
attached to a session looks at the journal, a file with cases and without tags is collected with one
report for each run of a case, in their order, and one of the phase after all cases if that fails.
If the phase before all cases does not end well, each case is reported to have failed. If the run of
the whole suite gives results, and the phase before all cases has none, each report says what the
result of the case says; and the phase after all cases is reported just if it has a result. So
something is reported to have failed just if a result has failed or is an error, and also where the
run of the whole suite fails. -/
theorem runMember_agrees (m : Member) (hs : m.session.Oblivious)
    (cases : m.session.suite.cases ≠ []) (untagged : ∀ k ∈ m.session.suite.cases, k.tags = [])
    (o : Outcome (List TestResult)) (s' : Session) (h : Session.runSuite m.session = (o, s'))
    (ho : o ≠ .exhausted) :
    ∃ calls, ∃ teardown : Option Report, runMember m = (calls ++ teardown.toList, true) ∧
      calls.map (·.node) = m.session.suite.runs.map (nodeOf m.path) ∧
      (∀ report ∈ teardown, report.phase = .teardown ∧ report.status = .failed) ∧
      ((Session.beforeAll m.session).1 ≠ .done none → ∀ call ∈ calls, call.status = .failed) ∧
      (∀ results, o = .done results → ∃ setup rs after,
        results = setup.toList ++ rs ++ after.toList ∧ m.session.Shape setup rs after ∧
        (Session.beforeAll m.session).1 = .done setup ∧
        (setup = none → List.Forall₂ Mirrors calls rs) ∧ (teardown = none ↔ after = none)) ∧
      ((∃ report ∈ calls ++ teardown.toList, report.status = .failed) ↔
        ∀ results, o = .done results → ∃ r ∈ results, r.status = .failed ∨ r.status = .error) := by
  have hruns := runs_ne_nil cases
  have ht : ∀ run ∈ m.session.suite.runs, run.1.tags = [] :=
    fun run hrun => untagged _ (Suite.mem_runs hrun).1
  let final := runEach m.path { session := m.session } m.session.suite.runs
  obtain ⟨hrunning, hnodes⟩ : final.Running ∧
      final.reports.map (·.node) = m.session.suite.runs.map (nodeOf m.path) :=
    runEach_whole m.path ht hruns
  obtain ⟨teardown, hmember, hteardown, hnone⟩ := runMember_running hruns ht hrunning
  have hkept (h : (Session.beforeAll m.session).1 ≠ .done none) :
      ∀ call ∈ final.reports, call.status = .failed := (runEach_kept m.path ht hruns h).2
  refine ⟨final.reports, teardown, hmember, hnodes, hteardown, hkept, ?_⟩
  rcases runEach_suite m.path hs hruns ht h ho with
    ⟨setup, rs, after, rfl, hshape, hsetup, hmirrors, hafter⟩ | ⟨⟨f, rfl⟩, hfails⟩
  · have hended : teardown = none ↔ after = none := by
      rw [hnone, hafter]
      simp
    refine ⟨?_, ?_⟩
    · rintro _ ⟨⟩
      exact ⟨setup, rs, after, rfl, hshape, hsetup, hmirrors, hended⟩
    · rw [verdicts_agree hshape (reports_ne_nil m.path ht hruns) hmirrors
        (fun hsome => hkept (by rw [hsetup]; simpa using hsome))
        (fun report hreport => (hteardown report hreport).2) hended]
      exact ⟨fun hbad results hresults => by cases hresults; exact hbad, fun hbad => hbad _ rfl⟩
  · have hfailed : ∃ report ∈ final.reports ++ teardown.toList, report.status = .failed := by
      rcases hfails with ⟨call, hcall, hstatus⟩ | ⟨f, hafter⟩
      · exact ⟨call, List.mem_append_left _ hcall, hstatus⟩
      · obtain ⟨report, rfl⟩ : ∃ report, teardown = some report :=
          Option.ne_none_iff_exists'.mp fun h => by cases (hnone.mp h).symm.trans hafter
        exact ⟨report, by simp, (hteardown report rfl).2⟩
    exact ⟨fun results h => (by cases h), iff_of_true hfailed fun results h => by cases h⟩

/-- A kiosk that takes one payment, skips the other and cannot be given the third; nor can it be
closed. -/
def kioskSuite : Suite :=
  { (default : Suite) with
    name := "Kiosk"
    cases :=
      [{ (default : Case) with name := "coin" },
        { (default : Case) with
          name := "card"
          steps := [⟨"skip", "lifecycle_skip_if",
            [("CONDITION", .literal (.bool true)), ("REASON", .literal (.text "no card"))], []⟩] },
        { (default : Case) with
          name := "cheque"
          steps := [⟨"refuse", "logic_fail", [("MESSAGE", .literal (.text "no cheques"))], []⟩] }]
    afterAll := [⟨"close", "logic_fail", [("MESSAGE", .literal (.text "stuck"))], []⟩] }

/-- The kiosk in an environment with the blocks of the library. -/
def kiosk : Member where
  path := "test_kiosk.blocks.yaml"
  session :=
    { suite := kioskSuite
      environment := Session.stocked.environment.scope
      context :=
        { Session.stocked.environment.scope.context [] none { level := .critical } with
          testName := some "Kiosk" } }

lemma kiosk_starts : Session.start Session.stocked kioskSuite [] { level := .critical } =
    (.done kiosk.session, []) := rfl

/-- The payments at the kiosk are reported as their results say, and so is its closing. -/
theorem runMember_agrees_kiosk : kiosk.session.Oblivious ∧ kiosk.session.suite.cases ≠ [] ∧
    (∀ k ∈ kiosk.session.suite.cases, k.tags = []) ∧
    ∃ results s' calls report rs after, Session.runSuite kiosk.session = (.done results, s') ∧
      results.map (·.status) = [.passed, .skipped, .failed, .error] ∧
      results = rs ++ [after] ∧ runMember kiosk = (calls ++ [report], true) ∧
      List.Forall₂ Mirrors calls rs ∧ report.phase = .teardown ∧ report.status = .failed := by
  have hoblivious : kiosk.session.Oblivious :=
    Session.oblivious_of_plain
      (Session.start_plain (Environment.create_plain _ _) kiosk_starts)
  have hcases : kiosk.session.suite.cases ≠ [] := by decide
  have htags : ∀ k ∈ kiosk.session.suite.cases, k.tags = [] := by decide
  obtain ⟨results, s', h, hstatus⟩ := Action.exists_done_eq (x := Session.runSuite)
    (s := kiosk.session) (g := fun rs => rs.map (·.status))
    (b := [.passed, .skipped, .failed, .error]) (by decide +kernel)
  have hopened : (Session.beforeAll kiosk.session).1 = .done none := rfl
  obtain ⟨calls, teardown, hmember, -, hteardown, -, hresults, -⟩ :=
    runMember_agrees kiosk hoblivious hcases htags _ s' h (by simp)
  obtain ⟨setup, rs, after, hsplit, hshape, hsetup, hmirrors, hended⟩ := hresults _ rfl
  cases hopened.symm.trans hsetup
  obtain ⟨r, rfl⟩ : ∃ r, after = some r := by
    have hcount : results.length = 4 := by simpa using congrArg List.length hstatus
    have hruns : rs.length = 3 := hshape.cases.length_eq.symm
    rw [hsplit] at hcount
    cases after with
    | none => simp [hruns] at hcount
    | some r => exact ⟨r, rfl⟩
  obtain ⟨report, rfl⟩ : ∃ report, teardown = some report :=
    Option.ne_none_iff_exists'.mp fun h => by cases hended.mp h
  exact ⟨hoblivious, hcases, htags, results, s', calls, report, rs, r, h, hstatus, hsplit, hmember,
    hmirrors rfl, hteardown report rfl⟩

end Collection

end BlockSuite
