import BlockSuite.Proofs.Session.Location
import BlockSuite.Proofs.Session.Phase

/-!
The run of a whole suite. It opens with the phase before all cases and the runs of the cases, one
after the other, and ends with the phase after all cases, whatever the opening comes to. Behind each
of its parts a session is what it was but for its context; a case leaves of its context only what
all contexts share.
-/

namespace BlockSuite

/-- A row that a case is run for is one that it has. -/
lemma Case.pick_runs {k : Case} {position : Option Position} (h : position ∈ k.runs) :
    ∃ row, position.mapM (fun p => p.pick k.data) = .ok row := by
  unfold Case.runs at h
  split at h
  · rw [List.mem_singleton.mp h]
    exact ⟨none, rfl⟩
  · obtain ⟨i, hi, rfl⟩ := List.mem_map.mp h
    have hlt : i < k.data.length := List.mem_range.mp hi
    have hpick : (Position.number i).pick k.data = .ok k.data[i] := by
      have hindex : ¬(Position.number i).index < 0 := by
        change ¬(i : Int) < 0
        omega
      have hat : k.data[(Position.number i).index.toNat]? = some k.data[i] :=
        List.getElem?_eq_getElem hlt
      simp only [Position.pick, if_neg hindex, hat]
    refine ⟨some k.data[i], ?_⟩
    change (do return some (← (Position.number i).pick k.data) : Except Fault _) = _
    rw [hpick]
    rfl

lemma Suite.mem_runs {suite : Suite} {run : Case × Option Position} (h : run ∈ suite.runs) :
    run.1 ∈ suite.cases ∧ run.2 ∈ run.1.runs := by
  obtain ⟨k, hk, h⟩ := List.mem_flatMap.mp h
  obtain ⟨i, hi, rfl⟩ := List.mem_map.mp h
  exact ⟨hk, hi⟩

namespace Session

variable {s s' s₁ s₂ : Session} {k : Case} {position : Option Position} {r : TestResult}
  {name : String} {steps : List Step} {event : Hooks → Option (Suite → Run Unit)} {c c' : Context}
  {runs : List (Case × Option Position)} {rs : List TestResult} {f : Failure}

/-! ### What the parts of a run leave -/

/-- A session of which only what all contexts share is another. -/
def sharing (s : Session) (shared : Shared) : Session :=
  { s with context := { s.context with shared } }

/-- A session behind some other one, of which only the context is another. -/
def Continues (s s' : Session) : Prop := s' = { s with context := s'.context }

lemma inContext_run {α : Type} {x : Run α} {o : Outcome α} (h : x s.context = (o, c)) :
    inContext x s = (o, { s with context := c }) := by
  simp only [inContext, Action.zoom, h]

/-- A case leaves of its context only what all contexts share. -/
lemma runCase_shares {o : Outcome TestResult} (h : runCase k position s = (o, s')) :
    s' = s.sharing s'.context.shared := by
  cases hp : position.mapM (fun p => p.pick k.data) with
  | error e =>
    rw [runCase, Action.bind_of_done (Action.get_run s), hp] at h
    cases h
    rfl
  | ok row =>
    cases hs : s.setupError with
    | some e =>
      rw [runCase_notRun (by simp [hs]) hp] at h
      cases h
      rfl
    | none =>
      rw [runCase_run hs hp] at h
      rcases hrun : runTrial s k ⟨s.forked k position row, blank k position⟩ with ⟨o₁, t⟩
      rw [hrun] at h
      cases o₁ <;> cases h <;> rfl

/-- The lists of steps that a run of a case comes to, and the contexts they are run in. -/
inductive RunsIn (s : Session) (k : Case) (position : Option Position) :
    List Step → Context → Prop
  | list {row : Option Row} {c₀ c : Context} {steps : List Step} (ready : s.setupError = none)
    (picked : position.mapM (fun p => p.pick k.data) = .ok row)
    (hooked : s.opensCase k (s.forked k position row) = (.done (), c₀))
    (comes : Trial.Lists s.machine s.suite k c₀ steps c) : RunsIn s k position steps c

/-- Logs how a case has ended. -/
def tell (r : TestResult) : Act Unit :=
  inContext
    (Context.logUnder (.ok "") .info "Test %s %s" [.text r.testName, .text r.status.name])

/-- A session behind the record of how a case has ended. -/
def telling (s : Session) (r : TestResult) : Session := (tell r s).2

/-- How a case has ended can always be logged. -/
lemma tell_run (r : TestResult) (s : Session) : tell r s = (.done (), s.telling r) ∧
    ∃ records, s.telling r = s.sharing (s.context.withRecords records).shared := by
  have hrender : (Message.render ("" ++ "Test %s %s")
      [.text r.testName, .text r.status.name]).isOk = true := rfl
  obtain ⟨c, hc⟩ := Context.logUnder_done hrender s.context
  obtain ⟨records, rfl⟩ := Context.logUnder_leaves hc
  have htell : tell r s = (.done (), { s with context := s.context.withRecords records }) :=
    inContext_run hc
  have hstate : s.telling r = { s with context := s.context.withRecords records } :=
    congrArg Prod.snd htell
  exact ⟨htell.trans (by rw [hstate]), records, hstate⟩

/-! ### Cases one after the other -/

/-- The runs of cases that are come to one after the other, and the sessions they start in. -/
inductive Turns : List (Case × Option Position) → Session → Case → Option Position → Session → Prop
  | here (k : Case) (position : Option Position) (rest : List (Case × Option Position))
    (s : Session) : Turns ((k, position) :: rest) s k position s
  | later {k k' : Case} {position position' : Option Position}
    {rest : List (Case × Option Position)} {r : TestResult} {s s₁ s₂ : Session}
    (ran : runCase k position s = (.done r, s₁))
    (next : Turns rest (s₁.telling r) k' position' s₂) :
    Turns ((k, position) :: rest) s k' position' s₂

lemma runCases_cons (k : Case) (position : Option Position)
    (rest : List (Case × Option Position)) : runCases ((k, position) :: rest) =
      (do
        let r ← runCase k position
        tell r
        return r :: (← runCases rest)) := rfl

/-- The results of some cases are those of their runs, in their order. -/
lemma runCases_done (h : runCases runs s = (.done rs, s')) :
    List.Forall₂ (fun run r => ∃ s₁ s₂, Turns runs s run.1 run.2 s₁ ∧
      runCase run.1 run.2 s₁ = (.done r, s₂)) runs rs := by
  induction runs generalizing s rs with
  | nil =>
    cases h
    exact .nil
  | cons run rest ih =>
    obtain ⟨k, position⟩ := run
    rw [runCases_cons] at h
    obtain ⟨r, s₁, hrun, h⟩ := Action.bind_done h
    rw [Action.bind_of_done (tell_run r s₁).1] at h
    obtain ⟨rs', s₂, hrest, h⟩ := Action.bind_done h
    cases h
    refine .cons ⟨s, s₁, .here k position rest s, hrun⟩ ?_
    exact (ih hrest).imp fun run r ⟨s₃, s₄, hturn, hran⟩ => ⟨s₃, s₄, .later hrun hturn, hran⟩

/-- Where the runs of some cases fail, one of them does, and none is run behind it. -/
lemma runCases_failed (h : runCases runs s = (.failed f, s')) :
    ∃ k position s₁, Turns runs s k position s₁ ∧
      runCase k position s₁ = (.failed f, s') := by
  induction runs generalizing s with
  | nil => cases h
  | cons run rest ih =>
    obtain ⟨k, position⟩ := run
    rw [runCases_cons] at h
    rcases Action.bind_cases h with ⟨r, s₁, hrun, h⟩ | ⟨o, hrun, hb⟩
    · rw [Action.bind_of_done (tell_run r s₁).1] at h
      obtain ⟨o, h, hv⟩ := Action.bind_valued (fun _ _ => ⟨_, rfl⟩) h
      obtain rfl := hv.of_failed
      obtain ⟨k', position', s₂, hturn, hran⟩ := ih h
      exact ⟨k', position', s₂, .later hrun hturn, hran⟩
    · obtain rfl := hb.of_failed
      exact ⟨k, position, s, .here k position rest s, hrun⟩

/-- Every case starts in what the session was, but for what all contexts share. -/
lemma Turns.shares (h : Turns runs s k position s₁) : s₁ = s.sharing s₁.context.shared := by
  induction h with
  | here => rfl
  | @later k k' position position' rest r s s₁ s₂ ran next ih =>
    obtain ⟨records, htold⟩ := (tell_run r s₁).2
    rw [ih, htold, runCase_shares ran]
    rfl

lemma Turns.mem (h : Turns runs s k position s₁) : (k, position) ∈ runs := by
  induction h with
  | here => exact List.mem_cons_self
  | later _ _ ih => exact List.mem_cons_of_mem _ ih

lemma runCases_continues {o : Outcome (List TestResult)} (h : runCases runs s = (o, s')) :
    s' = s.sharing s'.context.shared := by
  induction runs generalizing s o with
  | nil =>
    cases h
    rfl
  | cons run rest ih =>
    obtain ⟨k, position⟩ := run
    rw [runCases_cons] at h
    rcases Action.bind_cases h with ⟨r, s₁, hrun, h⟩ | ⟨o', hrun, -⟩
    · rw [Action.bind_of_done (tell_run r s₁).1] at h
      obtain ⟨o, h, -⟩ := Action.bind_valued (fun _ _ => ⟨_, rfl⟩) h
      obtain ⟨records, htold⟩ := (tell_run r s₁).2
      rw [ih h, htold, runCase_shares hrun]
      rfl
    · exact runCase_shares hrun

/-! ### Phases -/

/-- A phase that ends leaves the session as it was but for its context. Where its hooks fail, none
of its steps is run: it ends as it would with any others. -/
lemma runPhase_cases {o : Outcome (Option TestResult)} (h : runPhase name steps event s = (o, s')) :
    s.Continues s' ∧
    ((∃ c₀, s.opens event s.context = (.done (), c₀) ∧ s.PhaseEnd name steps c₀ o s'.context) ∨
    (∃ f c₁, s.opens event s.context = (.failed f, c₁) ∧
      s.concludePhase name (.error f) c₁ = (o, s'.context) ∧
      ∀ steps', runPhase name steps' event s = (o, s')) ∨
    o = .exhausted) := by
  rcases hopen : s.opens event s.context with ⟨⟨⟩ | f | _, c₁⟩
  · obtain ⟨hend, hs⟩ := runPhase_ends hopen h
    exact ⟨hs, .inl ⟨c₁, rfl, hend⟩⟩
  · have hrun (steps' : List Step) : runPhase name steps' event s =
        inContext (fun _ => s.concludePhase name (.error f) c₁) s := by
      have hattempt : (do
          s.opens event
          s.machine.runSteps steps' : Run (List StepResult)) s.context = (.failed f, c₁) :=
        Action.bind_of_failed hopen _
      rw [runPhase_eq]
      simp only [inContext, Action.zoom, Action.bind_of_done (Action.attempt_of_failed hattempt)]
    rcases hend : s.concludePhase name (.error f) c₁ with ⟨o₁, c₂⟩
    have hphase : inContext (fun _ => s.concludePhase name (.error f) c₁) s =
        (o₁, { s with context := c₂ }) := inContext_run hend
    rw [hrun, hphase] at h
    cases h
    exact ⟨rfl, .inr (.inl ⟨f, c₁, rfl, hend, fun steps' => (hrun steps').trans hphase⟩)⟩
  · have hattempt : (do
        s.opens event
        s.machine.runSteps steps : Run (List StepResult)) s.context = (.exhausted, c₁) :=
      Action.bind_of_exhausted hopen _
    rw [runPhase_eq] at h
    simp only [inContext, Action.zoom,
      Action.bind_of_exhausted (Action.attempt_of_exhausted hattempt)] at h
    cases h
    exact ⟨rfl, .inr (.inr rfl)⟩

/-- What becomes of the failure of the hooks of a phase: the phase ends with an error, or there is
no way to tell of it. -/
lemma concludePhase_unhooked {o : Outcome (Option TestResult)}
    (h : s.concludePhase name (.error f) c = (o, c')) :
    (∃ records, c' = c.withRecords records) ∧
    ((∃ i, f.info = .ok i ∧ o = .done (some (s.phaseError name [] i))) ∨
      ∃ e, o = .failed e ∧ (¬c.Loggable ∨ f.info = .error e)) := by
  rcases c.log_cases .error "Lifecycle %s raised an unexpected error" [.text name] rfl with
    ⟨c₁, hlog⟩ | ⟨e, c₁, hlog, hmute⟩
  · rw [concludePhase, Action.bind_of_done hlog, TestResult.finish] at h
    cases hi : f.info with
    | ok i =>
      rw [hi] at h
      cases h
      exact ⟨Context.log_leaves hlog, .inl ⟨i, rfl, rfl⟩⟩
    | error e =>
      rw [hi] at h
      cases h
      exact ⟨Context.log_leaves hlog, .inr ⟨_, rfl, .inr rfl⟩⟩
  · rw [concludePhase, Action.bind_of_failed hlog] at h
    cases h
    exact ⟨Context.log_leaves hlog, .inr ⟨e, rfl, .inl hmute⟩⟩

/-- Whatever a phase gives is an error. -/
lemma runPhase_some (h : runPhase name steps event s = (.done (some r), s')) :
    ∃ rs i, r = s.phaseError name rs i := by
  rcases (runPhase_cases h).2 with ⟨c₀, -, hend⟩ | ⟨f, c₁, -, hconclude, -⟩ | ho
  · cases hend with
    | broken => exact ⟨_, _, rfl⟩
    | escaped => exact ⟨_, _, rfl⟩
  · rcases (concludePhase_unhooked hconclude).2 with ⟨i, -, ho⟩ | ⟨e, ho, -⟩
    · cases ho
      exact ⟨_, i, rfl⟩
    · cases ho
  · cases ho

/-- The phase before all cases keeps its result. -/
lemma beforeAll_cases {o : Outcome (Option TestResult)} (h : beforeAll s = (o, s')) :
    ∃ s₁, runPhase "before_all" s.suite.beforeAll Hooks.beforeAll s = (o, s₁) ∧
      ((∃ r, o = .done r ∧ s' = { s₁ with setupError := r }) ∨ (∀ r, o ≠ .done r) ∧ s' = s₁) := by
  rw [beforeAll, Action.bind_of_done (Action.get_run s)] at h
  rcases Action.bind_cases h with ⟨r, s₁, hphase, h⟩ | ⟨o', hphase, hb⟩
  · cases h
    exact ⟨s₁, hphase, .inl ⟨r, rfl, rfl⟩⟩
  · cases hb <;> exact ⟨s', hphase, .inr ⟨by simp, rfl⟩⟩

/-! ### The whole run -/

/-- What comes before the phase after all cases: the phase before them and their runs. -/
def opening : Act (List TestResult) := do
  let setup ← beforeAll
  return setup.toList ++ (← runCases (← Action.get).suite.runs)

/-- What a run comes to, given what its opening and the phase after all cases have come to. -/
def closed : Except Failure (List TestResult) → Outcome (Option TestResult) →
    Outcome (List TestResult)
  | _, .failed f => .failed f
  | _, .exhausted => .exhausted
  | .error f, .done _ => .failed f
  | .ok rs, .done teardown => .done (rs ++ teardown.toList)

/-- **Every run ends with the phase after all cases**, whatever its opening comes to. -/
theorem runSuite_cases {o : Outcome (List TestResult)} (h : runSuite s = (o, s')) :
    (∃ before s₂ o₂, Action.attempt opening s = (.done before, s₂) ∧ afterAll s₂ = (o₂, s') ∧
      o = closed before o₂) ∨ opening s = (.exhausted, s') ∧ o = .exhausted := by
  have hsuite : runSuite = (do
      let outcome ← Action.attempt opening
      let teardown ← afterAll
      return (← Action.lift outcome) ++ teardown.toList) := rfl
  rw [hsuite] at h
  rcases hopen : opening s with ⟨rs | f | _, s₂⟩
  · rw [Action.bind_of_done (Action.attempt_of_done hopen)] at h
    refine .inl ⟨.ok rs, s₂, ?_⟩
    rcases hafter : afterAll s₂ with ⟨teardown | e | _, s₃⟩
    · rw [Action.bind_of_done hafter] at h
      cases h
      exact ⟨_, Action.attempt_of_done hopen, rfl, rfl⟩
    · rw [Action.bind_of_failed hafter] at h
      cases h
      exact ⟨_, Action.attempt_of_done hopen, rfl, rfl⟩
    · rw [Action.bind_of_exhausted hafter] at h
      cases h
      exact ⟨_, Action.attempt_of_done hopen, rfl, rfl⟩
  · rw [Action.bind_of_done (Action.attempt_of_failed hopen)] at h
    refine .inl ⟨.error f, s₂, ?_⟩
    rcases hafter : afterAll s₂ with ⟨teardown | e | _, s₃⟩
    · rw [Action.bind_of_done hafter] at h
      cases h
      exact ⟨_, Action.attempt_of_failed hopen, rfl, rfl⟩
    · rw [Action.bind_of_failed hafter] at h
      cases h
      exact ⟨_, Action.attempt_of_failed hopen, rfl, rfl⟩
    · rw [Action.bind_of_exhausted hafter] at h
      cases h
      exact ⟨_, Action.attempt_of_failed hopen, rfl, rfl⟩
  · rw [Action.bind_of_exhausted (Action.attempt_of_exhausted hopen)] at h
    cases h
    exact .inr ⟨rfl, rfl⟩

/-- A run that comes to results has come to those of its opening, and then to that of the phase
after all cases. -/
lemma runSuite_done (h : runSuite s = (.done rs, s')) :
    ∃ rs₁ s₂ teardown, Action.attempt opening s = (.done (.ok rs₁), s₂) ∧
      afterAll s₂ = (.done teardown, s') ∧ rs = rs₁ ++ teardown.toList := by
  rcases runSuite_cases h with ⟨before, s₂, o₂, hopening, hafter, hclosed⟩ | ⟨-, ho⟩
  · cases before with
    | error f => cases o₂ <;> cases hclosed
    | ok rs₁ =>
      cases o₂ with
      | done teardown =>
        cases hclosed
        exact ⟨rs₁, s₂, teardown, hopening, hafter, rfl⟩
      | failed f => cases hclosed
      | exhausted => cases hclosed
  · cases ho

end Session

end BlockSuite
