import BlockSuite.Proofs.Plain
import BlockSuite.Proofs.Session.Steady
import BlockSuite.Proofs.Session.Whole

/-!
Cases are kept apart. With the blocks of the library and those of procedures, and no hooks, a case
writes nothing that all contexts share but records, unless it defines a procedure. So it leaves the
session as it was but for the journal, and every case comes to the same result whatever cases were
run before it.
-/

namespace BlockSuite

open BlockSuite.Action (KeepsAt)
open BlockSuite.Context (OnlyRecords onlyRecords_lenient)

namespace Session

open BlockSuite.Trial (Within)

variable {s s₁ s' : Session} {k : Case} {position : Option Position} {c : Context}
  {runs : List (Case × Option Position)}

/-! ### Runs of cases -/

/-- No step that is run for a case defines a procedure. -/
def DefinesNothing (s : Session) (k : Case) (position : Option Position) : Prop :=
  ∀ steps c, s.RunsIn k position steps c → ∀ a, s.machine.RunsFor Machine.maxDepth steps c a →
    a.step.type ≠ "procedure_define"

section Plain

variable (hs : s.environment.Plain)
include hs

lemma plain_impartial : s.Impartial where
  machine := hs.impartial
  beforeTest h hh := by
    rw [hs.hooks] at hh
    cases hh
  afterTest h hh := by
    rw [hs.hooks] at hh
    cases hh

/-- Without hooks there is nothing to be called around a case. -/
lemma plain_opensCase (k : Case) (c : Context) : s.opensCase k c = (.done (), c) := by
  rw [opensCase, hs.hooks]
  rfl

lemma plain_shows (k : Case) (r : TestResult) (c : Context) : s.shows k r c = (.done (), c) := by
  rw [shows, hs.hooks]
  rfl

/-- A case that defines no procedure writes nothing that all contexts share but records. -/
lemma runTrial_onlyRecords {r : TestResult}
    (h : ∀ steps c', Trial.Lists s.machine s.suite k c steps c' →
      KeepsAt OnlyRecords (s.machine.runSteps steps) c') :
    KeepsAt (Within OnlyRecords) (runTrial s k) ⟨c, r⟩ := by
  have htrans := Trial.within_trans onlyRecords_lenient
  have hhook : Trial.inContext (s.opensCase k) ⟨c, r⟩ = (.done (), ⟨c, r⟩) :=
    Trial.inContext_run (plain_opensCase hs k c)
  rw [runTrial_eq]
  refine .bind htrans (.attempt (.bind htrans ?_ fun _ t₁ hhooked => ?_)) fun outcome t₂ _ => ?_
  · exact Trial.trial_same onlyRecords_lenient fun _ _ h => by
      cases hhook.symm.trans h
      rfl
  · cases hhook.symm.trans hhooked
    exact Trial.run_keepsAt onlyRecords_lenient (fun _ => .of_eq rfl) h
  refine .bind htrans ?_ fun closed t₃ _ => .bind htrans ?_ fun _ t₄ _ => ?_
  · cases outcome with
    | ok => exact Trial.trial_same onlyRecords_lenient fun _ _ h => by cases h; rfl
    | error f =>
      refine .bind htrans (Trial.log_keepsAt onlyRecords_lenient _ _ _) fun _ _ _ => ?_
      refine .bind htrans (Trial.note_keepsAt onlyRecords_lenient _) fun _ _ _ => ?_
      exact .attempt (Trial.close_keepsAt onlyRecords_lenient _ _)
  · refine .get (.bind htrans (.attempt (Trial.inContext_keepsAt ?_)) fun shown t₅ _ => ?_)
    · refine .of_same onlyRecords_lenient.refl fun _ _ h => ?_
      exact (Prod.mk.inj ((plain_shows hs k _ _).symm.trans h)).2.symm
    · cases shown with
      | ok => exact Trial.trial_same onlyRecords_lenient fun _ _ h => by cases h; rfl
      | error f => exact Trial.log_keepsAt onlyRecords_lenient _ _ _
  · refine Trial.trial_same onlyRecords_lenient fun _ _ h => ?_
    rw [Action.lift_run] at h
    split at h <;> cases h <;> rfl

/-- A case that defines no procedure leaves nothing of the session another but records. -/
lemma runCase_leaves (free : s.DefinesNothing k position) {o : Outcome TestResult}
    (h : runCase k position s = (o, s')) (ho : o ≠ .exhausted) :
    ∃ records, s' = { s with context := s.context.withRecords records } := by
  have hsame : ∃ records, s = { s with context := s.context.withRecords records } :=
    ⟨s.context.shared.journal.records, rfl⟩
  cases hp : position.mapM (fun p => p.pick k.data) with
  | error e =>
    rw [runCase, Action.bind_of_done (Action.get_run s), hp] at h
    cases h
    exact hsame
  | ok row =>
    by_cases hready : s.setupError.isSome = true
    · rw [runCase_notRun hready hp] at h
      cases h
      exact hsame
    have hready : s.setupError = none := Option.not_isSome_iff_eq_none.mp hready
    have hlists (steps : List Step) (c : Context)
        (hlist : Trial.Lists s.machine s.suite k (s.forked k position row) steps c) :
        KeepsAt OnlyRecords (s.machine.runSteps steps) c := by
      have hruns : s.RunsIn k position steps c :=
        .list hready hp (plain_opensCase hs k _) hlist
      exact Machine.runWith_steady onlyRecords_lenient fun a ha =>
        hs.steady (free steps c hruns a ha)
    rw [runCase_run hready hp] at h
    rcases hrun : runTrial s k ⟨s.forked k position row, blank k position⟩ with ⟨o₁, t⟩
    have hkept := runTrial_onlyRecords hs (r := blank k position) hlists o₁ t hrun
    rw [hrun] at h
    cases o₁ with
    | exhausted =>
      cases h
      exact absurd rfl ho
    | done u =>
      obtain ⟨records, hshared⟩ := hkept (by simp)
      cases h
      exact ⟨records, congrArg s.sharing hshared⟩
    | failed f =>
      obtain ⟨records, hshared⟩ := hkept (by simp)
      cases h
      exact ⟨records, congrArg s.sharing hshared⟩

end Plain

/-- The sessions behind runs of cases that define no procedures: whatever the cases come to, and
whatever is written into the journal between them. -/
inductive Behind (s : Session) : List (Case × Option Position) → Session → Prop
  | start : Behind s [] s
  | next {runs : List (Case × Option Position)} {s₁ s₂ : Session} {k : Case}
    {position : Option Position} {o : Outcome TestResult} (before : Behind s runs s₁)
    (free : s₁.DefinesNothing k position) (ran : runCase k position s₁ = (o, s₂))
    (ended : o ≠ .exhausted) (records : List (Level × String)) :
    Behind s (runs ++ [(k, position)]) { s₂ with context := s₂.context.withRecords records }

lemma Behind.leaves (hs : s.environment.Plain) (h : s.Behind runs s₁) :
    ∃ records, s₁ = { s with context := s.context.withRecords records } := by
  induction h with
  | start => exact ⟨s.context.shared.journal.records, rfl⟩
  | next before free ran ended records ih =>
    obtain ⟨records', rfl⟩ := ih
    obtain ⟨_, rfl⟩ := runCase_leaves (s := { s with context := s.context.withRecords records' }) hs
      free ran ended
    exact ⟨records, rfl⟩

/-- **Cases are independent of each other.** In an environment with nothing but the blocks of the
library and those of procedures, and where no procedures are defined meanwhile, a case comes to the
same behind whatever runs of cases, in whatever order. They leave the session as it was but for the
records in its journal, with all variables, collected failures and procedures, and so does the case
unless it defines a procedure. -/
theorem runCase_independent (s : Session) (hs : s.environment.Plain)
    (runs : List (Case × Option Position)) (s₁ : Session) (behind : s.Behind runs s₁) (k : Case)
    (position : Option Position) :
    (runCase k position s₁).1 = (runCase k position s).1 ∧
    (∃ records, s₁ = { s with context := s.context.withRecords records }) ∧
    ∀ o s', s₁.DefinesNothing k position → runCase k position s₁ = (o, s') → o ≠ .exhausted →
      ∃ records, s' = { s with context := s.context.withRecords records } := by
  obtain ⟨records, rfl⟩ := behind.leaves hs
  refine ⟨runCase_agrees (plain_impartial hs) records, ⟨records, rfl⟩, ?_⟩
  intro o s' free ran ended
  obtain ⟨records', rfl⟩ :=
    runCase_leaves (s := { s with context := s.context.withRecords records }) hs free ran ended
  exact ⟨records', rfl⟩

/-! ### An example -/

/-- A case without steps that have steps inside them defines no procedure unless one of its own
steps does. -/
lemma definesNothing_of_flat
    (h : ∀ steps ∈ Trial.body s.suite k ++ [k.afterEach, s.suite.afterEach], ∀ step ∈ steps,
      s.machine.Flat step ∧ step.type ≠ "procedure_define") : s.DefinesNothing k position := by
  intro steps c hruns a ha
  obtain ⟨ready, picked, hooked, comes⟩ := hruns
  have hsteps := h steps comes.mem
  exact (hsteps a.step (ha.mem fun step hstep => (hsteps step hstep).1)).2

/-- An environment with the blocks of the library. -/
def stocked : Setup := (Environment.create {} Library.catalog none (some false) []).2

/-- A session of a depot that has something in stock. -/
def depot : Session where
  suite := { (default : Suite) with
    name := "Depot", bindings := [("stock", .plain (.bool true))] }
  environment := stocked.environment.scope
  context := { stocked.environment.scope.context [("stock", .bool true)] none
    { level := .critical } with testName := some "Depot" }

/-- A case that takes what is in stock. -/
def picking : Case :=
  { (default : Case) with
    name := "picking"
    steps := [⟨"pick", "logic_set_variable",
      [("NAME", .literal (.text "stock")), ("VALUE", .literal (.bool false))], []⟩] }

/-- A case that asserts that there is something in stock. -/
def counting : Case :=
  { (default : Case) with
    name := "counting"
    steps := [⟨"count", "logic_assert",
      [("CONDITION", .literal (.text "$\x7bstock\x7d")), ("MESSAGE", .literal (.text "sold out"))],
      []⟩] }

/-- The depot is that of a session which has been started. -/
lemma depot_starts : Session.start stocked depot.suite [] { level := .critical } =
    (.done depot, []) := rfl

lemma depot_plain : depot.environment.Plain :=
  start_plain (Environment.create_plain _ _) depot_starts

lemma picking_definesNothing : depot.DefinesNothing picking none := by
  have hlookup : depot.machine.blocks.lookup "logic_set_variable" = some Library.setVariable := rfl
  refine definesNothing_of_flat fun steps hsteps step hstep => ?_
  have hlists : Trial.body depot.suite picking ++ [picking.afterEach, depot.suite.afterEach] =
      [[], [], picking.steps, [], []] := rfl
  rw [hlists] at hsteps
  obtain rfl : step = ⟨"pick", "logic_set_variable",
      [("NAME", .literal (.text "stock")), ("VALUE", .literal (.bool false))], []⟩ := by
    simp only [List.mem_cons, List.not_mem_nil, or_false] at hsteps
    rcases hsteps with rfl | rfl | rfl | rfl | rfl
    · cases hstep
    · cases hstep
    · exact List.mem_singleton.mp hstep
    · cases hstep
    · cases hstep
  refine ⟨⟨fun name x h => ?_, fun block known params c s c' h => ?_⟩, by decide⟩
  · have hmem := Dict.mem_of_get? h
    simp at hmem
  · cases hlookup.symm.trans known
    obtain ⟨_, c₁, -, h⟩ := Action.bind_done h
    obtain ⟨_, c₂, -, h⟩ := Action.bind_done h
    cases h

/-- The count comes to the same behind the pick, which has taken its own copy of what is in stock.
-/
theorem runCase_independent_depot : ∃ o s₁ r s₂, runCase picking none depot = (o, s₁) ∧
    o ≠ .exhausted ∧ depot.DefinesNothing picking none ∧ depot.environment.Plain ∧
    runCase counting none s₁ = (.done r, s₂) ∧ r.status = .passed ∧
    (runCase counting none s₁).1 = (runCase counting none depot).1 := by
  obtain ⟨r₁, s₁, h₁⟩ := Action.exists_done (x := runCase picking none) (s := depot)
    (by decide +kernel)
  have hcount : (runCase counting none depot).1.ended.toOption.map (·.status) = some .passed := by
    decide +kernel
  have hbehind := Behind.next .start picking_definesNothing h₁ (by simp)
    s₁.context.shared.journal.records
  have hsame := (runCase_independent depot depot_plain _ s₁ hbehind counting none).1
  have hcount₁ : (runCase counting none s₁).1.ended.toOption.map (·.status) = some .passed := by
    rw [hsame]
    exact hcount
  obtain ⟨r, s₂, h₂, hpassed⟩ := Action.exists_done_eq hcount₁
  exact ⟨_, s₁, r, s₂, h₁, by simp, picking_definesNothing, depot_plain, h₂, hpassed, hsame⟩

end Session

end BlockSuite
