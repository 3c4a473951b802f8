import BlockSuite.Proofs.Library
import BlockSuite.Proofs.Machine.Assertion
import BlockSuite.Proofs.Machine.Ends
import BlockSuite.Proofs.Machine.Modes

/-!
Hard and soft assertions with the blocks of the library. Unless an assertion is found false, a list
of steps is run alike in both modes. With soft assertions one that is found false is collected, and
stays so to the end of the run: so where nothing was collected, none was found false.
-/

namespace BlockSuite.Machine

open BlockSuite.Action (BlindAt Keeps)
open BlockSuite.Context (Accrues)

variable {m : Machine} {steps : List Step} {f f' : Frame} {c c' : Context} {soft : Bool}

/-- A machine of blocks of the library. What watches it has nothing to do with assertions. -/
structure OfLibrary (m : Machine) : Prop extends Unconcerned m where
  blocks : ∀ type block, m.blocks.lookup type = some block → block ∈ Library.catalog

/-- The block of a step asserts a condition that is false. -/
def Start.Denies (m : Machine) (a : Start) : Prop :=
  ∃ f params f', m.announce a.nested a.step a.fresh = (.done (), f) ∧
    m.prepare (a.inner m) a.step f = (.done (Library.assertThat, params), f') ∧
    (Library.input params "CONDITION").toBool = false

/-! ### What is collected -/

lemma accrues_harmless : Harmless (.keeping Accrues) where
  refl _ := ⟨rfl, Nat.le_refl _⟩
  trans _ _ _ h h' := ⟨h'.mode.trans h.mode, Nat.le_trans h.kept h'.kept⟩
  records _ _ := ⟨rfl, Nat.le_refl _⟩
  fault _ := trivial
  bindings _ _ := ⟨rfl, Nat.le_refl _⟩
  currentStep _ _ := ⟨rfl, Nat.le_refl _⟩
  procedures _ _ := ⟨rfl, Nat.le_refl _⟩
  frame _ _ h := ⟨h.mode, h.kept⟩
  error _ _ _ := trivial

lemma handle_accrues (x : Assertion) : Keeps Accrues (x.handle none none) := by
  intro c o c' h ho
  cases Assertion.handle_cases h with
  | held => exact ⟨rfl, Nat.le_refl _⟩
  | raised => exact ⟨rfl, Nat.le_refl _⟩
  | unfit => exact ⟨rfl, Nat.le_refl _⟩
  | collected fails hsoft record logged =>
    obtain ⟨hmode, hkept⟩ := (Aloof.log _ _ _ _).same logged
    exact ⟨hmode, by simp [hkept]⟩

/-- With soft assertions, one that is found false is collected. -/
lemma handle_collects {x : Assertion} {s : String} (hx : x.holds = false)
    (hs : x.message = .text s) (hc : c.soft = true) {o : Outcome Unit}
    (h : x.handle none none c = (o, c')) : c.softErrors.length < c'.softErrors.length := by
  cases Assertion.handle_cases h with
  | held holds => rw [hx] at holds; cases holds
  | raised fails hard => rw [hc] at hard; cases hard
  | unfit fails hsoft record =>
    rw [Assertion.currentRecord, Assertion.softError, hs] at record
    cases record
  | collected fails hsoft record logged =>
    rw [((Aloof.log _ _ _ _).same logged).2]
    simp

lemma assertThat_collects {params : Dict Value} {o : Outcome Answer} {x : Assertion} {d : Context}
    (hc : c.soft = true) (hchecked : Library.assertion params c = (.done x, d))
    (hx : x.holds = false) (h : Library.assertThat.executor params c = (o, c')) :
    c.softErrors.length < c'.softErrors.length := by
  obtain ⟨rfl, -, s, hs⟩ := Library.assertion_done hchecked
  rw [Library.assertThat_executor, Block.asserting, Action.bind_of_done hchecked] at h
  obtain ⟨o', h, -⟩ := Action.bind_valued (fun _ _ => ⟨_, rfl⟩) h
  exact handle_collects hx hs hc h

lemma assertThat_accrues (params : Dict Value) :
    Keeps Accrues (Library.assertThat.executor params) :=
  (accrues_harmless.bind (Library.assertion_aloof params).keeps.meets fun x _ =>
    accrues_harmless.bind (handle_accrues x).meets fun _ _ => accrues_harmless.pure _).keeps

/-- An assertion that holds is taken alike in both modes. -/
lemma assertThat_blind {params : Dict Value}
    (h : ∀ x d, Library.assertion params c = (.done x, d) → x.holds = true) :
    BlindAt (·.inMode soft) (Library.assertThat.executor params) c := by
  refine .bind ((Library.assertion_aloof params).blindAt _ _) fun x d checked => ?_
  have hheld (c : Context) : x.handle none none c = (.done (), c) := by
    rw [Assertion.handle, if_pos (h x d checked)]
    rfl
  exact .bind (.of_run (hheld _) (hheld _)) fun _ _ _ => rfl

namespace OfLibrary

variable (hm : m.OfLibrary)
include hm

lemma respects : m.Respects Accrues where
  beforeStep := hm.watched.beforeStep
  afterStep := hm.watched.afterStep
  artifact := hm.watched.artifact
  executor type block hb params := by
    rcases Library.catalog_aloof (hm.blocks type block hb) with rfl | haloof
    · exact assertThat_accrues params
    · exact (haloof params).keeps

/-- A step is indifferent to the mode unless it denies what it asserts. -/
lemma indifferent {a : Start} (h : ∀ f params f' x d,
      m.announce a.nested a.step a.fresh = (.done (), f) →
      m.prepare (a.inner m) a.step f = (.done (Library.assertThat, params), f') →
      Library.assertion params f'.context = (.done x, d) → x.holds = true) :
    a.Indifferent m soft := by
  intro f block params f' announced prepared
  rcases Library.catalog_aloof (hm.blocks _ _ (prepare_lookup prepared)) with rfl | haloof
  · exact assertThat_blind fun x d checked => h f params f' x d announced prepared checked
  · exact (haloof params).blindAt _ _

/-- Where nothing is collected with soft assertions, no assertion is found false. -/
lemma holds_of_collects_nothing {layers : Nat} {o : Outcome (List StepResult)}
    (hc : c.soft = true) (hl : runList (m.runWith layers false) steps c = (o, c'))
    (ho : o ≠ .exhausted) (hnone : c'.softErrors = c.softErrors) {a : Start}
    (ha : m.RunsFor layers steps c a) {params : Dict Value} {x : Assertion} {d : Context}
    (announced : m.announce a.nested a.step a.fresh = (.done (), f))
    (prepared : m.prepare (a.inner m) a.step f = (.done (Library.assertThat, params), f'))
    (checked : Library.assertion params f'.context = (.done x, d)) : x.holds = true := by
  by_contra hx
  have hrun (nested : Bool) (s : Step) : Keeps Accrues (a.inner m nested s) :=
    runWith_keeps accrues_harmless hm.respects a.layers nested s
  obtain ⟨o₁, c₁, ran, ho₁, hend⟩ :=
    ha.ends accrues_harmless hm.respects (fun _ _ => ⟨rfl, Nat.le_refl _⟩) hl ho
  obtain ⟨o₂, c₂, hexec, -, hbehind⟩ :=
    a.executor_ends accrues_harmless hm.respects ran ho₁ announced prepared
  have hbefore : Accrues c f'.context := by
    have hannounce := announce_keeps accrues_harmless hm.watched.beforeStep a.nested a.step
    have hprepare := prepare_keeps (m := m) accrues_harmless hrun a.step
    refine accrues_harmless.trans _ _ _
      (ha.keeps accrues_harmless hm.respects fun _ => ⟨rfl, Nat.le_refl _⟩) ?_
    exact accrues_harmless.trans _ _ _ (hannounce.done announced).1 (hprepare.done prepared).1
  have hcollects := assertThat_collects (hbefore.mode.trans hc) checked (by simpa using hx) hexec
  have hlength : c'.softErrors.length = c.softErrors.length := by rw [hnone]
  have := hbefore.kept
  have := hbehind.kept
  have := hend.kept
  omega

end OfLibrary

/-- **Hard and soft assertions agree until one is found false.** Where a list of steps comes to its
end with soft assertions and collects none, it ends in the same way and in the same state with hard
ones. And where nothing that it asserts with hard assertions is false, it ends in the same way and
in the same state with soft ones. -/
theorem modes_agree (m : Machine) (hm : m.OfLibrary) (layers : Nat) (steps : List Step)
    (c : Context) :
    (∀ o c', runList (m.runWith layers false) steps (c.inMode true) = (o, c') → o ≠ .exhausted →
      c'.softErrors = c.softErrors →
      runList (m.runWith layers false) steps (c.inMode false) = (o, c'.inMode false)) ∧
    ∀ o c', runList (m.runWith layers false) steps (c.inMode false) = (o, c') →
      (∀ a, m.RunsFor layers steps (c.inMode false) a → ¬a.Denies m) →
      runList (m.runWith layers false) steps (c.inMode true) = (o, c'.inMode true) := by
  constructor
  · intro o c' hl ho hnone
    refine BlindAt.run (s := c.inMode true)
      (runList_alike hm.toUnconcerned fun a ha => hm.indifferent ?_) hl
    intro f params f' x d announced prepared checked
    exact hm.holds_of_collects_nothing rfl hl ho hnone ha announced prepared checked
  · intro o c' hl hdenies
    refine BlindAt.run (s := c.inMode false)
      (runList_alike hm.toUnconcerned fun a ha => hm.indifferent ?_) hl
    intro f params f' x d announced prepared checked
    by_contra hx
    rw [(Library.assertion_done checked).2.1] at hx
    exact hdenies a ha ⟨f, params, f', announced, prepared, by simpa using hx⟩

/-- A machine of all blocks of the library. -/
def cataloged : Machine := { blocks := [Library.catalog.map fun b => (b.type, b)] }

/-- A step that asserts what is true. -/
def counted : Step :=
  ⟨"counted", "logic_assert",
    [("CONDITION", .literal (.bool true)), ("MESSAGE", .literal (.text "stock is counted"))], []⟩

lemma cataloged_ofLibrary : cataloged.OfLibrary where
  beforeStep h hh := by cases hh
  afterStep h hh := by cases hh
  artifact hook hk := by cases hk
  blocks type block hb := by
    obtain ⟨d, hd, hentry⟩ := Layers.mem_of_lookup hb
    rw [List.mem_singleton.mp hd] at hentry
    obtain ⟨b, hmem, heq⟩ := List.mem_map.mp hentry
    cases heq
    exact hmem

lemma counted_denies_nothing {a : Start}
    (ha : cataloged.RunsFor 1 [counted] (silent.inMode false) a) : ¬a.Denies cataloged := by
  obtain ⟨⟨n, nested, step, before⟩, i, hlayers, rfl, started, hrest⟩ := ha
  obtain rfl : n = 0 := by simpa using hlayers.symm
  obtain ⟨rfl, rfl⟩ : step = counted ∧ before = silent.inMode false := by
    cases started with
    | here => exact ⟨rfl, rfl⟩
    | later _ _ next => cases next
  -- The step has no layer below it, so no step is run inside it.
  rcases Relation.ReflTransGen.cases_head hrest with rfl | ⟨b, hb, -⟩
  swap
  · cases hb.layers
  rintro ⟨f, params, f', announced, prepared, hfalse⟩
  let f₀ : Frame := ⟨silent.inMode false, .blank counted⟩
  obtain rfl : f₀ = f := (Prod.mk.inj announced).2
  have htrue : (cataloged.prepare (cataloged.runWith 0) counted f₀).1.ended.toOption.map
      (fun p => (Library.input p.2 "CONDITION").toBool) = some true := by decide +kernel
  change cataloged.prepare (cataloged.runWith 0) counted f₀ = _ at prepared
  rw [prepared] at htrue
  cases hfalse.symm.trans (Option.some.inj htrue)

theorem modes_agree_counted : ∃ o c',
    runList (cataloged.runWith 1 false) [counted] (silent.inMode true) = (o, c') ∧
    o ≠ .exhausted ∧ c'.softErrors = silent.softErrors ∧
    runList (cataloged.runWith 1 false) [counted] (silent.inMode false) = (o, c'.inMode false) ∧
    (∀ a, cataloged.RunsFor 1 [counted] (silent.inMode false) a → ¬a.Denies cataloged) ∧
    runList (cataloged.runWith 1 false) [counted] (silent.inMode true) =
      (o, (c'.inMode false).inMode true) := by
  obtain ⟨hsoft, hhard⟩ := modes_agree cataloged cataloged_ofLibrary 1 [counted] silent
  obtain ⟨rs, c', h⟩ := Action.exists_done (s := silent.inMode true)
    (x := runList (cataloged.runWith 1 false) [counted]) (by decide +kernel)
  have hnone : (runList (cataloged.runWith 1 false) [counted]
      (silent.inMode true)).2.softErrors.isEmpty = true := by decide +kernel
  rw [h, List.isEmpty_iff] at hnone
  have hrun := hsoft _ _ h (by simp) hnone
  exact ⟨_, c', h, by simp, hnone, hrun, fun a ha => counted_denies_nothing ha,
    hhard _ _ hrun fun a ha => counted_denies_nothing ha⟩

end BlockSuite.Machine
