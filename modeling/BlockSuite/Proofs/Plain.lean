import BlockSuite.Proofs.Machine.Alike
import BlockSuite.Proofs.Machine.Steady
import BlockSuite.Session

/-!
Plain environments: those with nothing but the blocks of the library and those of procedures. They
come about where no plugins are loaded, and sessions keep them. In such an environment a step writes
nothing that all contexts share but records, unless it defines a procedure.
-/

namespace BlockSuite

open BlockSuite.Action (KeepsAt)

/-! ### What all contexts share -/

namespace Context

/-- Of what all contexts share, nothing but the records of the journal is another. -/
def OnlyRecords (c c' : Context) : Prop := ∃ records, c'.shared = (c.withRecords records).shared

lemma OnlyRecords.of_eq {c c' : Context} (h : c'.shared = c.shared) : OnlyRecords c c' :=
  ⟨c.shared.journal.records, h⟩

lemma OnlyRecords.trans {c c' c'' : Context} (h : OnlyRecords c c') (h' : OnlyRecords c' c'') :
    OnlyRecords c c'' := by
  obtain ⟨records, h⟩ := h
  obtain ⟨records', h'⟩ := h'
  refine ⟨records', h'.trans ?_⟩
  simp only [withRecords, onJournal, h]

lemma onlyRecords_lenient : Lenient OnlyRecords where
  refl _ := .of_eq rfl
  trans _ _ _ := .trans
  records _ records := ⟨records, rfl⟩
  bindings _ _ := .of_eq rfl
  currentStep _ _ := .of_eq rfl
  frame _ _ h := h

end Context

open BlockSuite.Context (OnlyRecords onlyRecords_lenient)

/-- Whether an assertion is collected or not, nothing that all contexts share is written but a
record. -/
lemma Assertion.handle_onlyRecords (x : Assertion) (stepId stepType : Option String) (c : Context) :
    KeepsAt OnlyRecords (x.handle stepId stepType) c := by
  have hpure {α : Type} {y : Run α} (hy : Elementary y) (c : Context) : KeepsAt OnlyRecords y c :=
    hy.keepsAt onlyRecords_lenient c
  unfold Assertion.handle
  split
  · exact hpure (.pure _) c
  refine .get ?_
  dsimp only
  split
  · refine .bind onlyRecords_lenient.trans (hpure (.lift _) c) fun e c₁ _ => ?_
    refine .bind onlyRecords_lenient.trans (.modify (.of_eq rfl)) fun _ c₂ _ => ?_
    exact hpure (.log _ _ _ _) c₂
  · exact hpure (.fail _) c

/-- A block of the library writes nothing that all contexts share but records. -/
lemma Library.catalog_onlyRecords {block : Block} (h : block ∈ Library.catalog)
    (params : Dict Value) (c : Context) : KeepsAt OnlyRecords (block.executor params) c := by
  have hpure {α : Type} {y : Run α} (hy : Elementary y) (c : Context) : KeepsAt OnlyRecords y c :=
    hy.keepsAt onlyRecords_lenient c
  have hcall (expectReturn : Bool) : KeepsAt OnlyRecords (callWith expectReturn params) c := by
    refine .bind onlyRecords_lenient.trans (hpure (elementary_needText _ _) c) fun name c₁ _ => ?_
    refine .bind onlyRecords_lenient.trans (.get ?_) fun p c₂ _ => ?_
    · split
      · exact hpure (.pure _) c₁
      · exact hpure (.fail _) c₁
    · refine .bind onlyRecords_lenient.trans (hpure (.lift _) c₂) fun bound c₃ _ => ?_
      split
      · exact hpure (.pure _) c₃
      · exact hpure (.fail _) c₃
  rcases Library.catalog_elementary h with rfl | (rfl | rfl) | helementary
  · rw [assertThat_executor]
    refine .bind onlyRecords_lenient.trans (hpure (assertion_elementary params) c) fun x c₁ _ => ?_
    exact .bind onlyRecords_lenient.trans (x.handle_onlyRecords none none c₁) fun _ c₂ _ =>
      hpure (.pure _) c₂
  · exact hcall false
  · exact hcall true
  · exact hpure (helementary params) c

/-- The blocks of the library and those of procedures. -/
def Block.IsPlain (block : Block) : Prop :=
  block ∈ Library.catalog ∨ ∃ (p : Procedure) (category : String), block = p.block category

/-- An environment with nothing but the blocks of the library and those of procedures. -/
structure Environment.Plain (e : Environment) : Prop where
  hooks : e.hooks = []
  artifact : e.artifact = none
  blocks : ∀ type block, e.blocks.lookup type = some block → block.type = type ∧ block.IsPlain

/-- Work defines a procedure only for a signal that asks for it. -/
lemma Signal.work_define {s : Signal} {step : Step} {name : String} {p : Procedure}
    (h : s.work step = .define name p) :
    ∃ params description returnType slot, s = .define name params description returnType slot := by
  cases s with
  | define =>
    cases h
    exact ⟨_, _, _, _, rfl⟩
  | expand steps label frame bindings => cases frame <;> cases h
  | _ => cases h

namespace Environment.Plain

variable {e : Environment} (he : e.Plain)
include he

lemma impartial : e.machine.Impartial where
  executor type block h := by
    rcases (he.blocks type block h).2 with hmem | ⟨p, category, rfl⟩
    · exact Library.catalog_impartial hmem
    · exact p.block_impartial category
  beforeStep h hh := by
    change h ∈ e.hooks at hh
    rw [he.hooks] at hh
    cases hh
  afterStep h hh := by
    change h ∈ e.hooks at hh
    rw [he.hooks] at hh
    cases hh
  artifact hook hk := by
    change e.artifact = _ at hk
    rw [he.artifact] at hk
    cases hk

lemma executor_onlyRecords {type : String} {block : Block} (h : e.blocks.lookup type = some block)
    (params : Dict Value) (c : Context) : KeepsAt OnlyRecords (block.executor params) c := by
  rcases (he.blocks type block h).2 with hmem | ⟨p, category, rfl⟩
  · exact Library.catalog_onlyRecords hmem params c
  · exact (Elementary.pure _).keepsAt onlyRecords_lenient c

/-- Only one type of steps has procedures defined. -/
lemma undefining {type : String} {block : Block} (h : e.blocks.lookup type = some block)
    (htype : type ≠ "procedure_define") (params : Dict Value) :
    Library.Undefining (block.executor params) := by
  obtain ⟨rfl, hmem | ⟨p, category, rfl⟩⟩ := he.blocks type block h
  · rcases Library.catalog_undefining hmem with rfl | hblock
    · exact absurd rfl htype
    · exact hblock params
  · exact .signal rfl

/-- A step that defines no procedure writes nothing that all contexts share but records. -/
lemma steady {a : Machine.Start} (htype : a.step.type ≠ "procedure_define") :
    a.Steady e.machine OnlyRecords where
  announce := by
    have hhooks : e.machine.hooks = [] := he.hooks
    refine .bind (Machine.within_trans onlyRecords_lenient)
      (Machine.inContext_keepsAt (.get ?_)) fun _ f _ => ?_
    · split
      · exact (Elementary.fail _).keepsAt onlyRecords_lenient _
      · exact (Elementary.pure _).keepsAt onlyRecords_lenient _
    · rw [hhooks]
      split <;> exact Machine.frame_same onlyRecords_lenient fun _ _ h => by cases h; rfl
  executor f block params f' _ prepared :=
    he.executor_onlyRecords (Machine.prepare_lookup prepared) params _
  define s f name p answered work := by
    obtain ⟨block, params, c, c', known, ran⟩ := Machine.consult_answers answered
    have hanswer := he.undefining known htype params _ _ _ ran
    obtain ⟨ps, description, returnType, slot, rfl⟩ := Signal.work_define work
    cases hanswer
  report r c _ := by
    have hhooks : e.machine.hooks = [] := he.hooks
    have hnone : e.machine.artifactHookFor a.step r = none := by
      have hartifact : e.machine.artifact = none := he.artifact
      rw [Machine.artifactHookFor, hartifact, ite_self]
    have hreport : e.machine.report a.nested a.step r c = (.done r, c) := by
      rw [Machine.report, Machine.attachArtifact, hnone]
      simp only [Machine.observe, hhooks]
      cases a.nested <;> rfl
    exact .of_same onlyRecords_lenient.refl fun _ _ h => (Prod.mk.inj (hreport.symm.trans h)).2.symm

end Environment.Plain

/-! ### Where plain environments come from -/

/-- A change of an environment that keeps it plain. -/
def KeepsPlain (x : Install) : Prop :=
  ∀ s, s.environment.Plain → (x s).2.environment.Plain

namespace KeepsPlain

lemma bind {x : Install} {f : Unit → Install} (hx : KeepsPlain x) (hf : ∀ u, KeepsPlain (f u)) :
    KeepsPlain (x >>= f) := by
  intro s hs
  have hplain := hx s hs
  rcases hxs : x s with ⟨u | e | _, s₁⟩
  · rw [hxs] at hplain
    rw [Action.bind_of_done hxs]
    exact hf u s₁ hplain
  · rw [hxs] at hplain
    rwa [Action.bind_of_failed hxs]
  · rw [hxs] at hplain
    rwa [Action.bind_of_exhausted hxs]

lemma each {β : Type} {g : β → Install} {items : List β} (h : ∀ b ∈ items, KeepsPlain (g b)) :
    KeepsPlain (Action.each g items) := by
  induction items with
  | nil => exact fun _ hs => hs
  | cons b rest ih =>
    exact .bind (h b List.mem_cons_self) fun _ => ih fun b hb => h b (List.mem_cons_of_mem _ hb)

lemma putBlock {block : Block} (h : block.IsPlain) : KeepsPlain (Environment.putBlock block) := by
  intro s hs
  refine { hs with blocks := fun type b hb => ?_ }
  change (s.environment.blocks.define block.type block).lookup type = some b at hb
  by_cases htype : block.type = type
  · rw [← htype, Layers.lookup_define_self] at hb
    cases hb
    exact ⟨htype, h⟩
  · rw [Layers.lookup_define_ne _ _ htype] at hb
    exact hs.blocks type b hb

lemma complain (message : String) : KeepsPlain (Environment.complain message) := by
  intro s hs
  rw [Environment.complain, Action.bind_of_done (Action.get_run s)]
  split <;> exact hs

lemma addBlock {block : Block} (h : block.IsPlain) : KeepsPlain (Environment.addBlock block) := by
  intro s hs
  rw [Environment.addBlock, Action.bind_of_done (Action.get_run s)]
  split
  · exact (complain _).bind (fun _ => putBlock h) s hs
  · exact putBlock h s hs

lemma prepare (suite : Suite) : KeepsPlain (Session.prepare suite) := by
  refine .each fun p _ => ?_
  exact .bind (fun s hs => { hs with }) fun _ => .addBlock (.inr ⟨p, "Custom", rfl⟩)

end KeepsPlain

/-- An environment without plugins is plain. -/
lemma Environment.create_plain (settings : Settings) (entries : List EntryPoint) :
    let created := Environment.create settings Library.catalog none (some false) entries
    created.2.environment.Plain := by
  have hblocks : KeepsPlain (Action.each Environment.putBlock Library.catalog) :=
    .each fun block hblock => .putBlock (.inl hblock)
  refine (hblocks.bind fun _ => fun _ hs => hs) _ ⟨rfl, rfl, fun type block h => ?_⟩
  cases h

/-- A session in a plain environment has one. -/
lemma Session.start_plain {setup : Setup} {suite : Suite} {resources : Dict Value}
    {journal : Journal} {s : Session} {warnings : List String} (he : setup.environment.Plain)
    (h : Session.start setup suite resources journal = (.done s, warnings)) :
    s.environment.Plain := by
  have hscope : setup.environment.scope.Plain :=
    ⟨he.hooks, he.artifact, fun type block hb => by
      rw [Environment.scope_lookup] at hb
      exact he.blocks type block hb⟩
  have hplain := KeepsPlain.prepare suite
    { setup with environment := setup.environment.scope } hscope
  rcases hprepare : Session.prepare suite { setup with environment := setup.environment.scope } with
    ⟨o, prepared⟩
  rw [hprepare] at hplain
  simp only [Session.start, hprepare] at h
  cases o with
  | done u =>
    cases h
    exact hplain
  | failed f => cases h
  | exhausted => cases h

end BlockSuite
