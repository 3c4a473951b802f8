import BlockSuite.Proofs.Machine.Ledger
import BlockSuite.Proofs.Machine.Simulation

/-!
How failures are documented. The artifact hook is asked about every step that fails and whose block
wants its failures to be documented, once each, when the step has come to its result. Its answer is
put on the result; where it raises, or is not asked, the result stays without an artifact.
-/

namespace BlockSuite

namespace Machine

open BlockSuite.Action (Agree Keeps Meets)
open BlockSuite.StepResult (Resemblance walkAll)

variable {γ : Type} {m : Machine} {run : Runner} {nested : Bool} {step : Step} {steps : List Step}
  {c c' : Context} {r r' : StepResult} {rs : List StepResult}

/-- A result that is documented: its step has failed, and the block of the step asks for it. -/
def documents (m : Machine) (r : StepResult) : Bool :=
  r.isFatal && (m.blocks.lookup r.stepType).any (·.snapshot)

lemma artifactHookFor_same (same : SameStep (.blank step) r) :
    m.artifactHookFor step r = if m.documents r then m.artifact else none := by
  have htype : r.stepType = step.type := same.type
  rw [artifactHookFor, documents, htype]

/-! ### What is put on results -/

/-- What the artifact hook has made of a result. -/
inductive Attached (m : Machine) (step : Step) (r : StepResult) : Prop
  | unasked (h : m.artifactHookFor step r = none) (empty : r.artifact = .null)
  | given {hook : ArtifactHook} {c c' : Context} (asked : m.artifactHookFor step r = some hook)
    (ran : hook step r.failure c = (.done r.artifact, c'))
  | raised {hook : ArtifactHook} {e : Failure} {c c' : Context}
    (asked : m.artifactHookFor step r = some hook) (ran : hook step r.failure c = (.failed e, c'))
    (empty : r.artifact = .null)

lemma Attaches.attached (h : m.Attaches step r c r' c') (hr : r.artifact = .null) :
    m.Attached step r' := by
  cases h with
  | unasked h => exact .unasked h hr
  | given asked ran => exact .given asked ran
  | raised asked ran => exact .raised asked ran hr

/-- The same records, without an artifact. -/
def StillBare (r r' : StepResult) : Prop := r = r' ∧ r.artifact = .null

lemma stillBare_resemblance : Resemblance StillBare Eq where
  own _ _ h := congrArg StepResult.shell h.1
  others _ _ h := congrArg StepResult.shell h
  shelled := by
    rintro r _ s ⟨rfl, h⟩
    exact ⟨rfl, h⟩
  inputs := by
    rintro r _ x _ name ⟨rfl, h⟩ rfl
    exact ⟨rfl, h⟩
  children := by
    rintro r _ rs rs' ⟨rfl, h⟩ hrs
    rw [List.forall₂_eq_eq_eq] at hrs
    exact ⟨by rw [hrs], h⟩

/-- Until the artifact hook is asked, the result of a step is without an artifact: this is seen from
a machine beside itself, with the records that are so. -/
lemma conclude_artifact {a : Start}
    (h : m.conclude (a.inner m) a.nested a.step a.before = (.done r, c')) : r.artifact = .null := by
  have hannounce : ∀ d, a.before = d → Agree (Frame.Beside Eq StillBare) Eq
      (m.announce a.nested a.step) a.fresh (m.announce a.nested a.step) ⟨d, .blank a.step⟩ := by
    rintro _ rfl
    rcases hx : m.announce a.nested a.step a.fresh with ⟨o, f⟩
    have hblank : f.result.artifact = .null := by
      rw [announce_result hx]
      rfl
    exact .of_run hx hx (.refl o) ⟨rfl, rfl, hblank⟩
  have hconclude : Agree Eq StillBare (m.conclude (a.inner m) a.nested a.step) a.before
      (m.conclude (a.inner m) a.nested a.step) a.before := by
    refine Start.concludes_alike stillBare_resemblance Context.Likeness.eq rfl hannounce ?_ ?_ rfl
    · rintro f block params f' - - _ rfl -
      exact (Agree.refl _ _).mono fun a _ heq => heq ▸ .refl a
    · rintro b - _ rfl
      exact .refl _ _
  have houtcome := hconclude.outcome
  rw [h] at houtcome
  cases houtcome with
  | done hbare => exact hbare.2

/-- **The artifact of a result is what the artifact hook has made of it.** -/
theorem runWith_attached {layers : Nat} (h : m.runWith layers nested step c = (.done r, c')) :
    m.Attached step r := by
  cases layers with
  | zero => cases h
  | succ n =>
    obtain ⟨r₀, c₁, hconclude, h⟩ := Action.bind_done h
    obtain ⟨r₁, c₂, hattach, h⟩ := Action.bind_done h
    obtain ⟨_, c₃, -, h⟩ := Action.bind_done h
    cases h
    exact (attachArtifact_done hattach).attached
      (conclude_artifact (a := ⟨n, nested, step, c⟩) hconclude)

/-! ### How often the hook is called -/

/-- A machine whose artifact hook notes every call. Nothing else changes the notes. -/
structure Documenting (m : Machine) (calls : Context → List γ)
    (call : Step → Option Failure → γ) : Prop where
  own : Harmless (.keeping (Unnoted calls))
  depth : ∀ c n, Unnoted calls c { c with callDepth := n }
  executor : ∀ type block, m.blocks.lookup type = some block →
    ∀ params, Keeps (Unnoted calls) (block.executor params)
  beforeStep : ∀ h ∈ m.hooks, ∀ f, h.beforeStep = some f → ∀ step, Keeps (Unnoted calls) (f step)
  afterStep : ∀ h ∈ m.hooks, ∀ f, h.afterStep = some f → ∀ step r, Keeps (Unnoted calls) (f step r)
  artifact : ∃ hook, m.artifact = some hook ∧
    ∀ step f, Keeps (fun c c' => calls c' = calls c ++ [call step f]) (hook step f)

/-- A call of the artifact hook is that for a result, and has made of it what it is. -/
def CalledFor (m : Machine) (call : Step → Option Failure → γ) (e : γ) (r : StepResult) : Prop :=
  ∃ step, SameStep (.blank step) r ∧ e = call step r.failure ∧ m.Attached step r

/-- What is noted from one context to another are the calls for the results in some trees that are
documented, one for each. -/
def filed (m : Machine) (calls : Context → List γ) (call : Step → Option Failure → γ) : Entry :=
  fun _ c c' rs => ∃ es ds, calls c' = calls c ++ es ∧
    ds.Perm ((walkAll rs).filter m.documents) ∧ List.Forall₂ (m.CalledFor call) es ds

variable {calls : Context → List γ} {call : Step → Option Failure → γ}

lemma filed_ledger (hm : m.Documenting calls call) :
    Ledger (Unnoted calls) (m.filed calls call) where
  harmless := hm.own
  depth := hm.depth
  nothing _ _ _ h := ⟨[], [], by rw [List.append_nil]; exact h, .nil, .nil⟩
  append := by
    rintro _ c c' c'' rs rs' ⟨es, ds, hes, hds, hcalled⟩ ⟨es', ds', hes', hds', hcalled'⟩
    refine ⟨es ++ es', ds ++ ds', by rw [hes', hes, List.append_assoc], ?_,
      List.rel_append hcalled hcalled'⟩
    rw [StepResult.walkAll_append, List.filter_append]
    exact hds.append hds'

/-- The hook is called for a result that is documented, and else nothing is noted. -/
lemma Documenting.attaches (hm : m.Documenting calls call) (same : SameStep (.blank step) r)
    (h : m.Attaches step r c r' c') :
    calls c' = calls c ++ if m.documents r then [call step r.failure] else [] := by
  obtain ⟨hook, hartifact, hcall⟩ := hm.artifact
  have hk := artifactHookFor_same (m := m) same
  rw [hartifact] at hk
  have hasked {hook' : ArtifactHook} (asked : m.artifactHookFor step r = some hook') :
      m.documents r = true ∧ hook' = hook := by
    rw [hk] at asked
    split at asked
    · next hd => exact ⟨hd, (Option.some.inj asked).symm⟩
    · cases asked
  cases h with
  | unasked h =>
    rw [hk] at h
    split at h
    · cases h
    · next hd => rw [if_neg hd, List.append_nil]
  | given asked ran =>
    obtain ⟨hd, rfl⟩ := hasked asked
    rw [if_pos hd]
    exact hcall _ _ _ _ _ ran (by simp)
  | raised asked ran logged =>
    obtain ⟨hd, rfl⟩ := hasked asked
    have hunnoted : Unnoted calls _ c' := ((hm.own.log _ _ _ _).done logged).1
    rw [if_pos hd, hunnoted]
    exact hcall _ _ _ _ _ ran (by simp)

/-- What is noted before the artifact hook is asked are the calls for the results right inside a
step. -/
lemma Documenting.inside (hm : m.Documenting calls call) {a : Start}
    (h : m.Outline (Unnoted calls) (m.filed calls call) a r c) :
    m.filed calls call a.nested a.before c (r.given ++ r.children) := by
  have hT := filed_ledger hm
  have hannounce := announce_keeps hm.own hm.beforeStep a.nested a.step
  cases h with
  | unannounced announced left inputs children =>
    rw [inputs, children]
    exact hT.nothing _ _ _ (hm.own.trans _ _ _ (hannounce.failed announced).1 left)
  | announced announced inputs answered children =>
    exact hT.append _ _ _ _ _ _ (hT.before (hannounce.done announced).1 inputs)
      (hT.before answered children)

/-- With the call for the result of a step, if it is documented, all results in its tree have
theirs. -/
lemma filed_result {v : Value} {c'' : Context} (same : SameStep (.blank step) r)
    (attached : m.Attached step { r with artifact := v })
    (inside : m.filed calls call nested c c' (r.given ++ r.children))
    (hcalls : calls c'' = calls c' ++ if m.documents r then [call step r.failure] else []) :
    m.filed calls call nested c c'' [{ r with artifact := v }] := by
  obtain ⟨es, ds, hes, hds, hcalled⟩ := inside
  rw [StepResult.walkAll_append] at hds
  rw [hes] at hcalls
  have htree : walkAll [{ r with artifact := v }] =
      { r with artifact := v } :: (walkAll r.given ++ walkAll r.children) := by
    rw [StepResult.walkAll_singleton, StepResult.walk_eq]
    rfl
  have hdocuments : m.documents { r with artifact := v } = m.documents r := rfl
  cases hd : m.documents r with
  | false =>
    rw [hd, if_neg (by simp), List.append_nil] at hcalls
    refine ⟨es, ds, hcalls, ?_, hcalled⟩
    rwa [htree, List.filter_cons_of_neg (by rw [hdocuments, hd]; simp)]
  | true =>
    rw [hd, if_pos rfl, List.append_assoc] at hcalls
    have hcall : m.CalledFor call (call step r.failure) { r with artifact := v } :=
      ⟨step, ⟨same.id, same.type⟩, rfl, attached⟩
    refine ⟨es ++ [call step r.failure], ds ++ [{ r with artifact := v }], hcalls, ?_,
      List.rel_append hcalled (.cons hcall .nil)⟩
    rw [htree, List.filter_cons_of_pos (by rw [hdocuments, hd])]
    exact (List.perm_append_singleton _ _).trans (hds.cons _)

/-- **The artifact hook is called once for each result of a step that is documented**, if it is for
those of the steps inside it. -/
lemma Start.Returns.books {a : Start} (hm : m.Documenting calls call) (ha : a.Returns m)
    (hx : m.InnerBook (m.filed calls call) a) :
    Books (m.filed calls call) a.nested (m.runWith (a.layers + 1) a.nested a.step) a.before := by
  intro o c' h hne
  obtain ⟨r, rfl, hsame⟩ := ha.done h hne
  have hattached := runWith_attached h
  obtain ⟨r₀, c₁, hconclude, hreport⟩ := Action.bind_done h
  obtain ⟨r₁, c₂, hattach, hreport⟩ := Action.bind_done hreport
  obtain ⟨_, c₃, hobserve, hreport⟩ := Action.bind_done hreport
  cases hreport
  have hattaches := attachArtifact_done hattach
  obtain ⟨v, rfl⟩ := hattaches.artifact
  have hsame₀ : SameStep (.blank a.step) r₀ := ⟨hsame.id, hsame.type⟩
  have hinside := hm.inside (hx.outline (filed_ledger hm) ha.distinct hm.executor hconclude)
  have hobserved : calls c' = calls c₂ :=
    ((hm.own.observe hm.afterStep a.nested a.step _).done hobserve).1
  exact ⟨_, rfl, filed_result hsame₀ hattached hinside
    (hobserved.trans (hm.attaches hsame₀ hattaches))⟩

/-- **The artifact hook is called once for each result of a list that is documented**, and for no
other one, if all steps come to results; then so does the list. -/
theorem Documenting.filed_runList {layers : Nat} (hm : m.Documenting calls call)
    (returns : ∀ a, m.RunsFor layers steps c a → a.Returns m) {o : Outcome (List StepResult)}
    (h : runList (m.runWith layers false) steps c = (o, c')) (finished : o ≠ .exhausted) :
    ∃ rs, o = .done rs ∧ m.filed calls call false c c' rs := by
  have hall : AllBook (m.filed calls call) (m.runWith layers) steps c :=
    .of_runsFor (fun a ha hx => ha.books hm hx) returns
  exact (filed_ledger hm).runList hall h finished

end Machine

end BlockSuite
