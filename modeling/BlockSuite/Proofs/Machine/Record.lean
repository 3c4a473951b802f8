import BlockSuite.Proofs.Machine.Chain

/-!
What the record of a step keeps of the steps run on its behalf. The results of nested steps and of
bodies are added to it one after the other, and the first one that fails or skips ends the step:
a record in which such a result stands, outside a try slot, belongs to a step that ends with the
same failure.
-/

namespace BlockSuite

/-- Results of steps that fail or skip. -/
def StepResult.breaks (r : StepResult) : Bool := r.isFatal || r.isSkipped

/-- A result accounts for how its step has ended: one that fails or skips has the failure and tells
what it says, and one whose step leaves a procedure does neither. -/
structure StepResult.Accounts (r : StepResult) : Prop where
  fatal : r.isFatal = true → ∃ e info, r.failure = some (.raised e) ∧ e.reason.isRuntime = true ∧
    (Failure.raised e).info = .ok info ∧ r.error = some info
  skipped : r.isSkipped = true → ∃ reason message, r.failure = some (.skip reason) ∧
    Failure.recordText "ErrorInfo" reason = .ok message ∧
    r.error = some ⟨message, none, some "skipped"⟩
  returned : r.returned = true → r.breaks = false

namespace StepResult

lemma stops_eq (r : StepResult) : r.stops = (r.breaks || r.returned) := by
  simp only [stops, breaks, Bool.or_right_comm]

lemma breaks_of_stops {r : StepResult} (h : r.stops = false) : r.breaks = false := by
  rw [stops_eq, Bool.or_eq_false_iff] at h
  exact h.1

lemma returned_of_stops {r : StepResult} (h : r.stops = false) : r.returned = false := by
  rw [stops_eq, Bool.or_eq_false_iff] at h
  exact h.2

lemma stops_of_breaks {r : StepResult} (h : r.breaks = true) : r.stops = true := by
  rw [stops_eq, h, Bool.true_or]

lemma stops_of_returned {r : StepResult} (h : r.returned = true) : r.stops = true := by
  rw [stops_eq, h, Bool.or_true]

lemma breaks_iff {r : StepResult} : r.breaks = true ↔ r.isFatal = true ∨ r.isSkipped = true := by
  simp [breaks]

lemma not_fatal {r : StepResult} (h : r.breaks = false) : ¬r.isFatal = true := by
  intro hf
  rw [breaks_iff.mpr (.inl hf)] at h
  cases h

lemma Accounts.failure {r : StepResult} (h : r.Accounts) (hb : r.breaks = true) :
    ∃ e, r.failure = some e := by
  rcases breaks_iff.mp hb with hf | hs
  · obtain ⟨e, -, he, -⟩ := h.fatal hf
    exact ⟨_, he⟩
  · obtain ⟨reason, -, he, -⟩ := h.skipped hs
    exact ⟨_, he⟩

lemma breaks_congr {r r' : StepResult} (hs : r'.status = r.status) (ht : r'.soft = r.soft) :
    r'.breaks = r.breaks := by
  simp only [breaks, isFatal, isSkipped, hs, ht]

lemma Accounts.of_calm {r : StepResult} (h : r.breaks = false) : r.Accounts := by
  have hb := h
  rw [breaks, Bool.or_eq_false_iff] at h
  refine ⟨fun hf => ?_, fun hs => ?_, fun _ => hb⟩
  · rw [h.1] at hf
    cases hf
  · rw [h.2] at hs
    cases hs

/-- A result without what was put on record about others: the artifact, and the results of inputs
and of children. -/
def shell (r : StepResult) : StepResult :=
  { r with artifact := .null, inputs := [], children := [] }

/-- Another result with the artifact, the inputs and the children of this one. -/
def inShell (r s : StepResult) : StepResult :=
  { s with artifact := r.artifact, inputs := r.inputs, children := r.children }

end StepResult

/-- All results that a runner gives have a property. -/
def Runner.Yields (run : Runner) (P : StepResult → Prop) : Prop :=
  ∀ nested step c r c', run nested step c = (.done r, c') → P r

/-- Each of some results that fails or skips ends what it belongs to with its failure. -/
def Told {α : Type} (o : Outcome α) (rs : List StepResult) : Prop :=
  ∀ r ∈ rs, r.breaks = true → ∃ e, r.failure = some e ∧ o = .failed e

namespace Told

variable {α β : Type} {rs rs' : List StepResult}

lemma of_calm (o : Outcome α) (h : ∀ r ∈ rs, r.breaks = false) : Told o rs := by
  intro r hr hb
  rw [h r hr] at hb
  cases hb

lemma breaks_of_done {a : α} (h : Told (.done a) rs) : ∀ r ∈ rs, r.breaks = false := by
  intro r hr
  by_contra hb
  obtain ⟨e, -, he⟩ := h r hr (by simpa using hb)
  cases he

lemma append {o : Outcome α} (h : Told o rs) (h' : Told o rs') : Told o (rs ++ rs') := by
  intro r hr
  rcases List.mem_append.mp hr with hr | hr
  · exact h r hr
  · exact h' r hr

lemma of_mem {o : Outcome α} {r : StepResult} (h : Told o rs) (hr : r ∈ rs) : Told o [r] := by
  intro x hx
  rw [List.mem_singleton.mp hx]
  exact h r hr

lemma of_failure {r : StepResult} {e : Failure} (h : r.failure = some e) :
    Told (.failed e : Outcome α) [r] := by
  intro x hx _
  rw [List.mem_singleton.mp hx]
  exact ⟨e, h, rfl⟩

lemma of_done {a : α} (h : Told (.done a) rs) (o : Outcome β) : Told o rs :=
  of_calm o h.breaks_of_done

lemma of_broken {o : Outcome α} {o' : Outcome β} (h : Told o rs) (hb : Action.Broken o o') :
    Told o' rs := by
  intro r hr hf
  obtain ⟨e, he, rfl⟩ := h r hr hf
  cases hb
  exact ⟨e, he, rfl⟩

end Told

namespace Machine

open BlockSuite.Frame (inContext note)

variable {run : Runner} {P : StepResult → Prop}

/-! ### Adopting results -/

lemma raiseFor_same (rs : List StepResult) (f : Frame) : (Frame.raiseFor rs f).2 = f := by
  unfold Frame.raiseFor
  cases rs.findSome? fun r => if r.isFatal || r.isSkipped then r.failure else none <;> rfl

lemma findSome?_calm {rs : List StepResult} (h : ∀ r ∈ rs, r.breaks = false) :
    rs.findSome? (fun r => if r.isFatal || r.isSkipped then r.failure else none) = none := by
  rw [List.findSome?_eq_none_iff]
  intro r hr
  have hb : (r.isFatal || r.isSkipped) = false := h r hr
  simp [hb]

lemma raiseFor_calm {rs : List StepResult} (h : ∀ r ∈ rs, r.breaks = false) (f : Frame) :
    Frame.raiseFor rs f = (.done (), f) := by
  simp only [Frame.raiseFor, findSome?_calm h]
  rfl

lemma raiseFor_last {rs : List StepResult} {r : StepResult} {e : Failure}
    (h : ∀ x ∈ rs, x.breaks = false) (hb : r.breaks = true) (he : r.failure = some e) (f : Frame) :
    Frame.raiseFor (rs ++ [r]) f = (.failed e, f) := by
  have hb' : (r.isFatal || r.isSkipped) = true := hb
  simp only [Frame.raiseFor, List.findSome?_append, findSome?_calm h, Option.none_or,
    List.findSome?_singleton, hb', if_true, he]
  rfl

/-- The flag and the output that a step takes over from the steps of its body. -/
def takeOver (rs : List StepResult) (r : StepResult) : StepResult :=
  rs.foldl (fun r child =>
    if child.returned then { r with returned := true, output := child.output } else r) r

lemma takeOver_calm {rs : List StepResult} (h : ∀ x ∈ rs, x.returned = false) (r : StepResult) :
    takeOver rs r = r := by
  induction rs generalizing r with
  | nil => rfl
  | cons x rs ih =>
    have hx : x.returned = false := h x List.mem_cons_self
    have := ih (fun y hy => h y (List.mem_cons_of_mem _ hy)) r
    simpa only [takeOver, List.foldl_cons, hx, Bool.false_eq_true, if_false] using this

lemma takeOver_last {rs : List StepResult} {x : StepResult} (h : ∀ y ∈ rs, y.returned = false)
    (hx : x.returned = true) (r : StepResult) :
    takeOver (rs ++ [x]) r = { r with returned := true, output := x.output } := by
  have := takeOver_calm h r
  simp only [takeOver] at this
  simp only [takeOver, List.foldl_append, this, List.foldl_cons, List.foldl_nil, hx, if_true]

lemma Calm.breaks {rs : List StepResult} (h : Calm rs) : ∀ r ∈ rs, r.breaks = false :=
  fun r hr => StepResult.breaks_of_stops (h r hr)

lemma Calm.breaks_concat {rs : List StepResult} {r : StepResult} (h : Calm rs)
    (hr : r.breaks = false) : ∀ x ∈ rs ++ [r], x.breaks = false := by
  intro x hx
  rcases List.mem_append.mp hx with hx | hx
  · exact h.breaks x hx
  · rw [List.mem_singleton.mp hx, hr]

lemma Calm.returned {rs : List StepResult} (h : Calm rs) : ∀ r ∈ rs, r.returned = false :=
  fun r hr => StepResult.returned_of_stops (h r hr)

/-- Results of which the last one, and no other, fails or skips, with some failure. -/
def BrokenBy (rs : List StepResult) (e : Failure) : Prop :=
  ∃ pre r, rs = pre ++ [r] ∧ Calm pre ∧ r.breaks = true ∧ r.failure = some e

lemma BrokenBy.told {α : Type} {rs : List StepResult} {e : Failure} (h : BrokenBy rs e) :
    Told (.failed e : Outcome α) rs := by
  obtain ⟨pre, r, rfl, hc, -, he⟩ := h
  exact (Told.of_calm _ hc.breaks).append (.of_failure he)

/-- How a step goes on behind the results of its body. -/
inductive Adopted (rs : List StepResult) (r : StepResult) : Outcome Unit → StepResult → Prop
  | calm (h : Calm rs) : Adopted rs r (.done ()) { r with children := r.children ++ rs }
  | broken {e : Failure} (h : BrokenBy rs e) :
    Adopted rs r (.failed e) { r with children := r.children ++ rs }
  | left {pre : List StepResult} {x : StepResult} (hrs : rs = pre ++ [x]) (h : Calm pre)
      (hb : x.breaks = false) (hx : x.returned = true) :
    Adopted rs r (.done ())
      { r with children := r.children ++ rs, returned := true, output := x.output }

lemma Adopted.children {rs : List StepResult} {r r' : StepResult} {o : Outcome Unit}
    (h : Adopted rs r o r') : r'.children = r.children ++ rs := by
  cases h <;> rfl

lemma Adopted.of_failed {rs : List StepResult} {r r' : StepResult} {e : Failure}
    (h : Adopted rs r (.failed e) r') : BrokenBy rs e := by
  cases h with
  | broken hbroken => exact hbroken

lemma adopt_run (rs : List StepResult) (f : Frame) :
    Frame.adopt rs f =
      (do
        Frame.raiseFor rs
        note (takeOver rs) : Frame.Act Unit)
        { f with result := { f.result with children := f.result.children ++ rs } } := rfl

/-- The results of a list of steps: none stops it, or only the last one does. -/
def Ended (rs : List StepResult) : Prop :=
  Calm rs ∨ ∃ pre r, rs = pre ++ [r] ∧ Calm pre ∧ r.stops = true

lemma ended_of_runList {steps : List Step} {step : Step → Run StepResult} {c c' : Context}
    {rs : List StepResult} (h : runList step steps c = (.done rs, c')) : Ended rs := by
  rcases runList_cases h with ⟨rs', -, hc, hd⟩ | ⟨ran, x, rest, rs', c₁, -, -, hc, hx⟩
  · cases hd
    exact .inl hc
  · rcases hx with ⟨r, -, hs, hd⟩ | ⟨_, _, hb⟩
    · cases hd
      exact .inr ⟨rs', r, rfl, hc, hs⟩
    · exact hb.not_done.elim

lemma Ended.broken {rs : List StepResult} (h : Ended rs) (ha : ∀ r ∈ rs, r.Accounts) :
    (∀ r ∈ rs, r.breaks = false) ∨ ∃ e, BrokenBy rs e := by
  rcases h with hc | ⟨pre, r, rfl, hc, hs⟩
  · exact .inl hc.breaks
  · rcases hb : r.breaks with _ | _
    · exact .inl (hc.breaks_concat hb)
    · obtain ⟨e, he⟩ := (ha r (by simp)).failure hb
      exact .inr ⟨e, pre, r, rfl, hc, hb, he⟩

/-- The failure with which some results end what they belong to. -/
lemma raiseFor_cases {rs : List StepResult} (h : Ended rs) (ha : ∀ r ∈ rs, r.Accounts)
    (f : Frame) :
    (Frame.raiseFor rs f = (.done (), f) ∧ ∀ r ∈ rs, r.breaks = false) ∨
      ∃ e, Frame.raiseFor rs f = (.failed e, f) ∧ BrokenBy rs e := by
  rcases h.broken ha with hc | ⟨e, hbroken⟩
  · exact .inl ⟨raiseFor_calm hc f, hc⟩
  · obtain ⟨pre, r, rfl, hc, hb, he⟩ := hbroken
    exact .inr ⟨e, raiseFor_last hc.breaks hb he f, pre, r, rfl, hc, hb, he⟩

lemma adopt_cases {rs : List StepResult} (h : Ended rs) (ha : ∀ r ∈ rs, r.Accounts)
    {f f' : Frame} {o : Outcome Unit} (hf : Frame.adopt rs f = (o, f')) :
    f'.context = f.context ∧ Adopted rs f.result o f'.result := by
  rw [adopt_run] at hf
  rcases raiseFor_cases h ha
    { f with result := { f.result with children := f.result.children ++ rs } } with
    ⟨hr, hb⟩ | ⟨e, hr, hbroken⟩
  · rw [Action.bind_of_done hr, Frame.note_run] at hf
    obtain ⟨rfl, rfl⟩ := Prod.mk.inj hf
    refine ⟨rfl, ?_⟩
    rcases h with hc | ⟨pre, r, rfl, hc, hs⟩
    · simp only [takeOver_calm hc.returned]
      exact .calm hc
    · have hbr := hb r (by simp)
      have hret : r.returned = true := by
        rw [StepResult.stops_eq, hbr, Bool.false_or] at hs
        exact hs
      simp only [takeOver_last hc.returned hret]
      exact .left rfl hc hbr hret
  · rw [Action.bind_of_failed hr] at hf
    obtain ⟨rfl, rfl⟩ := Prod.mk.inj hf
    exact ⟨rfl, .broken hbroken⟩

lemma forall_runList {steps : List Step} {c c' : Context} {rs : List StepResult}
    (hP : run.Yields P) (h : runList (run false) steps c = (.done rs, c')) : ∀ r ∈ rs, P r := by
  obtain ⟨ran, rest, -, hch, -⟩ := runList_done h
  exact hch.forall_result fun step c r c' => hP false step c r c'

/-- A body either runs as a list whose results are adopted, or has no results. -/
lemma runBody_cases (ha : run.Yields StepResult.Accounts) {steps : List Step} {f f' : Frame}
    {o : Outcome Unit} (h : runBody run steps f = (o, f')) :
    (∃ rs, runList (run false) steps f.context = (.done rs, f'.context) ∧
        Adopted rs f.result o f'.result) ∨
      ∃ o', runList (run false) steps f.context = (o', f'.context) ∧ f'.result = f.result ∧
        Action.Broken o' o := by
  rcases Action.bind_cases h with ⟨rs, f₁, h₁, h₂⟩ | ⟨o', h₁, hb⟩
  · obtain ⟨hl, hr⟩ := Frame.inContext_eq h₁
    obtain ⟨hc, had⟩ := adopt_cases (ended_of_runList hl) (forall_runList ha hl) h₂
    rw [hr] at had
    exact .inl ⟨rs, by rw [hc, hl], had⟩
  · obtain ⟨hl, hr⟩ := Frame.inContext_eq h₁
    exact .inr ⟨o', hl, hr, hb⟩

/-! ### What a step adds to its record -/

/-- The records of one step. -/
structure SameStep (r r' : StepResult) : Prop where
  id : r'.stepId = r.stepId
  type : r'.stepType = r.stepType

lemma SameStep.refl (r : StepResult) : SameStep r r := ⟨rfl, rfl⟩

lemma SameStep.trans {r r' r'' : StepResult} (h : SameStep r r') (h' : SameStep r' r'') :
    SameStep r r'' :=
  ⟨h'.id.trans h.id, h'.type.trans h.type⟩

/-- How doing some work changes the record of a step: results are added to its children, those of
a try slot first, of which only skips need to end the step, and it is marked as one that leaves a
procedure only when the work is done. -/
structure Continues {α : Type} (P : StepResult → Prop) (tried : List StepResult) (r : StepResult)
    (o : Outcome α) (r' : StepResult) : Prop where
  sameStep : SameStep r r'
  inputs : r'.inputs = r.inputs
  status : r'.status = r.status
  soft : r'.soft = r.soft
  children : ∃ more, r'.children = r.children ++ tried ++ more ∧ Told o more ∧ ∀ x ∈ more, P x
  skips : Told o (tried.filter (·.isSkipped))
  given : ∀ x ∈ tried, P x
  returned : r'.returned = true → r.returned = true ∨ ∃ a, o = .done a

namespace Continues

variable {α β : Type} {r r' r'' : StepResult} {tried : List StepResult}

/-- Without a try slot, only the results that are added count. -/
lemma of_children (more : List StepResult) (returned : Bool) (output : Value) {o : Outcome α}
    (ht : Told o more) (hP : ∀ x ∈ more, P x)
    (hr : returned = true → r.returned = true ∨ ∃ a, o = .done a) :
    Continues P [] r o
      { r with children := r.children ++ more, returned := returned, output := output } :=
  ⟨⟨rfl, rfl⟩, rfl, rfl, rfl, ⟨more, by simp, ht, hP⟩, .of_calm o (by simp), by simp, hr⟩

lemma of_eq (h : r' = r) (o : Outcome α) : Continues P [] r o r' := by
  subst h
  exact ⟨.refl _, rfl, rfl, rfl, ⟨[], by simp, .of_calm o (by simp), by simp⟩,
    .of_calm o (by simp), by simp, .inl⟩

lemma of_adopted {rs : List StepResult} {o : Outcome Unit} (h : Adopted rs r o r')
    (hP : ∀ x ∈ rs, P x) : Continues P [] r o r' := by
  cases h with
  | calm hc => exact .of_children rs _ _ (.of_calm _ hc.breaks) hP .inl
  | broken hbroken => exact .of_children rs _ _ hbroken.told hP .inl
  | left hrs hc hb hx =>
    subst hrs
    exact .of_children _ _ _ (.of_calm _ (hc.breaks_concat hb)) hP fun _ => .inr ⟨_, rfl⟩

/-- Work that is done without leaving a procedure can be followed by other work. -/
lemma trans {a : α} {o : Outcome β} (h : Continues P tried r (.done a) r')
    (hr : r'.returned = false) (h' : Continues P [] r' o r'') : Continues P tried r o r'' := by
  obtain ⟨more, hm, ht, hP⟩ := h.children
  obtain ⟨more', hm', ht', hP'⟩ := h'.children
  refine ⟨h.sameStep.trans h'.sameStep, h'.inputs.trans h.inputs, h'.status.trans h.status,
    h'.soft.trans h.soft, ⟨more ++ more', by simp [hm, hm'], (ht.of_done o).append ht', ?_⟩,
    h.skips.of_done o, h.given, fun hx => ?_⟩
  · intro x hx
    rcases List.mem_append.mp hx with hx | hx
    · exact hP x hx
    · exact hP' x hx
  · rcases h'.returned hx with hx | hx
    · rw [hr] at hx
      cases hx
    · exact .inr hx

lemma of_broken {o : Outcome α} {o' : Outcome β} (h : Continues P tried r o r')
    (hb : Action.Broken o o') : Continues P tried r o' r' := by
  obtain ⟨more, hm, ht, hP⟩ := h.children
  refine ⟨h.sameStep, h.inputs, h.status, h.soft, ⟨more, hm, ht.of_broken hb, hP⟩,
    h.skips.of_broken hb, h.given, fun hx => ?_⟩
  rcases h.returned hx with hx | ⟨a, rfl⟩
  · exact .inl hx
  · cases hb

lemma of_valued {o : Outcome α} {o' : Outcome β} (h : Continues P tried r o r')
    (ho : Action.Valued o o') : Continues P tried r o' r' := by
  cases ho with
  | done a b =>
    obtain ⟨more, hm, ht, hP⟩ := h.children
    exact ⟨h.sameStep, h.inputs, h.status, h.soft, ⟨more, hm, ht.of_done _, hP⟩, h.skips.of_done _,
      h.given, fun _ => .inr ⟨b, rfl⟩⟩
  | broken hb => exact h.of_broken hb

end Continues

lemma inContext_continues {α : Type} {x : Run α} {f f' : Frame} {o : Outcome α}
    (h : inContext x f = (o, f')) : Continues P [] f.result o f'.result :=
  .of_eq (Frame.inContext_eq h).2 o

lemma runBody_continues (ha : run.Yields StepResult.Accounts) (hP : run.Yields P)
    {steps : List Step} {f f' : Frame} {o : Outcome Unit} (h : runBody run steps f = (o, f')) :
    Continues P [] f.result o f'.result := by
  rcases runBody_cases ha h with ⟨rs, hl, had⟩ | ⟨o', -, hr, -⟩
  · exact .of_adopted had (forall_runList hP hl)
  · exact .of_eq hr o

lemma hasReturned_run (f : Frame) : hasReturned f = (.done f.result.returned, f) := rfl

lemma bodyOutput_run (f : Frame) : bodyOutput f = (.done f.result.output, f) := rfl

lemma runPasses_continues (ha : run.Yields StepResult.Accounts) (hP : run.Yields P)
    {steps : List Step} {starts : List (Run Unit)} {f f' : Frame} {o : Outcome Unit}
    (hf : f.result.returned = false) (h : runPasses (runBody run steps) starts f = (o, f')) :
    Continues P [] f.result o f'.result := by
  induction starts generalizing f with
  | nil =>
    obtain ⟨rfl, rfl⟩ := Prod.mk.inj h
    exact .of_eq rfl _
  | cons start rest ih =>
    rcases Action.bind_cases h with ⟨_, f₁, h₁, h⟩ | ⟨o', h₁, hb⟩
    · have hr₁ := (Frame.inContext_eq h₁).2
      rcases Action.bind_cases h with ⟨_, f₂, h₂, h⟩ | ⟨o', h₂, hb⟩
      · have hc := runBody_continues ha hP h₂
        rw [hr₁] at hc
        rw [Action.bind_of_done (hasReturned_run f₂)] at h
        rcases hr : f₂.result.returned with _ | _
        · rw [hr] at h
          exact hc.trans hr (ih hr h)
        · rw [hr] at h
          obtain ⟨rfl, rfl⟩ := Prod.mk.inj h
          exact hc
      · have hc := runBody_continues ha hP h₂
        rw [hr₁] at hc
        exact hc.of_broken hb
    · exact (inContext_continues h₁).of_broken hb

/-- The results of a try slot, as far as it comes to its end. -/
def triedBy (run : Runner) (steps : List Step) (c : Context) : List StepResult :=
  match runList (run false) steps c with
  | (.done rs, _) => rs
  | _ => []

lemma isSkipped_of_isFatal {r : StepResult} (h : r.isFatal = true) : r.isSkipped = false := by
  rcases hs : r.status <;> simp [StepResult.isFatal, StepResult.isSkipped, hs] at h ⊢

/-- A list that ends with a failure has no skip. -/
lemma Ended.not_skipped {rs : List StepResult} (h : Ended rs) {r : StepResult} (hr : r ∈ rs)
    (hf : r.isFatal = true) : ∀ x ∈ rs, x.isSkipped = false := by
  have hbr : r.breaks = true := by simp [StepResult.breaks, hf]
  intro x hx
  rcases h with hc | ⟨pre, last, rfl, hc, -⟩
  · rw [hc.breaks r hr] at hbr
    cases hbr
  · have hl : r = last := by
      rcases List.mem_append.mp hr with hr | hr
      · rw [hc.breaks r hr] at hbr
        cases hbr
      · exact List.mem_singleton.mp hr
    subst hl
    rcases List.mem_append.mp hx with hx | hx
    · have := hc.breaks x hx
      simp only [StepResult.breaks, Bool.or_eq_false_iff] at this
      exact this.2
    · rw [List.mem_singleton.mp hx]
      exact isSkipped_of_isFatal hf

/-- What a trial comes to: its steps have no results, or none of them fails, or the handler runs
behind the first one that does. -/
lemma runTrial_cases {steps handler : List Step} {errorBinding : Option String} {f f' : Frame}
    {o : Outcome Unit} (h : runTrial run steps handler errorBinding f = (o, f')) :
    (∃ o', runList (run false) steps f.context = (o', f'.context) ∧ f'.result = f.result ∧
        Action.Broken o' o) ∨
      ∃ rs c, runList (run false) steps f.context = (.done rs, c) ∧
        ((rs.find? (·.isFatal) = none ∧ Frame.adopt rs { f with context := c } = (o, f')) ∨
          ∃ r, rs.find? (·.isFatal) = some r ∧
            (do
              inContext (bindCaught errorBinding r)
              runBody run handler : Frame.Act Unit)
              ⟨c, { f.result with children := f.result.children ++ rs }⟩ = (o, f')) := by
  rcases Action.bind_cases h with ⟨rs, f₁, h₁, h⟩ | ⟨o', h₁, hb⟩
  · obtain ⟨hl, hr⟩ := Frame.inContext_eq h₁
    have hf₁ : f₁ = { f with context := f₁.context } := by rw [← hr]
    refine .inr ⟨rs, f₁.context, hl, ?_⟩
    cases hx : rs.find? (·.isFatal) with
    | none =>
      rw [hx] at h
      rw [← hf₁]
      exact .inl ⟨rfl, h⟩
    | some r =>
      rw [hx] at h
      refine .inr ⟨r, rfl, ?_⟩
      rw [← hr]
      exact h
  · obtain ⟨hl, hr⟩ := Frame.inContext_eq h₁
    exact .inl ⟨o', hl, hr, hb⟩

lemma runTrial_continues (ha : run.Yields StepResult.Accounts) (hP : run.Yields P)
    {steps handler : List Step} {errorBinding : Option String} {f f' : Frame} {o : Outcome Unit}
    (hf : f.result.returned = false)
    (h : runTrial run steps handler errorBinding f = (o, f')) :
    Continues P (triedBy run steps f.context) f.result o f'.result := by
  rcases runTrial_cases h with ⟨o', hl, hr, hb⟩ | ⟨rs, c, hl, ⟨hn, h⟩ | ⟨x, hx, h⟩⟩
  · have ht : triedBy run steps f.context = [] := by
      cases hb <;> simp only [triedBy, hl]
    rw [ht]
    exact .of_eq hr o
  · -- Nothing has failed: a skip among the results still ends the step.
    have ht : triedBy run steps f.context = rs := by simp only [triedBy, hl]
    have hrs := forall_runList hP hl
    obtain ⟨-, had⟩ := adopt_cases (ended_of_runList hl) (forall_runList ha hl) h
    have hc := Continues.of_adopted had hrs
    obtain ⟨more, hm, htold, -⟩ := hc.children
    have hmore : more = rs := by
      rw [had.children] at hm
      simpa using hm.symm
    subst hmore
    rw [ht]
    refine ⟨hc.sameStep, hc.inputs, hc.status, hc.soft,
      ⟨[], by simp [hm], .of_calm o (by simp), by simp⟩,
      fun y hy => htold y (List.mem_filter.mp hy).1, hrs, hc.returned⟩
  · have ht : triedBy run steps f.context = rs := by simp only [triedBy, hl]
    have hskip := (ended_of_runList hl).not_skipped (List.mem_of_find?_eq_some hx)
      (List.find?_some hx)
    have hc : Continues P rs f.result (.done () : Outcome Unit)
        { f.result with children := f.result.children ++ rs } := by
      refine ⟨⟨rfl, rfl⟩, rfl, rfl, rfl, ⟨[], by simp, .of_calm _ (by simp), by simp⟩, ?_,
        forall_runList hP hl, .inl⟩
      rw [List.filter_eq_nil_iff.mpr fun y hy => by simp [hskip y hy]]
      exact .of_calm _ (by simp)
    rw [ht]
    refine hc.trans hf ?_
    rcases Action.bind_cases h with ⟨_, f₁, h₁, h⟩ | ⟨o', h₁, hb⟩
    · have := runBody_continues ha hP h
      rwa [(Frame.inContext_eq h₁).2] at this
    · exact (inContext_continues h₁).of_broken hb

/-- How a frame ends: its names cannot be bound, or its body stays unfinished, or the frame is
closed behind a body that fails or has results. -/
inductive FrameRun (run : Runner) (steps : List Step) (expectReturn : Bool)
    (bindings : Dict Value) (f : Frame) : Outcome Value → Frame → Prop
  | unbound {o : Outcome Unit} {o' : Outcome Value} {c : Context}
    (binds : bindEach bindings f.context = (o, c)) (hb : Action.Broken o o') :
    FrameRun run steps expectReturn bindings f o' { f with context := c }
  | unfinished {c c' : Context} (binds : bindEach bindings f.context = (.done (), c))
    (body : runList (run false) steps (openFrame c) = (.exhausted, c')) :
    FrameRun run steps expectReturn bindings f .exhausted { f with context := c' }
  | failed {c c' : Context} {e : Failure} (binds : bindEach bindings f.context = (.done (), c))
    (body : runList (run false) steps (openFrame c) = (.failed e, c')) :
    FrameRun run steps expectReturn bindings f (.failed e)
      { f with context := closeFrame f.context.bindings bindings.keys c' }
  | ended {c c' : Context} {rs : List StepResult} {o : Outcome Value} {f' : Frame}
    (binds : bindEach bindings f.context = (.done (), c))
    (body : runList (run false) steps (openFrame c) = (.done rs, c'))
    (raises : (do
      Frame.raiseFor rs
      return frameOutput expectReturn rs : Frame.Act Value)
      ⟨closeFrame f.context.bindings bindings.keys c',
        { f.result with children := f.result.children ++ rs }⟩ = (o, f')) :
    FrameRun run steps expectReturn bindings f o f'

lemma runFrame_cases {steps : List Step} {expectReturn : Bool} {bindings : Dict Value}
    {f f' : Frame} {o : Outcome Value}
    (h : runFrame run steps expectReturn bindings f = (o, f')) :
    FrameRun run steps expectReturn bindings f o f' := by
  unfold runFrame at h
  rw [Action.bind_of_done (Action.get_run f)] at h
  rcases Action.bind_cases h with ⟨_, f₁, h₁, h⟩ | ⟨o', h₁, hb⟩
  swap
  · obtain ⟨hc, hr⟩ := Frame.inContext_eq h₁
    have hf : f' = { f with context := f'.context } := by rw [← hr]
    rw [hf]
    exact .unbound hc hb
  obtain ⟨hbind, hr₁⟩ := Frame.inContext_eq h₁
  have hopen := Frame.inContext_run (Action.modify_run openFrame f₁.context)
  rw [Action.bind_of_done hopen] at h
  rcases hbody : runList (run false) steps (openFrame f₁.context) with ⟨o₁, c₂⟩
  have hin := Frame.inContext_run (f := { f₁ with context := openFrame f₁.context }) hbody
  cases o₁ with
  | exhausted =>
    rw [Action.bind_of_exhausted (Action.attempt_of_exhausted hin)] at h
    obtain ⟨rfl, rfl⟩ := Prod.mk.inj h
    rw [hr₁]
    exact .unfinished hbind hbody
  | failed e =>
    rw [Action.bind_of_done (Action.attempt_of_failed hin)] at h
    obtain ⟨rfl, rfl⟩ := Prod.mk.inj h
    rw [hr₁]
    exact .failed hbind hbody
  | done rs =>
    rw [Action.bind_of_done (Action.attempt_of_done hin)] at h
    refine .ended hbind hbody ?_
    rw [← hr₁]
    exact h

lemma frameResult_same {rs : List StepResult} {expectReturn : Bool} {f f' : Frame}
    {o : Outcome Value}
    (hf : (do
      Frame.raiseFor rs
      return frameOutput expectReturn rs : Frame.Act Value) f = (o, f')) : f' = f := by
  have hs := raiseFor_same rs f
  rcases Action.bind_cases hf with ⟨_, f₁, h₁, h⟩ | ⟨o', h₁, -⟩
  · rw [h₁] at hs
    cases (Prod.mk.inj h).2
    exact hs
  · rw [h₁] at hs
    exact hs

/-- A frame gives its output, or it fails as the last result of its body does. -/
lemma frameResult_cases {rs : List StepResult} (h : Ended rs) (ha : ∀ r ∈ rs, r.Accounts)
    {expectReturn : Bool} {f f' : Frame} {o : Outcome Value}
    (hf : (do
      Frame.raiseFor rs
      return frameOutput expectReturn rs : Frame.Act Value) f = (o, f')) :
    (o = .done (frameOutput expectReturn rs) ∧ ∀ r ∈ rs, r.breaks = false) ∨
      ∃ e, o = .failed e ∧ BrokenBy rs e := by
  rcases raiseFor_cases h ha f with ⟨hr, hb⟩ | ⟨e, hr, hbroken⟩
  · rw [Action.bind_of_done hr] at hf
    cases hf
    exact .inl ⟨rfl, hb⟩
  · rw [Action.bind_of_failed hr] at hf
    cases hf
    exact .inr ⟨e, rfl, hbroken⟩

lemma FrameRun.continues (ha : run.Yields StepResult.Accounts) (hP : run.Yields P)
    {steps : List Step} {expectReturn : Bool} {bindings : Dict Value} {f f' : Frame}
    {o : Outcome Value} (h : FrameRun run steps expectReturn bindings f o f') :
    Continues P [] f.result o f'.result := by
  cases h with
  | unbound binds hb => exact .of_eq rfl _
  | unfinished binds body => exact .of_eq rfl _
  | failed binds body => exact .of_eq rfl _
  | ended binds body raises =>
    cases frameResult_same raises
    refine .of_children _ _ _ ?_ (forall_runList hP body) .inl
    rcases frameResult_cases (ended_of_runList body) (forall_runList ha body) raises with
      ⟨rfl, hb⟩ | ⟨e, rfl, hbroken⟩
    · exact .of_calm _ hb
    · exact hbroken.told

/-- The results of the try slot that some work begins with. -/
def tried (run : Runner) (c : Context) : Work → List StepResult
  | .trial steps _ _ => triedBy run steps c
  | _ => []

/-- **What a signal adds to the record of its step**: the results of the steps run on behalf of
the step, in which no failure or skip stands, a try slot aside, that does not end the step. -/
theorem carryOut_continues (ha : run.Yields StepResult.Accounts) (hP : run.Yields P) {w : Work}
    {f f' : Frame} {o : Outcome Value} (hf : f.result.returned = false)
    (h : carryOut run w f = (o, f')) :
    Continues P (tried run f.context w) f.result o f'.result := by
  cases w with
  | passes starts steps =>
    obtain ⟨o', h₁, ho⟩ := Action.bind_valued (fun _ f => ⟨_, bodyOutput_run f⟩) h
    exact (runPasses_continues ha hP hf h₁).of_valued ho
  | trial steps handler errorBinding =>
    obtain ⟨o', h₁, ho⟩ := Action.bind_valued (fun _ f => ⟨_, bodyOutput_run f⟩) h
    exact (runTrial_continues ha hP hf h₁).of_valued ho
  | frame args steps expectReturn =>
    rcases Action.bind_cases h with ⟨bindings, f₁, h₁, h⟩ | ⟨o', h₁, hb⟩
    · have hc := (runFrame_cases h).continues ha hP
      rwa [(Frame.inContext_eq h₁).2] at hc
    · exact (inContext_continues h₁).of_broken hb
  | leave v =>
    by_cases hd : f.context.callDepth = 0
    · rw [carryOut_leave_stray hd] at h
      obtain ⟨o', h₁, ho⟩ := Action.bind_valued (fun _ _ => ⟨_, rfl⟩) h
      exact (inContext_continues h₁).of_valued ho
    · rw [carryOut_leave hd] at h
      cases h
      have := Continues.of_children (r := f.result) (P := P) (o := Outcome.done v) [] true
        f.result.output (.of_calm _ (by simp)) (by simp) fun _ => .inr ⟨_, rfl⟩
      rwa [List.append_nil] at this
  | define name procedure =>
    obtain ⟨o', h₁, ho⟩ := Action.bind_valued (fun _ _ => ⟨_, rfl⟩) h
    exact (inContext_continues h₁).of_valued ho

end Machine

end BlockSuite
