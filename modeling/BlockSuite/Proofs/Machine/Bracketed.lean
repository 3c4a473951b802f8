import BlockSuite.Proofs.Machine.Cancelled
import BlockSuite.Proofs.Machine.Ledger

/-!
What a pair of hooks around steps sees. Where no hook around steps fails, a step of a list begins
and ends once for each of them, and what the steps inside it make them see comes in between; a step
that is to give an input makes them see nothing of its own. A step that is refused makes them see
its end without its beginning. So what a hook has seen is properly nested unless a step of a list is
started behind a request to stop, or has no result.
-/

namespace BlockSuite

open BlockSuite.Machine (refusal)

section Words

variable {ε : Type} {begun : Step → ε} {ended : Step → StepResult → ε} {u v w : List ε}

/-- Properly nested words: every beginning of a step stands before an end of this step, and what
stands in between is properly nested. -/
inductive Paired (begun : Step → ε) (ended : Step → StepResult → ε) : List ε → Prop
  | nil : Paired begun ended []
  | pair {s : Step} {r : StepResult} {v w : List ε} (same : Machine.SameStep (.blank s) r)
    (inner : Paired begun ended v) (rest : Paired begun ended w) :
    Paired begun ended (begun s :: (v ++ ended s r :: w))

lemma Paired.append (h : Paired begun ended v) (h' : Paired begun ended w) :
    Paired begun ended (v ++ w) := by
  induction h with
  | nil => exact h'
  | pair same inner _ _ ih =>
    rw [List.cons_append, List.append_assoc, List.cons_append]
    exact .pair same inner ih

lemma Paired.length_even (h : Paired begun ended w) : w.length % 2 = 0 := by
  induction h with
  | nil => rfl
  | pair same _ _ hv hw =>
    simp only [List.length_cons, List.length_append]
    omega

/-- What is seen of some results: of a step of a list its beginning and its end, each once, around
what is seen of its inputs and of its children; of a nested step only these; and of a step that is
refused, if there may be one, only its end. -/
inductive Seen (begun : Step → ε) (ended : Step → StepResult → ε) (stopped : Prop) :
    Bool → List StepResult → List ε → Prop
  | nil (nested : Bool) : Seen begun ended stopped nested [] []
  | input {r : StepResult} {rs : List StepResult} {u v w : List ε}
    (inputs : Seen begun ended stopped true r.given u)
    (children : Seen begun ended stopped false r.children v)
    (rest : Seen begun ended stopped true rs w) :
    Seen begun ended stopped true (r :: rs) (u ++ v ++ w)
  | step {s : Step} {r : StepResult} {rs : List StepResult} {u v w : List ε}
    (same : Machine.SameStep (.blank s) r) (inputs : Seen begun ended stopped true r.given u)
    (children : Seen begun ended stopped false r.children v)
    (rest : Seen begun ended stopped false rs w) :
    Seen begun ended stopped false (r :: rs) (begun s :: (u ++ v ++ ended s r :: w))
  | refused {c : Context} {s : Step} {x : Value} {rs : List StepResult} {w : List ε} (h : stopped)
    (rest : Seen begun ended stopped false rs w) :
    Seen begun ended stopped false ({ refusal c s with artifact := x } :: rs)
      (ended s { refusal c s with artifact := x } :: w)

namespace Seen

variable {stopped : Prop} {nested : Bool} {rs rs' : List StepResult}

lemma append (h : Seen begun ended stopped nested rs v)
    (h' : Seen begun ended stopped nested rs' w) :
    Seen begun ended stopped nested (rs ++ rs') (v ++ w) := by
  induction h with
  | nil => exact h'
  | input inputs children _ _ _ ih =>
    rw [List.append_assoc]
    exact .input inputs children (ih h')
  | step same inputs children _ _ _ ih =>
    have hstep := Seen.step same inputs children (ih h')
    simpa only [List.append_assoc, List.cons_append] using hstep
  | refused hstopped _ ih => exact .refused hstopped (ih h')

/-- Where no step is refused, what is seen is properly nested. -/
lemma paired (h : Seen begun ended stopped nested rs w) (hstopped : ¬stopped) :
    Paired begun ended w := by
  induction h with
  | nil => exact .nil
  | input _ _ _ hu hv hw => exact (hu.append hv).append hw
  | step same _ _ _ hu hv hw => exact .pair same (hu.append hv) hw
  | refused h => exact absurd h hstopped

end Seen

end Words

namespace Machine

open BlockSuite.Frame (inContext note)
open BlockSuite.Action (Keeps Meets)
open BlockSuite.Context (SameMarks)

variable {ε : Type} {seen : Context → List ε} {begun : Step → ε} {ended : Step → StepResult → ε}
  {m : Machine} {nested : Bool} {step : Step} {steps : List Step} {c c' : Context} {f : Frame}
  {r : StepResult} {u w : List ε}

/-! ### Hooks that note what they see -/

/-- An action that does not fail, and that adds some notes where it ends. -/
def Writes (seen : Context → List ε) (x : Run Unit) (w : List ε) : Prop :=
  ∀ c o c', x c = (o, c') → o ≠ .exhausted → o = .done () ∧ seen c' = seen c ++ w

lemma Writes.seq {x y : Run Unit} (hx : Writes seen x u) (hy : Writes seen y w) :
    Writes seen (do x; y) (u ++ w) := by
  intro c o c' h ho
  rcases Action.bind_cases h with ⟨_, c₁, h₁, h₂⟩ | ⟨o', h₁, hb⟩
  · obtain ⟨-, hc₁⟩ := hx _ _ _ h₁ (by simp)
    obtain ⟨rfl, hc'⟩ := hy _ _ _ h₂ ho
    exact ⟨rfl, by rw [hc', hc₁, List.append_assoc]⟩
  · obtain ⟨rfl, -⟩ := hx _ _ _ h₁ (hb.ne_exhausted ho)
    cases hb

lemma Writes.each {xs : List (Run Unit)} (h : ∀ x ∈ xs, Writes seen x []) :
    Writes seen (Action.each id xs) [] := by
  induction xs with
  | nil =>
    intro c o c' hx _
    cases hx
    exact ⟨rfl, (List.append_nil _).symm⟩
  | cons x rest ih =>
    exact (h x List.mem_cons_self).seq (ih fun x hx => h x (List.mem_cons_of_mem _ hx))

/-- Among actions that note nothing, one that does. -/
lemma Writes.each_middle {xs zs : List (Run Unit)} {y : Run Unit}
    (hxs : ∀ x ∈ xs, Writes seen x []) (hy : Writes seen y w) (hzs : ∀ z ∈ zs, Writes seen z []) :
    Writes seen (Action.each id (xs ++ y :: zs)) w := by
  induction xs with
  | nil =>
    have hall := hy.seq (Writes.each hzs)
    rwa [List.append_nil] at hall
  | cons x rest ih =>
    exact (hxs x List.mem_cons_self).seq (ih fun x hx => hxs x (List.mem_cons_of_mem _ hx))

/-- Of the hooks that are called for an event one makes notes. -/
lemma Writes.runAll {α : Type} {event : Hooks → Option α} {call : α → Run Unit}
    {pre post : List Hooks} {k : Hooks} {x : α} (hx : event k = some x)
    (hwrites : Writes seen (call x) w)
    (haside : ∀ h ∈ pre ++ post, ∀ y, event h = some y → Writes seen (call y) []) :
    Writes seen (Hooks.runAll (pre ++ k :: post) fun h => (event h).map call) w := by
  have hothers {hs : List Hooks} (h : ∀ h ∈ hs, ∀ y, event h = some y → Writes seen (call y) []) :
      ∀ z ∈ hs.filterMap fun h => (event h).map call, Writes seen z [] := by
    intro z hz
    obtain ⟨h', hh, y, hy, rfl⟩ := Hooks.mem_calls hz
    exact h h' hh y hy
  have hcalls : ((pre ++ k :: post).filterMap fun h => (event h).map call) =
      (pre.filterMap fun h => (event h).map call) ++
        call x :: post.filterMap fun h => (event h).map call := by
    rw [List.filterMap_append, List.filterMap_cons, hx]
    rfl
  rw [Hooks.runAll, hcalls]
  exact .each_middle (hothers fun h hh => haside h (List.mem_append_left _ hh)) hwrites
    (hothers fun h hh => haside h (List.mem_append_right _ hh))

/-- A hook that neither fails nor changes the notes. -/
structure Aside (seen : Context → List ε) (k : Hooks) : Prop where
  before : ∀ x, k.beforeStep = some x → ∀ step, Writes seen (x step) []
  after : ∀ x, k.afterStep = some x → ∀ step r, Writes seen (x step r) []

/-- A hook that does not fail, and that notes the beginning and the end of every step it sees. -/
structure Attends (seen : Context → List ε) (begun : Step → ε) (ended : Step → StepResult → ε)
    (k : Hooks) : Prop where
  before : ∃ x, k.beforeStep = some x ∧ ∀ step, Writes seen (x step) [begun step]
  after : ∃ x, k.afterStep = some x ∧ ∀ step r, Writes seen (x step r) [ended step r]

/-- A machine one of whose hooks notes what it sees of steps. No hook around steps fails, and
nothing but this hook changes the notes. -/
structure Attended (m : Machine) (seen : Context → List ε) (begun : Step → ε)
    (ended : Step → StepResult → ε) : Prop where
  own : Harmless (.keeping (Unnoted seen))
  depth : ∀ c n, Unnoted seen c { c with callDepth := n }
  executor : ∀ type block, m.blocks.lookup type = some block →
    ∀ params, Keeps (Unnoted seen) (block.executor params)
  artifact : ∀ hook, m.artifact = some hook → ∀ step f, Keeps (Unnoted seen) (hook step f)
  hooks : ∃ pre k post, m.hooks = pre ++ k :: post ∧ Attends seen begun ended k ∧
    ∀ h ∈ pre ++ post, Aside seen h

namespace Attended

variable (hm : m.Attended seen begun ended)
include hm

lemma beforeStep (step : Step) :
    Writes seen (Hooks.runAll m.hooks fun h => h.beforeStep.map fun f => f step) [begun step] := by
  obtain ⟨pre, k, post, hhooks, hk, haside⟩ := hm.hooks
  obtain ⟨x, hx, hwrites⟩ := hk.before
  rw [hhooks]
  exact .runAll hx (hwrites step) fun h hh y hy => (haside h hh).before y hy step

lemma afterStep (step : Step) (r : StepResult) :
    Writes seen (Hooks.runAll m.hooks fun h => h.afterStep.map fun f => f step r)
      [ended step r] := by
  obtain ⟨pre, k, post, hhooks, hk, haside⟩ := hm.hooks
  obtain ⟨x, hx, hwrites⟩ := hk.after
  rw [hhooks]
  exact .runAll hx (hwrites step r) fun h hh y hy => (haside h hh).after y hy step r

/-- A step of a list that is announced is seen to begin. -/
lemma announce {o : Outcome Unit} (running : f.context.shared.cancelled = false) {f' : Frame}
    (h : m.announce nested step f = (o, f')) (ho : o ≠ .exhausted) :
    o = .done () ∧
      seen f'.context = seen f.context ++ if nested then [] else [begun step] := by
  rw [Machine.announce,
    Action.bind_of_done (Frame.inContext_run (ensureRunning_of_running running))] at h
  cases nested with
  | true =>
    cases h
    exact ⟨rfl, (List.append_nil _).symm⟩
  | false => exact hm.beforeStep step _ _ _ (Frame.inContext_eq h).1 ho

/-- A step of a list that comes to its result is seen to end. -/
lemma report {r' : StepResult} (h : m.report nested step r c = (.done r', c')) :
    seen c' = seen c ++ if nested then [] else [ended step r'] := by
  obtain ⟨r₁, c₁, h₁, h⟩ := Action.bind_done h
  obtain ⟨_, c₂, h₂, h⟩ := Action.bind_done h
  cases h
  have hattach : seen c₁ = seen c := ((hm.own.attachArtifact hm.artifact step r).done h₁).1
  rw [← hattach]
  cases nested with
  | true =>
    cases h₂
    exact (List.append_nil _).symm
  | false =>
    rw [observe, if_neg (by simp)] at h₂
    rcases hx : Hooks.runAll m.hooks (fun h => h.afterStep.map fun x => x step r') c₁ with
      ⟨v | e | _, c₃⟩
    · rw [Action.bind_of_done (Action.attempt_of_done hx)] at h₂
      cases h₂
      exact (hm.afterStep step r' _ _ _ hx (by simp)).2
    · have hdone := (hm.afterStep step r' _ _ _ hx (by simp)).1
      cases hdone
    · rw [Action.bind_of_exhausted (Action.attempt_of_exhausted hx)] at h₂
      cases h₂

end Attended

/-! ### What is seen of a run -/

/-- What is noted from one context to another is what is seen of some results. -/
def sight (seen : Context → List ε) (begun : Step → ε) (ended : Step → StepResult → ε)
    (stopped : Prop) : Entry :=
  fun nested c c' rs => ∃ w, seen c' = seen c ++ w ∧ Seen begun ended stopped nested rs w

variable {stopped : Prop} {R : Context → Context → Prop}

lemma sight_ledger (hm : m.Attended seen begun ended) (stopped : Prop) :
    Ledger (Unnoted seen) (sight seen begun ended stopped) where
  harmless := hm.own
  depth := hm.depth
  nothing nested c c' h := ⟨[], by rw [List.append_nil]; exact h, .nil nested⟩
  append := by
    rintro nested c c' c'' rs rs' ⟨w, hw, hseen⟩ ⟨w', hw', hseen'⟩
    exact ⟨w ++ w', by rw [hw', hw, List.append_assoc], hseen.append hseen'⟩

/-- A step of a list is started behind a request to stop. -/
def Stopped (m : Machine) (layers : Nat) (steps : List Step) (c : Context) : Prop :=
  ∃ a, m.RunsFor layers steps c a ∧ a.nested = false ∧ a.before.shared.cancelled = true

/-- A step that returns. If it stands in a list and the run was asked to stop, that is allowed
for. -/
structure Start.Regular (m : Machine) (stopped : Prop) (a : Start) : Prop extends a.Returns m where
  allowed : a.nested = false → a.before.shared.cancelled = true → stopped

section Start

variable {a : Start} (hm : m.Attended seen begun ended)
include hm

/-- Of a step that is refused only the end is seen. -/
lemma Attended.refused (hc : a.before.shared.cancelled = true)
    (allowed : a.nested = false → stopped)
    (h : m.runWith (a.layers + 1) a.nested a.step a.before = (.done r, c')) :
    sight seen begun ended stopped a.nested a.before c' [r] := by
  rw [runWith_cancelled hc] at h
  have hend := hm.report h
  obtain ⟨v, rfl⟩ := report_done h
  cases hn : a.nested with
  | true =>
    rw [hn] at hend
    have hgiven : StepResult.given { refusal a.before a.step with artifact := v } = [] := rfl
    have hinput : Seen begun ended stopped true [{ refusal a.before a.step with artifact := v }]
        ([] ++ [] ++ []) := .input (hgiven ▸ .nil true) (.nil false) (.nil true)
    exact ⟨[], hend, hinput⟩
  | false =>
    rw [hn] at hend
    exact ⟨_, hend, .refused (allowed hn) (.nil false)⟩

/-- A step shows its beginning and its end around what its inputs and its children show. -/
lemma Attended.announced (running : a.before.shared.cancelled = false)
    (same : SameStep (.blank a.step) r)
    (h : m.Outline (Unnoted seen) (sight seen begun ended stopped) a r c)
    (hend : seen c' = seen c ++ if a.nested then [] else [ended a.step r]) :
    sight seen begun ended stopped a.nested a.before c' [r] := by
  have hrunning : a.fresh.context.shared.cancelled = false := running
  cases h with
  | unannounced announced =>
    have hdone := (hm.announce hrunning announced (by simp)).1
    cases hdone
  | announced announced inputs answered children =>
    have hbegin := (hm.announce hrunning announced (by simp)).2
    obtain ⟨u, hu, hinputs⟩ := inputs
    obtain ⟨w, hw, hchildren⟩ := children
    have hbefore : a.fresh.context = a.before := rfl
    rw [hw, answered, hu, hbegin, hbefore] at hend
    cases hn : a.nested with
    | true =>
      rw [hn] at hend
      refine ⟨u ++ w ++ [], ?_, .input hinputs hchildren (.nil true)⟩
      simpa using hend
    | false =>
      rw [hn] at hend
      refine ⟨_, ?_, .step same hinputs hchildren (.nil false)⟩
      simpa using hend

/-- **What is seen of a step is told by its result**, if it is regular and so are the steps inside
it. -/
lemma Start.Regular.books (ha : a.Regular m stopped)
    (hx : m.InnerBook (sight seen begun ended stopped) a) :
    Books (sight seen begun ended stopped) a.nested (m.runWith (a.layers + 1) a.nested a.step)
      a.before := by
  intro o c' h hne
  obtain ⟨r, rfl, hsame⟩ := ha.done h hne
  refine ⟨r, rfl, ?_⟩
  cases hc : a.before.shared.cancelled with
  | true => exact hm.refused hc (fun hn => ha.allowed hn hc) h
  | false =>
    obtain ⟨r₀, c₁, hconclude, hreport⟩ := Action.bind_done h
    have hend := hm.report hreport
    obtain ⟨v, rfl⟩ := report_done hreport
    have houtline := hx.outline (sight_ledger hm stopped) ha.distinct hm.executor hconclude
    exact hm.announced hc hsame (houtline.withArtifact v) hend

end Start

/-- **Hooks see steps of lists begin and end, one inside the other.** Where no hook around steps
fails, a list that ends comes to results, and what a hook has noted is told by these: a step of a
list has begun and ended once, around what its inputs and its children show, a nested step shows
only these, and a step that is refused shows only its end. So the notes are properly nested if no
step of a list was started behind a request to stop. The exception are steps without results, and
there are none where failures can be recorded and the records of the run can be written. -/
theorem hooks_bracket_steps (m : Machine) (seen : Context → List ε) (begun : Step → ε)
    (ended : Step → StepResult → ε) (hm : m.Attended seen begun ended) (layers : Nat)
    (steps : List Step) (c c' : Context) (o : Outcome (List StepResult))
    (hdistinct : ∀ a, m.RunsFor layers steps c a → (Dict.keys a.step.params).Nodup)
    (h : runList (m.runWith layers false) steps c = (o, c')) (finished : o ≠ .exhausted) :
    ((∃ rs w, o = .done rs ∧ seen c' = seen c ++ w ∧
        Seen begun ended (m.Stopped layers steps c) false rs w ∧
        (¬m.Stopped layers steps c → Paired begun ended w)) ∨
      ∃ a, m.RunsFor layers steps c a ∧ m.Escapes (a.inner m) a.nested a.step a.before) ∧
    (m.Tells → m.Respects SameMarks → c.Loggable →
      ∀ a, m.RunsFor layers steps c a → ¬m.Escapes (a.inner m) a.nested a.step a.before) := by
  refine ⟨?_, fun ht hmarks hlog a hruns => hruns.not_escapes ht hmarks hlog⟩
  by_cases hescapes : ∃ a, m.RunsFor layers steps c a ∧
      m.Escapes (a.inner m) a.nested a.step a.before
  · exact .inr hescapes
  have hregular (a : Start) (ha : m.RunsFor layers steps c a) :
      a.Regular m (m.Stopped layers steps c) :=
    ⟨⟨hdistinct a ha, fun h => hescapes ⟨a, ha, h⟩⟩, fun listed asked => ⟨a, ha, listed, asked⟩⟩
  have hall : AllBook (sight seen begun ended (m.Stopped layers steps c)) (m.runWith layers) steps
      c := .of_runsFor (fun a ha hx => ha.books hm hx) hregular
  obtain ⟨rs, hd, w, hw, hseen⟩ := (sight_ledger hm _).runList hall h finished
  exact .inl ⟨rs, w, hd, hw, hseen, hseen.paired⟩

/-! ### A hook that notes in the journal -/

/-- A hook that notes the beginnings and the ends of steps in the journal. -/
def recorder : Hooks where
  beforeStep := some fun step => Context.note ("begun " ++ step.id)
  afterStep := some fun step _ => Context.note ("ended " ++ step.id)

/-- A machine with groups, and with a block that asks for the run to stop, whose steps are noted. -/
def recordedClosing : Machine := { closing with hooks := [recorder] }

lemma recordedClosing_attended : recordedClosing.Attended notes (fun s => "begun " ++ s.id)
    fun s _ => "ended " ++ s.id where
  own := notes_harmless
  depth _ _ := rfl
  executor type block hb params := by
    obtain ⟨e, he, hexec⟩ := ofExecutors_lookup (show closing.blocks.lookup type = _ from hb)
    rw [hexec]
    obtain rfl | rfl : e = _ ∨ e = _ := by simpa [closing] using he
    · intro c o c' h _
      cases h
      rfl
    · intro c o c' h _
      cases h
      rfl
  artifact hook hk := by cases hk
  hooks := by
    have hnote (s : String) : Writes notes (Context.note s) [s] := by
      intro c o c' h _
      cases h
      exact ⟨rfl, List.reverse_cons⟩
    exact ⟨[], recorder, [], rfl,
      ⟨⟨_, rfl, fun _ => hnote _⟩, ⟨_, rfl, fun _ _ => hnote _⟩⟩, by simp⟩

/-- An empty group. -/
def innerBox : Step := ⟨"inner", "group", [], []⟩

/-- A group inside a group. -/
def boxes : Step := ⟨"outer", "group", [], [("DO", [innerBox])]⟩

lemma boxes_runs {layers : Nat} {a : Start} (h : recordedClosing.RunsFor layers [boxes] c a) :
    a.step = boxes ∨ a.step = innerBox := by
  refine RunsFor.forall_grouped (P := fun x => x = boxes ∨ x = innerBox) "DO" ?_ ?_ ?_ ?_ h
  · intro type block hb params c s c' ran
    obtain ⟨e, he, hexec⟩ := ofExecutors_lookup (show closing.blocks.lookup type = _ from hb)
    rw [hexec] at ran
    obtain rfl | rfl : e = _ ∨ e = _ := by simpa [closing] using he
    · cases ran
      rfl
    · cases ran
  · intro x hx
    exact .inl (List.mem_singleton.mp hx)
  · rintro x (rfl | rfl) <;> rfl
  · rintro x (rfl | rfl) y hy
    · exact .inr (List.mem_singleton.mp hy)
    · cases hy

theorem hooks_bracket_steps_boxes : ∃ o c',
    runList (recordedClosing.runWith 2 false) [boxes] silent = (o, c') ∧ o ≠ .exhausted ∧
    ((∃ rs w, o = .done rs ∧ notes c' = notes silent ++ w ∧
        Seen (fun s => "begun " ++ s.id) (fun s _ => "ended " ++ s.id)
          (recordedClosing.Stopped 2 [boxes] silent) false rs w ∧
        (¬recordedClosing.Stopped 2 [boxes] silent →
          Paired (fun s => "begun " ++ s.id) (fun s _ => "ended " ++ s.id) w)) ∨
      ∃ a, recordedClosing.RunsFor 2 [boxes] silent a ∧
        recordedClosing.Escapes (a.inner recordedClosing) a.nested a.step a.before) := by
  obtain ⟨rs, c', h⟩ := Action.exists_done
    (x := runList (recordedClosing.runWith 2 false) [boxes]) (s := silent) (by decide +kernel)
  refine ⟨.done rs, c', h, by simp, (hooks_bracket_steps recordedClosing notes _ _
    recordedClosing_attended 2 [boxes] silent c' (.done rs) (fun a ha => ?_) h (by simp)).1⟩
  rcases boxes_runs ha with h | h <;> rw [h] <;> exact List.nodup_nil

/-- A step that is started behind one that asks for the run to stop is seen to end, but not to
begin: what the hook has noted is not properly nested. -/
theorem closing_leaves_unpaired : recordedClosing.Attended notes (fun s => "begun " ++ s.id)
      (fun s _ => "ended " ++ s.id) ∧
    ∃ rs c', runList (recordedClosing.runWith 1 false) [close, close] silent = (.done rs, c') ∧
      notes c' = ["begun close", "ended close", "ended close"] ∧
      ¬∃ w, notes c' = notes silent ++ w ∧
        Paired (fun s => "begun " ++ s.id) (fun s _ => "ended " ++ s.id) w := by
  refine ⟨recordedClosing_attended, ?_⟩
  obtain ⟨rs, c', h⟩ := Action.exists_done
    (x := runList (recordedClosing.runWith 1 false) [close, close]) (s := silent)
    (by decide +kernel)
  have hnotes : notes (runList (recordedClosing.runWith 1 false) [close, close] silent).2 =
      ["begun close", "ended close", "ended close"] := by decide +kernel
  rw [h] at hnotes
  refine ⟨rs, c', h, hnotes, ?_⟩
  rintro ⟨w, hw, hpaired⟩
  have hw : w = ["begun close", "ended close", "ended close"] := by
    rw [← hnotes, hw]
    rfl
  have heven := hpaired.length_even
  rw [hw] at heven
  cases heven

end Machine

end BlockSuite
