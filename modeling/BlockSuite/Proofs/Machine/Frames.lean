import BlockSuite.Proofs.Machine.Keeps

/-!
The discipline of call frames. As long as executors and hooks leave the position in a run alone, a
step leaves as many frames open as it has found, and the step that was current is current again. A
frame binds its names while its body runs: behind it each of them is bound as before, and what the
body has done to other names stays.
-/

namespace BlockSuite

namespace Context

/-- As many call frames are open. -/
def SameDepth (c c' : Context) : Prop := c'.callDepth = c.callDepth

/-- As many call frames are open, and the same step is current. -/
structure SamePosition (c c' : Context) : Prop where
  depth : c'.callDepth = c.callDepth
  step : c'.currentStep = c.currentStep

/-- The variables are the same. -/
def SameBindings (c c' : Context) : Prop := c'.bindings = c.bindings

end Context

namespace Machine

open BlockSuite.Frame (inContext note)
open BlockSuite.Action (Contract Keeps Meets)
open BlockSuite.Context (SameDepth SamePosition SameBindings)

variable {m : Machine} {run : Runner} {step : Step}

/-! ### The position in a run -/

lemma sameDepth_harmless : Harmless (.keeping SameDepth) where
  refl _ := rfl
  trans _ _ _ h h' := h'.trans h
  records _ _ := rfl
  bindings _ _ := rfl
  currentStep _ _ := rfl
  procedures _ _ := rfl
  frame c c' h := by
    change c'.callDepth - 1 = c.callDepth
    rw [show c'.callDepth = c.callDepth + 1 from h, Nat.add_sub_cancel]
  fault _ := trivial
  error _ _ _ := trivial

lemma samePosition_journalFree : JournalFree (.keeping SamePosition) where
  refl _ := ⟨rfl, rfl⟩
  trans _ _ _ h h' := ⟨h'.depth.trans h.depth, h'.step.trans h.step⟩
  records _ _ := ⟨rfl, rfl⟩
  fault _ := trivial

lemma sameBindings_journalFree : JournalFree (.keeping SameBindings) where
  refl _ := rfl
  trans _ _ _ h h' := h'.trans h
  records _ _ := rfl
  fault _ := trivial

lemma runWith_position (hm : m.Respects SamePosition) (n : Nat) (nested : Bool) (step : Step) :
    Keeps SamePosition (m.runWith n nested step) := by
  intro c o c' h ho
  have hd := runWith_keeps sameDepth_harmless (hm.mono fun _ _ h => h.depth) n nested step
  refine ⟨hd c o c' h ho, ?_⟩
  cases n with
  | zero =>
    obtain ⟨rfl, -⟩ := Prod.mk.inj h
    exact absurd rfl ho
  | succ n =>
    rcases Action.bind_cases h with ⟨r, c₁, h₁, h₂⟩ | ⟨o', h₁, hb⟩
    · have hr := (samePosition_journalFree.report hm.watched.shown nested step r).keeps _ _ _ h₂ ho
      exact hr.step.trans (conclude_currentStep h₁ (by simp))
    · exact conclude_currentStep h₁ (hb.ne_exhausted ho)

/-! ### The names of a frame -/

lemma get?_restored (before : Dict Value) (names : List String) (after : Dict Value)
    (name : String) :
    (restored before names after).get? name =
      if name ∈ names then before.get? name else after.get? name := by
  induction names generalizing after with
  | nil => rfl
  | cons key rest ih =>
    rw [restored, List.foldl_cons]
    change (restored before rest _).get? name = _
    rw [ih]
    by_cases hin : name ∈ rest
    · rw [if_pos hin, if_pos (List.mem_cons_of_mem _ hin)]
    by_cases hname : key = name
    · subst hname
      rw [if_neg hin, if_pos List.mem_cons_self]
      cases hb : before.get? key with
      | some v => exact Dict.get?_set_self after key v
      | none => exact Dict.get?_erase_self after key
    · have hcons : name ∉ key :: rest := by
        simp only [List.mem_cons, not_or]
        exact ⟨fun h => hname h.symm, hin⟩
      rw [if_neg hin, if_neg hcons]
      cases before.get? key with
      | some v => exact Dict.get?_set_ne after v hname
      | none => exact Dict.get?_erase_ne after hname

/-- **Behind a frame each of its names is bound as before**, and every other name as its body has
left it, unless the frame was not entered for want of arguments. -/
lemma perform_frame {s : Signal} {args : Run (Dict Value)} {body : List Step} {expectReturn : Bool}
    (hs : s.work step = .frame args body expectReturn) {f f' : Frame} {o : Outcome Value}
    (h : perform run step s f = (o, f')) (ho : o ≠ .exhausted) :
    (∃ e, bindArguments args f.context = (.failed e, f'.context) ∧ o = .failed e) ∨
      ∃ bindings c o' c', bindArguments args f.context = (.done bindings, c) ∧
        runList (run false) body (openFrame c) = (o', c') ∧ o' ≠ .exhausted ∧
        ∀ name, f'.context.bindings.get? name =
          if name ∈ bindings.keys then f.context.bindings.get? name
          else c'.bindings.get? name := by
  rw [perform_eq, hs] at h
  rcases Action.bind_cases h with ⟨bindings, f₁, h₁, h⟩ | ⟨o', h₁, hb⟩
  · obtain ⟨hargs, -⟩ := Frame.inContext_eq h₁
    have hsame : f₁.context.bindings = f.context.bindings :=
      ((sameBindings_journalFree.work_args hs).done hargs).1
    have hbound {o : Outcome Unit} {c : Context} (hb : bindEach bindings f₁.context = (o, c)) :
        bindArguments args f.context =
          (do
            bindEach bindings
            return bindings : Run (Dict Value)) f₁.context :=
      Action.bind_of_done hargs _
    have hlaw {c c' : Context} {o' : Outcome (List StepResult)}
        (binds : bindEach bindings f₁.context = (.done (), c))
        (hbody : runList (run false) body (openFrame c) = (o', c')) (ho' : o' ≠ .exhausted)
        (hf' : f'.context = closeFrame f₁.context.bindings bindings.keys c') :
        ∃ bindings c o' c', bindArguments args f.context = (.done bindings, c) ∧
          runList (run false) body (openFrame c) = (o', c') ∧ o' ≠ .exhausted ∧
          ∀ name, f'.context.bindings.get? name =
            if name ∈ bindings.keys then f.context.bindings.get? name
            else c'.bindings.get? name := by
      refine ⟨bindings, c, o', c', ?_, hbody, ho', fun name => ?_⟩
      · rw [hbound binds, Action.bind_of_done binds]
        rfl
      · rw [hf', ← hsame]
        exact get?_restored _ _ _ _
    cases runFrame_cases h with
    | unbound binds hb =>
      cases hb with
      | failed e =>
        refine .inl ⟨e, ?_, rfl⟩
        rw [hbound binds, Action.bind_of_failed binds]
      | exhausted => exact absurd rfl ho
    | unfinished binds hbody => exact absurd rfl ho
    | failed binds hbody => exact .inr (hlaw binds hbody (by simp) rfl)
    | ended binds hbody raises =>
      refine .inr (hlaw binds hbody (by simp) ?_)
      rw [frameResult_same raises]
  · obtain ⟨hargs, -⟩ := Frame.inContext_eq h₁
    cases hb with
    | failed e => exact .inl ⟨e, Action.bind_of_failed hargs _, rfl⟩
    | exhausted => exact absurd rfl ho

/-- A machine with a block that opens a frame over a name and one that leaves it. -/
def shadowing : Machine :=
  ofExecutors
    [("open", return .signal (.expand [⟨"inner", "leave", [], []⟩] none true [("x", .int 2)])),
      ("leave", return .signal (.leave (.int 3)))]

end Machine

end BlockSuite
