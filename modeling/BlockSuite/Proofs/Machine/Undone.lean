import BlockSuite.Proofs.Machine.Inside

/-!
How a step comes to fail. Resolving its inputs fails with a nested step, and the work of its signal
with the last step of a list that it has opened; the result of that step is then the last one that
is put on record. Else they fail by themselves, and nothing that fails or skips is put on record but
what has failed in a try slot.
-/

namespace BlockSuite

namespace Machine

open BlockSuite.Frame (inContext note)

variable {m : Machine} {run : Runner} {step : Step} {steps : List Step} {f f' : Frame}
  {e : Failure}

/-- The inputs of a step are resolved one by one, each once. -/
lemma nodup_inputNames (b : Block) (h : (Dict.keys step.params).Nodup) :
    (inputNames b step).Nodup := by
  refine List.nodup_append.mpr ⟨Dict.nodup_keys_ofPairs _, h.filter _, ?_⟩
  rintro name hdec _ hown rfl
  obtain ⟨i, hi, rfl⟩ := List.mem_map.mp hdec
  have hnot := (List.mem_filter.mp hown).2
  have hhas : (declared b).has i.1 = true := List.any_eq_true.mpr ⟨i, hi, by simp⟩
  rw [hhas] at hnot
  cases hnot

/-! ### How resolving inputs fails -/

/-- How resolving inputs fails: with a nested step, whose result is the last that is put on record,
or by itself. -/
inductive Unresolved (run : Runner) (b : Block) (step : Step) (names : List String) (f : Frame)
    (e : Failure) (r : StepResult) : Prop
  | nested {x : Step} {c c' : Context} {rx : StepResult} (asks : Asks run b step names f x c)
    (ran : run true x c = (.done rx, c')) (breaks : rx.breaks = true)
    (failure : rx.failure = some e) (mem : rx ∈ r.given)
    (last : names.Nodup → (∀ n ∈ names, Dict.has f.result.inputs n = false) →
      ∃ pre, r.given = pre ++ [rx])
  | itself (calm : ∀ x ∈ r.given, x ∈ f.result.given ∨ x.breaks = false)

lemma given_withInput {r x : StepResult} {name : String} (h : Dict.has r.inputs name = false) :
    (withInput r name x).given = r.given ++ [x] := by
  simp [withInput, StepResult.given, Dict.set_of_not_has h]

lemma resolveAll_failed (ha : run.Yields StepResult.Accounts) {b : Block} {names : List String}
    (h : resolveAll run b step names f = (.failed e, f')) :
    Unresolved run b step names f e f'.result := by
  induction names generalizing f with
  | nil => cases h
  | cons name rest ih =>
    rcases Action.bind_cases h with ⟨v, f₁, h₁, h⟩ | ⟨o, h₁, hb⟩
    · obtain ⟨o, h, hb⟩ : ∃ o, resolveAll run b step rest f₁ = (o, f') ∧
          Action.Broken o (.failed e : Outcome (Dict Value)) := by
        rcases Action.bind_cases h with ⟨vs, f₂, -, h⟩ | hbroken
        · cases h
        · exact hbroken
      obtain rfl := hb.of_failed
      have hgiven := resolveInput_cases ha h₁
      cases ih h with
      | nested asks ran breaks failure mem last =>
        refine .nested (.later h₁ asks) ran breaks failure mem fun hnd hfresh => ?_
        obtain ⟨hname, hnd⟩ := List.nodup_cons.mp hnd
        have hrest (n) (hn : n ∈ rest) := hfresh n (List.mem_cons_of_mem _ hn)
        refine last hnd fun n hn => ?_
        cases hgiven with
        | direct => exact hrest n hn
        | given bound ran calm =>
          have hne : name ≠ n := fun h => hname (h ▸ hn)
          exact (Dict.has_set_of_ne hne _).trans (hrest n hn)
      | itself calm =>
        refine .itself fun x hx => ?_
        rcases calm x hx with hx | hx
        · cases hgiven with
          | direct => exact .inl hx
          | given bound ran hcalm =>
            rcases mem_given_withInput hx with rfl | hx
            · exact .inr hcalm
            · exact .inl hx
        · exact .inr hx
    · obtain rfl := hb.of_failed
      cases resolveInput_cases ha h₁ with
      | direct => exact .itself fun x hx => .inl hx
      | broken bound ran breaks failure =>
        refine .nested (.here bound) ran breaks failure (mem_withInput _ _ _) fun _ hfresh => ?_
        exact ⟨_, given_withInput (hfresh name List.mem_cons_self)⟩

/-! ### How work fails -/

/-- How some work fails: with the last step of a list that it has opened, whose results are the last
that are put on record, or by itself, behind results that neither fail nor skip. -/
inductive Undone (run : Runner) (f : Frame) (w : Work) (e : Failure) (r : StepResult) : Prop
  | inside {k : Nat} {steps : List Step} {c c' : Context} {rs : List StepResult}
    (opened : Opens run f w k steps c) (kept : w.tries k = false)
    (ran : runList (run false) steps c = (.done rs, c')) (broken : BrokenBy rs e)
    (last : ∃ pre, r.children = pre ++ rs)
  | itself (rest : List StepResult)
    (children : r.children = f.result.children ++ tried run f.context w ++ rest)
    (calm : ∀ x ∈ rest, x.breaks = false)

lemma Undone.of_same {w : Work} {r : StepResult} (hr : r = f.result)
    (hw : tried run f.context w = []) : Undone run f w e r :=
  .itself [] (by simp [hr, hw]) (by simp)

section Lists

variable (ha : run.Yields StepResult.Accounts)
include ha

lemma runBody_failed (h : runBody run steps f = (.failed e, f')) :
    (∃ rs c, runList (run false) steps f.context = (.done rs, c) ∧ BrokenBy rs e ∧
      f'.result.children = f.result.children ++ rs) ∨ f'.result = f.result := by
  rcases runBody_cases ha h with ⟨rs, hl, had⟩ | ⟨o, -, hr, -⟩
  · exact .inl ⟨rs, _, hl, had.of_failed, had.children⟩
  · exact .inr hr

lemma runBody_done (h : runBody run steps f = (.done (), f')) :
    ∃ rs, f'.result.children = f.result.children ++ rs ∧ ∀ x ∈ rs, x.breaks = false := by
  rcases runBody_cases ha h with ⟨rs, hl, had⟩ | ⟨o, -, -, hb⟩
  · exact ⟨rs, had.children, had.breaks⟩
  · exact hb.not_done.elim

lemma runPasses_failed {starts : List (Run Unit)}
    (h : runPasses (runBody run steps) starts f = (.failed e, f')) :
    (∃ k c rs c', Pass run steps starts f k c ∧ runList (run false) steps c = (.done rs, c') ∧
      BrokenBy rs e ∧ ∃ pre, f'.result.children = pre ++ rs) ∨
    ∃ rest, f'.result.children = f.result.children ++ rest ∧ ∀ x ∈ rest, x.breaks = false := by
  induction starts generalizing f with
  | nil => cases h
  | cons start rest ih =>
    rcases Action.bind_cases h with ⟨_, f₁, h₁, h⟩ | ⟨o, h₁, -⟩
    swap
    · exact .inr ⟨[], by rw [(Frame.inContext_eq h₁).2, List.append_nil], by simp⟩
    have hr₁ := (Frame.inContext_eq h₁).2
    rcases Action.bind_cases h with ⟨_, f₂, h₂, h⟩ | ⟨o, h₂, hb⟩
    · obtain ⟨rs, hrs, hcalm⟩ := runBody_done ha h₂
      rw [hr₁] at hrs
      rw [Action.bind_of_done (hasReturned_run f₂)] at h
      cases hret : f₂.result.returned with
      | true =>
        rw [hret] at h
        cases h
      | false =>
        rw [hret] at h
        rcases ih h with ⟨k, c, rs', c', hp, hl, hbroken, hlast⟩ | ⟨more, hmore, hcalm'⟩
        · exact .inl ⟨k + 1, c, rs', c', .later h₁ h₂ hret hp, hl, hbroken, hlast⟩
        · refine .inr ⟨rs ++ more, by rw [hmore, hrs, List.append_assoc], fun x hx => ?_⟩
          exact (List.mem_append.mp hx).elim (hcalm x) (hcalm' x)
    · obtain rfl := hb.of_failed
      rcases runBody_failed ha h₂ with ⟨rs, c, hl, hbroken, hrs⟩ | hsame
      · exact .inl ⟨0, _, rs, c, .here h₁, hl, hbroken, _, hrs⟩
      · exact .inr ⟨[], by rw [hsame, hr₁, List.append_nil], by simp⟩

/-- A list that no failure ends ends with a skip at most. -/
lemma BrokenBy.skip {rs : List StepResult} {c c' : Context} (h : BrokenBy rs e)
    (hrun : runList (run false) steps c = (.done rs, c')) (hn : rs.find? (·.isFatal) = none) :
    ∃ reason, e = .skip reason := by
  obtain ⟨pre, r, rfl, -, hb, he⟩ := h
  have hr : r ∈ pre ++ [r] := by simp
  have hnot : ¬r.isFatal = true := List.find?_eq_none.mp hn r hr
  obtain ⟨reason, -, hskip, -⟩ := (forall_runList ha hrun r hr).skipped
    ((StepResult.breaks_iff.mp hb).resolve_left hnot)
  rw [hskip] at he
  cases he
  exact ⟨reason, rfl⟩

lemma runTrial_failed {tries handler : List Step} {errorBinding : Option String}
    (he : ∀ reason, e ≠ .skip reason)
    (h : runTrial run tries handler errorBinding f = (.failed e, f')) :
    Undone run f (.trial tries handler errorBinding) e f'.result := by
  rcases runTrial_cases h with ⟨o, hl, hr, hb⟩ | ⟨rs, c, hl, ⟨hn, h⟩ | ⟨x, hx, h⟩⟩
  · obtain rfl := hb.of_failed
    exact .of_same hr (by simp only [tried, triedBy, hl])
  · obtain ⟨-, had⟩ := adopt_cases (ended_of_runList hl) (forall_runList ha hl) h
    obtain ⟨reason, hskip⟩ := had.of_failed.skip ha hl hn
    exact absurd hskip (he reason)
  · have ht : tried run f.context (.trial tries handler errorBinding) = rs := by
      simp only [tried, triedBy, hl]
    rcases Action.bind_cases h with ⟨_, f₁, h₁, h⟩ | ⟨o, h₁, -⟩
    · obtain ⟨hbegin, hr₁⟩ := Frame.inContext_eq h₁
      rcases runBody_failed ha h with ⟨rs', c', hl', hbroken, hrs⟩ | hsame
      · exact .inside (.handler hl hx hbegin) rfl hl' hbroken ⟨_, hrs⟩
      · exact .itself [] (by rw [hsame, hr₁, ht, List.append_nil]) (by simp)
    · exact .itself [] (by rw [(Frame.inContext_eq h₁).2, ht, List.append_nil]) (by simp)

/-- **How work fails**, unless with a skip. -/
lemma carryOut_failed {w : Work} (he : ∀ reason, e ≠ .skip reason)
    (h : carryOut run w f = (.failed e, f')) : Undone run f w e f'.result := by
  cases w with
  | passes starts steps =>
    obtain ⟨o, h, hv⟩ := Action.bind_valued (fun _ f => ⟨_, bodyOutput_run f⟩) h
    obtain rfl := hv.of_failed
    rcases runPasses_failed ha h with ⟨k, c, rs, c', hp, hl, hbroken, hlast⟩ | ⟨rest, hrest, hc⟩
    · exact .inside (.pass hp) rfl hl hbroken hlast
    · have ht : tried run f.context (.passes starts steps) = [] := rfl
      exact .itself rest (by rw [hrest, ht, List.append_nil]) hc
  | trial tries handler errorBinding =>
    obtain ⟨o, h, hv⟩ := Action.bind_valued (fun _ f => ⟨_, bodyOutput_run f⟩) h
    obtain rfl := hv.of_failed
    exact runTrial_failed ha he h
  | frame args steps expectReturn =>
    rcases Action.bind_cases h with ⟨bindings, f₁, h₁, h⟩ | ⟨o, h₁, -⟩
    · obtain ⟨hargs, hr₁⟩ := Frame.inContext_eq h₁
      cases runFrame_cases h with
      | unbound binds hb => exact .of_same hr₁ rfl
      | failed binds body => exact .of_same hr₁ rfl
      | @ended c c' rs o f' binds body raises =>
        have hargs := bindArguments_done hargs binds
        rcases frameResult_cases (ended_of_runList body) (forall_runList ha body) raises with
          ⟨ho, -⟩ | ⟨e', ho, hbroken⟩
        · cases ho
        · cases ho
          rw [frameResult_same raises]
          exact .inside (.frame hargs) rfl body hbroken ⟨_, rfl⟩
    · exact .of_same (Frame.inContext_eq h₁).2 rfl
  | leave v =>
    by_cases hd : f.context.callDepth = 0
    · rw [carryOut_leave_stray hd] at h
      obtain ⟨o, h₁, -⟩ := Action.bind_valued (fun _ _ => ⟨_, rfl⟩) h
      exact .of_same (Frame.inContext_eq h₁).2 rfl
    · rw [carryOut_leave hd] at h
      cases h
  | define name procedure =>
    obtain ⟨o, h₁, -⟩ := Action.bind_valued (fun _ _ => ⟨_, rfl⟩) h
    exact .of_same (Frame.inContext_eq h₁).2 rfl

end Lists

end Machine

end BlockSuite
