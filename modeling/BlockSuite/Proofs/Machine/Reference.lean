import BlockSuite.Proofs.Portable
import BlockSuite.Library.Operator
import BlockSuite.Proofs.Machine.Passing

/-!
Values that are referenced. A literal of a mapping, of a list or of a number may be written as the
placeholder of a variable. The placeholder is filled with a text of the value of the variable, and
the block reads the text again. Values that JSON carries survive this.
-/

namespace BlockSuite

/-- Nothing in the row of a context hides a variable. -/
lemma Context.binding_of_variable {c : Context} {x : String} {v : Value}
    (row : ∀ row, c.row = some row → row.values.get? x = none)
    (bound : c.bindings.get? x = some v) (hnull : v ≠ .null) : c.scopes.binding? x = some v := by
  have hbindings : Scopes.binding? [c.bindings] x = some v := by
    cases v <;> first | exact absurd rfl hnull | simp [Scopes.binding?, bound]
  rw [Context.scopes]
  split
  · next r hr =>
    rw [← hbindings]
    simp [Scopes.binding?, row r hr]
  · exact hbindings

namespace Machine

variable {m : Machine} {step : Step} {nested : Bool} {layers : Nat} {block : Block}
  {input x : String} {v : Value} {c c₀ c₁ : Context}

/-- The blocks of literals that are read from a text, with the input that holds the text and the
values that they may give. -/
inductive Decodes : Block → String → Value → Prop
  | object (d : Dict Value) : Decodes Library.literalObject "JSON" (.record d)
  | array (xs : List Value) : Decodes Library.literalArray "JSON" (.list xs)
  | number (i : Int) : Decodes Library.literalNumber "NUM" (.int i)

namespace Decodes

lemma ne_null (h : Decodes block input v) : v ≠ .null := by cases h <;> simp [Value.record]

/-- The input that is read comes first. -/
lemma order (h : Decodes block input v) (step : Step) :
    inputOrder block step = input :: (inputOrder block step).drop 1 := by
  cases h <;> rfl

lemma readJson_run {label s : String} (h : Json.read s = .ok v) (c : Context) :
    Library.readJson label (.text s) c = (.done v, c) := by
  have htext : Library.textOf (.text s) c = (.done s, c) := rfl
  rw [Library.readJson, Action.bind_of_done htext, h]
  rfl

lemma shaped_run {isShaped : Value → Bool} {label s : String} (hs : isShaped (.text s) = false)
    (hv : isShaped v = true) (h : Json.read s = .ok v) (c : Context) :
    Library.shaped isShaped label (.text s) c = (.done (.value v), c) := by
  simp only [Library.shaped, hs, Bool.false_eq_true, if_false]
  rw [Action.bind_of_done (readJson_run h c), if_pos hv]
  rfl

/-- The block reads the value from its text. -/
lemma executor_run (h : Decodes block input v) (portable : v.Portable) :
    ∃ s, v.toText = .ok s ∧ ∀ (params : Dict Value), params.get? input = some (.text s) →
      ∀ c, block.executor params c = (.done (.value v), c) := by
  cases h with
  | object d =>
    obtain ⟨s, hs, hread⟩ := portable.read_toJson
    refine ⟨s, hs, fun params hget c => ?_⟩
    change Library.shaped Value.isMapping "object" ((params.get? "JSON").getD _) c = _
    rw [hget]
    exact shaped_run rfl rfl hread c
  | array xs =>
    obtain ⟨s, hs, hread⟩ := portable.read_toJson
    refine ⟨s, hs, fun params hget c => ?_⟩
    change Library.shaped Library.isList "array" ((params.get? "JSON").getD _) c = _
    rw [hget]
    exact shaped_run rfl rfl hread c
  | number i =>
    have hshort : Number.isShort i = true := by cases portable with | int short => exact short
    refine ⟨_, Number.intText_short hshort, fun params hget c => ?_⟩
    change (Library.numberOf ((params.get? "NUM").getD (.int 0)) >>= fun n => _) c = _
    have hnumber : Library.numberOf ((params.get? "NUM").getD (.int 0)) c =
        (.done (.whole i), c) := by
      rw [hget, Library.numberOf, Action.compute_run, Option.getD_some, Value.toNumber,
        Number.readInt_spelled hshort]
    rw [Action.bind_of_done hnumber]
    rfl

end Decodes

/-- A step that reads its value from the placeholder of a variable, and how it comes to its inputs:
the variable is bound where these are resolved, no row hides it, and the other inputs, should there
be any, come to values. -/
inductive Refers (m : Machine) (layers : Nat) (nested : Bool) (step : Step) (x : String) (v : Value)
    (c : Context) : Prop
  | mk {block : Block} {input : String} {c₀ c₁ : Context} {rs : Dict StepResult} {vs : Dict Value}
    (known : m.blocks.lookup step.type = some block) (decodes : Decodes block input v)
    (begins : m.Begins nested step c c₀)
    (text : Dict.get? step.params input = some (.literal (.text (placeholder x))))
    (bound : c₀.bindings.get? x = some v)
    (row : ∀ row, c₀.row = some row → row.values.get? x = none)
    (others : Supplied (m.runWith layers) block step ((inputOrder block step).drop 1) c₀ rs vs c₁)

/-- Where inputs come to values, they are put on record, and nothing else is. -/
lemma Supplied.prepares {rs : Dict StepResult} {vs : Dict Value}
    (known : m.blocks.lookup step.type = some block)
    (h : Supplied (m.runWith layers) block step (inputOrder block step) c₀ rs vs c₁) :
    ∃ inputs, m.prepare (m.runWith layers) step ⟨c₀, .blank step⟩ =
      (.done (block, vs), recorded step { c₁ with currentStep := some step } inputs) := by
  have ha := m.runWith_accounts layers
  obtain ⟨r, hresolve⟩ := h.resolveAll_run (.blank step)
  obtain ⟨inputs, hr⟩ := (resolveAll_resolves ha ha hresolve).record
  obtain rfl : r = { StepResult.blank step with inputs := inputs } := hr
  rw [← inputNames_eq] at hresolve
  refine ⟨inputs, ?_⟩
  rw [prepare, known]
  exact Action.bind_of_done hresolve _

/-- Once its inputs have come to their values, a step does what its block answers. -/
lemma Supplied.evaluates {rs : Dict StepResult} {vs : Dict Value}
    (known : m.blocks.lookup step.type = some block) (begins : m.Begins nested step c c₀)
    (h : Supplied (m.runWith layers) block step (inputOrder block step) c₀ rs vs c₁) :
    ∃ inputs, m.evaluate (m.runWith layers) nested step ⟨c, .blank step⟩ =
      (invoke block vs >>= respond (m.runWith layers) step)
        (recorded step { c₁ with currentStep := some step } inputs) := by
  obtain ⟨inputs, hprepare⟩ := h.prepares known
  have hconsult : m.consult (m.runWith layers) nested step ⟨c, .blank step⟩ =
      invoke block vs (recorded step { c₁ with currentStep := some step } inputs) :=
    (begins.consult _).trans (Action.bind_of_done hprepare _)
  refine ⟨inputs, ?_⟩
  rw [evaluate, Action.bind_run, hconsult, ← Action.bind_run]

/-- No artifact is attached to a result that is not fatal. -/
lemma report_of_calm {r : StepResult} (h : r.isFatal = false) :
    m.report nested step r = m.observe nested step r >>= fun _ => pure r := by
  have hhook : m.artifactHookFor step r = none := by rw [artifactHookFor, h]; rfl
  have hattach : m.attachArtifact step r = pure r := by rw [attachArtifact, hhook]
  rw [report, hattach]
  rfl

/-- A step whose block answers with a value comes to this value, if the block collects nothing. -/
lemma Supplied.comes {rs : Dict StepResult} {vs : Dict Value} {c' : Context}
    (known : m.blocks.lookup step.type = some block) (begins : m.Begins nested step c c₀)
    (h : Supplied (m.runWith layers) block step (inputOrder block step) c₀ rs vs c₁)
    (answers : block.executor vs { c₁ with currentStep := some step } = (.done (.value v), c'))
    (calm : c'.softErrors = c₁.softErrors) :
    ∃ r, r.status = .passed ∧ r.output = v ∧ m.runWith (layers + 1) nested step c =
      (m.observe nested step r >>= fun _ => pure r) { c' with currentStep := c.currentStep } := by
  obtain ⟨inputs, heval⟩ := h.evaluates known begins
  have hinvoke := invoke_calm (f := recorded step { c₁ with currentStep := some step } inputs)
    answers calm
  rw [Action.bind_of_done hinvoke] at heval
  refine ⟨{ (recorded step c' inputs).result with output := v }, rfl, rfl, ?_⟩
  rw [runWith, runLayer, Action.bind_of_done (conclude_of_done heval), report_of_calm rfl]
  rfl

/-- A step that refers to a variable comes to the value of the variable. -/
lemma Refers.evaluates (h : Refers m layers nested step x v c)
    (identifier : Name.isIdentifier x.toList = true) (portable : v.Portable) :
    ∃ c' inputs, m.evaluate (m.runWith layers) nested step ⟨c, .blank step⟩ =
      (.done v, recorded step c' inputs) := by
  cases h with
  | @mk block input c₀ c₁ rs vs known decodes begins text bound row others =>
    obtain ⟨s, htext, hexecutor⟩ := decodes.executor_run portable
    have hfill : Template.fill c₀.scopes (placeholder x) = .ok s :=
      Template.fill_bound identifier (Context.binding_of_variable row bound decodes.ne_null)
        decodes.ne_null htext
    have hgives : Gives (m.runWith layers) block step input c₀ [] (.text s) c₀ := by
      refine .plain (v := .text (placeholder x)) (by rw [sourceOf, text]) ?_
      rw [Template.fillValue, hfill]
      rfl
    have hsupplied := Supplied.cons hgives others
    rw [← decodes.order] at hsupplied
    obtain ⟨inputs, heval⟩ := hsupplied.evaluates known begins
    have hanswer := invoke_same (f := recorded step { c₁ with currentStep := some step } inputs)
      (hexecutor ((input, .text s) :: vs) (by rw [Dict.get?_cons, if_pos rfl]) _)
    exact ⟨{ c₁ with currentStep := some step }, inputs,
      heval.trans (Action.bind_of_done hanswer _)⟩

/-- **Values survive being substituted into JSON.** A value that JSON carries comes back from its
compact JSON as it was, and no other such value has the same JSON. A literal of a mapping, of a list
or of a number that is written as the placeholder of a variable therefore gives the value of the
variable: the observers of the machine are shown a result that has passed with this value, and where
they come to an end it is the result of the step. -/
theorem values_survive_substitution {v : Value} (portable : v.Portable) :
    (∃ s, v.toJson = .ok s ∧ Json.read s = .ok v) ∧
    (∀ w : Value, w.Portable → w.toJson = v.toJson → w = v) ∧
    ∀ {m : Machine} {layers : Nat} {nested : Bool} {step : Step} {x : String} {c : Context},
      Refers m layers nested step x v c → Name.isIdentifier x.toList = true →
        ∃ r c', r.status = .passed ∧ r.output = v ∧
          m.runWith (layers + 1) nested step c =
            (m.observe nested step r >>= fun _ => pure r) c' := by
  refine ⟨portable.read_toJson, fun w hw h => hw.toJson_injective portable h,
    fun {m layers nested step x c} refers identifier => ?_⟩
  obtain ⟨c', inputs, heval⟩ := refers.evaluates identifier portable
  refine ⟨{ (recorded step c' inputs).result with output := v },
    { c' with currentStep := c.currentStep }, rfl, rfl, ?_⟩
  rw [runWith, runLayer, Action.bind_of_done (conclude_of_done heval), report_of_calm rfl]
  rfl

/-- A context that binds a mapping with a key in quotation marks, a control character, a number
below zero and an empty list. -/
def ledger : Dict Value :=
  [("say \"hi\"", .text (String.ofList [Char.ofNat 1, 'é'])), ("b", .list [.int (-12), .list []])]

lemma ledger_portable : (Value.record ledger).Portable := by
  refine .dict (by decide) fun e he => ?_
  simp only [ledger, List.mem_cons, List.not_mem_nil, or_false] at he
  rcases he with rfl | rfl
  · exact .text _
  · refine .list fun x hx => ?_
    simp only [List.mem_cons, List.not_mem_nil, or_false] at hx
    rcases hx with rfl | rfl
    · exact .int (by decide)
    · exact .list fun x hx => by cases hx

/-- A step with the placeholder of a variable for a mapping. -/
def copying : Step :=
  ⟨"copy", "logic_object", [("JSON", .literal (.text (placeholder "book")))], []⟩

theorem values_survive_substitution_ledger :
    let m : Machine := { blocks := [[("logic_object", Library.literalObject)]] }
    let c : Context := { silent with bindings := [("book", .record ledger)] }
    (Value.record ledger).Portable ∧ Refers m 0 true copying "book" (.record ledger) c ∧
      Name.isIdentifier "book".toList = true ∧
      ∃ r c', m.runWith 1 true copying c = (.done r, c') ∧ r.output = .record ledger := by
  intro m c
  have hrefers : Refers m 0 true copying "book" (.record ledger) c :=
    .mk rfl (.object ledger) ⟨rfl, rfl⟩ rfl rfl (fun row hrow => by cases hrow) (.nil c)
  have hidentifier : Name.isIdentifier "book".toList = true := by decide
  obtain ⟨-, -, hgives⟩ := values_survive_substitution ledger_portable
  obtain ⟨r, c', -, houtput, hrun⟩ := hgives hrefers hidentifier
  exact ⟨ledger_portable, hrefers, hidentifier, r, c', hrun, houtput⟩

end Machine

end BlockSuite
