import BlockSuite.Library.Catalog
import BlockSuite.Proofs.Elementary

/-!
The blocks of the library. All but three have executors that are put together from elementary
actions: those that call procedures and the one that takes an assertion. Only the latter has to do
with assertions. All others neither look at the mode nor at what was collected.
-/

namespace BlockSuite.Library

/-- A block whose executor is put together from elementary actions. -/
def IsElementary (block : Block) : Prop := ∀ params, Elementary (block.executor params)

/-- A block whose executor has nothing to do with assertions. -/
def IsAloof (block : Block) : Prop := ∀ params, Aloof (block.executor params)

/-! ### What executors are made of -/

section Parts

variable (params : Dict Value) (name : String) (v : Value)

lemma elementary_need : Elementary (need params name) := by
  unfold need
  split
  · exact .pure _
  · exact .fail _

lemma elementary_textOf : Elementary (textOf v) := .compute _

lemma elementary_needText : Elementary (needText params name) :=
  (elementary_need params name).bind elementary_textOf

lemma elementary_numberOf : Elementary (numberOf v) := .compute _

lemma elementary_refuse {α : Type} (message : String) : Elementary (refuse message : Run α) :=
  .fail _

lemma elementary_readJson (label : String) : Elementary (readJson label v) := by
  refine (elementary_textOf v).bind fun s => ?_
  split
  · exact .pure _
  · exact .fail _
  · exact elementary_refuse _

lemma elementary_itemsOf (purpose : String) : Elementary (itemsOf purpose v) := by
  unfold itemsOf
  split
  · exact .pure _
  · split
    · exact .pure _
    · exact elementary_refuse _

lemma elementary_loopOver (items : List Value) (binding : String) (indexBinding : Option String) :
    Elementary (loopOver items binding indexBinding) := by
  unfold loopOver
  split
  · exact .pure _
  · exact .fail _

lemma elementary_readVariable : Elementary (readVariable params) :=
  (elementary_needText params "NAME").bind fun _ => (Elementary.readPath _).bind fun _ => .pure _

lemma elementary_shaped (isShaped : Value → Bool) (label : String) :
    Elementary (shaped isShaped label v) := by
  unfold shaped
  split
  · exact .pure _
  · refine (elementary_readJson v label).bind fun w => ?_
    split
    · exact .pure _
    · exact elementary_refuse _

end Parts

/-! ### Variables, branches and loops -/

lemma setVariable_elementary : IsElementary setVariable := fun params =>
  (elementary_needText params "NAME").bind fun _ =>
    (Elementary.setVariable _ _).bind fun _ => .pure _

lemma repeatTimes_elementary : IsElementary repeatTimes := fun params =>
  (elementary_need params "TIMES").bind fun _ => (elementary_numberOf _).bind fun _ =>
    (Elementary.compute _).bind fun _ => .pure _

lemma forEach_elementary : IsElementary forEach := fun params =>
  (elementary_itemsOf _ _).bind fun _ => (elementary_needText params "VAR").bind fun _ =>
    elementary_loopOver _ _ _

lemma tryCatch_elementary : IsElementary tryCatch := fun params => by
  change Elementary (if (input params "ERROR_VAR").isTruthy then _ else _)
  split
  · exact ((elementary_textOf _).bind fun _ => .pure _).bind fun _ => .pure _
  · exact .pure _

lemma logMessage_elementary : IsElementary logMessage := fun _ =>
  (elementary_textOf _).bind fun _ => (elementary_textOf _).bind fun _ =>
    (Elementary.log _ _ _ _).bind fun _ => .pure _

lemma failWith_elementary : IsElementary failWith := fun _ =>
  (elementary_textOf _).bind fun _ => elementary_refuse _

lemma skipIf_elementary : IsElementary skipIf := fun params => by
  change Elementary (if (input params "CONDITION").toBool then _ else _)
  split
  · exact (elementary_textOf _).bind fun _ => (Elementary.log _ _ _ _).bind fun _ => .fail _
  · exact .pure _

/-! ### Literals and operators -/

lemma literalText_elementary : IsElementary literalText := fun _ =>
  (elementary_textOf _).bind fun _ => .pure _

lemma literalNumber_elementary : IsElementary literalNumber := fun _ =>
  (elementary_numberOf _).bind fun _ => .pure _

lemma compareValues_elementary : IsElementary compareValues := fun params => by
  refine (elementary_textOf _).bind fun name => ?_
  split
  · exact (Elementary.compute _).bind fun _ => .pure _
  · exact elementary_refuse _

lemma combineBooleans_elementary : IsElementary combineBooleans := fun _ =>
  (elementary_textOf _).bind fun _ => .pure _

lemma arithmetic_elementary : IsElementary arithmetic := fun params => by
  refine (elementary_textOf _).bind fun name => ?_
  split
  · refine (elementary_numberOf _).bind fun a => (elementary_numberOf _).bind fun b => ?_
    split
    · exact .pure _
    · exact elementary_refuse _
    · exact .fail _
  · exact elementary_refuse _

/-! ### Procedures -/

lemma defineProcedure_elementary : IsElementary defineProcedure := fun params => by
  refine (elementary_needText params "NAME").bind fun name => ?_
  refine (elementary_textOf _).bind fun description => ?_
  refine (elementary_textOf _).bind fun list => (Elementary.lift _).bind fun declared => ?_
  split
  · exact .pure _
  · exact .fail _

/-! ### Rows of data -/

lemma currentValue_elementary : IsElementary currentValue := fun params => by
  refine .look (fun c d h => by simp only [h.row]) fun c => ?_
  split
  · exact elementary_refuse _
  · refine (elementary_needText params "KEY").bind fun key => ?_
    split
    · exact (Elementary.log _ _ _ _).bind fun _ => .pure _
    · exact .pure _

lemma currentIndex_elementary : IsElementary currentIndex := fun _ =>
  .look (fun c d h => by simp only [Context.rowValue, h.position]) fun _ => .pure _

lemma forEachRow_elementary : IsElementary forEachRow := fun params =>
  (elementary_itemsOf _ _).bind fun _ => (elementary_needText params "ITEM_VAR").bind fun _ =>
    (elementary_needText params "INDEX_VAR").bind fun _ => elementary_loopOver _ _ _

lemma range_elementary : IsElementary range := fun params => by
  refine (elementary_need params "START").bind fun v => (elementary_numberOf v).bind fun first => ?_
  refine (elementary_need params "END").bind fun v => (elementary_numberOf v).bind fun last => ?_
  refine (elementary_need params "STEP").bind fun v => (elementary_numberOf v).bind fun step => ?_
  refine (elementary_needText params "VAR_NAME").bind fun name => ?_
  have hstep {x : Run Answer} (hx : Elementary x) : Elementary (if atMost step (.whole 0) then do
      let shown ← Action.compute step.text
      (refuse ("Range step must be positive, got " ++ shown) : Run Unit)
      x
      else x) := by
    split
    · exact (Elementary.compute _).bind fun _ => (elementary_refuse _).bind fun _ => hx
    · exact hx
  split
  · exact hstep (.pure _)
  · exact hstep (.fail _)
  · exact hstep .exhaust

lemma defineRows_elementary : IsElementary defineRows := fun params => by
  simp only [defineRows, value]
  split
  · exact .pure _
  · refine (elementary_readJson _ _).bind fun v => ?_
    split
    · exact .pure _
    · exact elementary_refuse _

lemma table_elementary : IsElementary table := fun params =>
  (elementary_needText params "HEADERS").bind fun _ =>
    (elementary_needText params "ROWS").bind fun _ => .pure _

lemma makeRow_elementary : IsElementary makeRow := fun params => by
  have hrow (values : Value) : Elementary (do
      if !values.isMapping then
        refuse ("Expected a JSON object of values, got " ++ values.typeName)
      let name ← textOf (orElse (input params "NAME") (.text ""))
      return .value (.record [("name", .ofText? (nonempty name)), ("values", values)]) :
        Run Answer) := by
    split
    · exact (elementary_refuse _).bind fun _ => (elementary_textOf _).bind fun _ => .pure _
    · exact (elementary_textOf _).bind fun _ => .pure _
  change Elementary (if (input params "JSON").isMapping then _ else _)
  split
  · exact (Elementary.pure _).bind hrow
  · exact (elementary_readJson _ _).bind hrow

lemma currentName_elementary : IsElementary currentName := fun _ => by
  refine .look (fun c d h => by simp only [Context.rowValue, h.row, h.position]) fun c => ?_
  dsimp only
  split
  · exact .pure _
  · exact (Elementary.compute _).bind fun _ => .pure _

lemma storedRows_elementary : IsElementary storedRows := fun params =>
  (elementary_needText params "NAME").bind fun _ => (Elementary.readPath _).bind fun _ => .pure _

/-! ### Assertions -/

/-- The assertion that the block for assertions takes. -/
def assertion (params : Dict Value) : Run Assertion := do
  let holds := (input params "CONDITION").toBool
  let message ← textOf (input params "MESSAGE")
  return { holds, message := .text message, expected := .bool true, actual := .bool holds }

lemma assertThat_executor : assertThat.executor = Block.asserting assertion := rfl

lemma assertion_elementary (params : Dict Value) : Elementary (assertion params) :=
  (elementary_textOf _).bind fun _ => .pure _

lemma assertion_aloof (params : Dict Value) : Aloof (assertion params) :=
  (assertion_elementary params).aloof

/-- An assertion only looks at its condition, and its message is a text. -/
lemma assertion_done {params : Dict Value} {x : Assertion} {c c' : Context}
    (h : assertion params c = (.done x, c')) :
    c' = c ∧ x.holds = (input params "CONDITION").toBool ∧ ∃ s, x.message = .text s := by
  obtain ⟨s, c₁, htext, h⟩ := Action.bind_done h
  cases h
  refine ⟨?_, rfl, s, rfl⟩
  change Action.lift ((input params "MESSAGE").toText.mapError Failure.ofFault) c = _ at htext
  cases hs : (input params "MESSAGE").toText with
  | ok s =>
    rw [hs] at htext
    cases htext
    rfl
  | error e =>
    rw [hs] at htext
    cases htext

/-! ### Calls -/

lemma aloof_callWith (params : Dict Value) (expectReturn : Bool) :
    Aloof (callWith expectReturn params) := by
  refine (elementary_needText params "NAME").aloof.bind fun name =>
    (Aloof.procedure name).bind fun p => ?_
  refine (Aloof.lift _).bind fun bound => ?_
  split
  · exact .pure _
  · exact .fail _

/-! ### All blocks -/

/-- **Three blocks of the library are not elementary**: the one that takes an assertion and those
that call procedures. -/
theorem catalog_elementary {block : Block} (h : block ∈ catalog) :
    block = assertThat ∨ (block = call ∨ block = callForValue) ∨ IsElementary block := by
  simp only [catalog, List.mem_cons, List.not_mem_nil, or_false] at h
  rcases h with rfl | rfl | rfl | rfl | rfl | rfl | rfl | rfl | rfl | rfl | rfl | rfl | rfl | rfl |
    rfl | rfl | rfl | rfl | rfl | rfl | rfl | rfl | rfl | rfl | rfl | rfl | rfl | rfl | rfl | rfl |
    rfl | rfl | rfl | rfl
  · exact .inr (.inr setVariable_elementary)
  · exact .inr (.inr elementary_readVariable)
  · exact .inr (.inr fun _ => .pure _)
  · exact .inr (.inr repeatTimes_elementary)
  · exact .inr (.inr forEach_elementary)
  · exact .inr (.inr tryCatch_elementary)
  · exact .inr (.inr logMessage_elementary)
  · exact .inr (.inr fun _ => .pure _)
  · exact .inr (.inr failWith_elementary)
  · exact .inl rfl
  · exact .inr (.inr literalText_elementary)
  · exact .inr (.inr literalNumber_elementary)
  · exact .inr (.inr fun _ => .pure _)
  · exact .inr (.inr fun _ => elementary_shaped _ _ _)
  · exact .inr (.inr fun _ => elementary_shaped _ _ _)
  · exact .inr (.inr compareValues_elementary)
  · exact .inr (.inr combineBooleans_elementary)
  · exact .inr (.inr fun _ => .pure _)
  · exact .inr (.inr arithmetic_elementary)
  · exact .inr (.inr defineProcedure_elementary)
  · exact .inr (.inl (.inl rfl))
  · exact .inr (.inl (.inr rfl))
  · exact .inr (.inr fun _ => .pure _)
  · exact .inr (.inr elementary_readVariable)
  · exact .inr (.inr currentValue_elementary)
  · exact .inr (.inr currentIndex_elementary)
  · exact .inr (.inr forEachRow_elementary)
  · exact .inr (.inr range_elementary)
  · exact .inr (.inr defineRows_elementary)
  · exact .inr (.inr table_elementary)
  · exact .inr (.inr makeRow_elementary)
  · exact .inr (.inr currentName_elementary)
  · exact .inr (.inr storedRows_elementary)
  · exact .inr (.inr skipIf_elementary)

/-- **One block of the library takes an assertion**, and all others have nothing to do with them. -/
theorem catalog_aloof {block : Block} (h : block ∈ catalog) :
    block = assertThat ∨ IsAloof block := by
  rcases catalog_elementary h with rfl | (rfl | rfl) | helementary
  · exact .inl rfl
  · exact .inr fun params => aloof_callWith params _
  · exact .inr fun params => aloof_callWith params _
  · exact .inr fun params => (helementary params).aloof

/-! ### Definitions -/

/-- Whether an answer asks for a procedure to be defined. -/
def defines : Answer → Bool
  | .signal (.define ..) => true
  | _ => false

/-- Actions whose answers do not ask for procedures to be defined. -/
def Undefining (x : Run Answer) : Prop :=
  ∀ c a c', x c = (.done a, c') → defines a = false

namespace Undefining

lemma value (v : Value) : Undefining (pure (.value v)) := fun _ _ _ h => by cases h; rfl

lemma signal {s : Signal} (hs : defines (.signal s) = false) : Undefining (pure (.signal s)) :=
  fun _ _ _ h => by cases h; exact hs

lemma fail (e : Failure) : Undefining (Action.fail e) := fun _ _ _ h => by cases h

lemma exhaust : Undefining Action.exhaust := fun _ _ _ h => by cases h

/-- Only the last action of a sequence answers. -/
lemma bind {α : Type} {x : Run α} {f : α → Run Answer} (hf : ∀ a, Undefining (f a)) :
    Undefining (x >>= f) := by
  intro c a c' h
  obtain ⟨b, c₁, -, h⟩ := Action.bind_done h
  exact hf b c₁ a c' h

lemma loopOver (items : List Value) (binding : String) (indexBinding : Option String) :
    Undefining (Library.loopOver items binding indexBinding) := by
  unfold Library.loopOver
  split
  · exact signal rfl
  · exact fail _

lemma readVariable (params : Dict Value) : Undefining (Library.readVariable params) :=
  .bind fun _ => .bind fun _ => .value _

lemma shaped (isShaped : Value → Bool) (label : String) (v : Value) :
    Undefining (Library.shaped isShaped label v) := by
  unfold Library.shaped
  split
  · exact value _
  · refine .bind fun w => ?_
    split
    · exact value _
    · exact fail _

lemma callWith (expectReturn : Bool) (params : Dict Value) :
    Undefining (Library.callWith expectReturn params) := by
  refine .bind fun _ => .bind fun _ => .bind fun _ => ?_
  split
  · exact signal rfl
  · exact fail _

lemma compareValues (params : Dict Value) : Undefining (Library.compareValues.executor params) := by
  refine .bind fun _ => ?_
  split
  · exact .bind fun _ => .value _
  · exact fail _

lemma arithmetic (params : Dict Value) : Undefining (Library.arithmetic.executor params) := by
  refine .bind fun _ => ?_
  split
  · refine .bind fun a => .bind fun b => ?_
    split
    · exact value _
    · exact fail _
    · exact fail _
  · exact fail _

lemma currentValue (params : Dict Value) : Undefining (Library.currentValue.executor params) := by
  refine .bind fun c => ?_
  split
  · exact fail _
  · refine .bind fun key => ?_
    split
    · exact .bind fun _ => .value _
    · exact value _

lemma range (params : Dict Value) : Undefining (Library.range.executor params) := by
  refine .bind fun _ => .bind fun first => .bind fun _ => .bind fun last => ?_
  refine .bind fun _ => .bind fun step => .bind fun name => ?_
  have hstep {x : Run Answer} (hx : Undefining x) : Undefining (if atMost step (.whole 0) then do
      let shown ← Action.compute step.text
      (refuse ("Range step must be positive, got " ++ shown) : Run Unit)
      x
      else x) := by
    split
    · exact .bind fun _ => .bind fun _ => hx
    · exact hx
  split
  · exact hstep (.value _)
  · exact hstep (.fail _)
  · exact hstep .exhaust

lemma defineRows (params : Dict Value) : Undefining (Library.defineRows.executor params) := by
  simp only [Library.defineRows, Library.value]
  split
  · exact value _
  · refine .bind fun v => ?_
    split
    · exact value _
    · exact fail _

lemma makeRow (params : Dict Value) : Undefining (Library.makeRow.executor params) := by
  have hrow (values : Value) : Undefining (do
      if !values.isMapping then
        refuse ("Expected a JSON object of values, got " ++ values.typeName)
      let name ← textOf (orElse (input params "NAME") (.text ""))
      return .value (.record [("name", .ofText? (nonempty name)), ("values", values)])) := by
    split
    · exact .bind fun _ => .bind fun _ => .value _
    · exact .bind fun _ => .value _
  change Undefining (if (input params "JSON").isMapping then _ else _)
  split
  · exact .bind hrow
  · exact .bind hrow

lemma currentName (params : Dict Value) : Undefining (Library.currentName.executor params) := by
  refine .bind fun c => ?_
  dsimp only
  split
  · exact value _
  · exact .bind fun _ => .value _

lemma skipIf (params : Dict Value) : Undefining (Library.skipIf.executor params) := by
  change Undefining (if (input params "CONDITION").toBool then _ else _)
  split
  · exact .bind fun _ => .bind fun _ => .fail _
  · exact value _

lemma tryCatch (params : Dict Value) : Undefining (Library.tryCatch.executor params) := by
  change Undefining (if (input params "ERROR_VAR").isTruthy then _ else _)
  split
  · exact .bind fun _ => .signal rfl
  · exact signal rfl

end Undefining

/-- **One block of the library has procedures defined.** -/
theorem catalog_undefining {block : Block} (h : block ∈ catalog) :
    block = defineProcedure ∨ ∀ params, Undefining (block.executor params) := by
  simp only [catalog, List.mem_cons, List.not_mem_nil, or_false] at h
  rcases h with rfl | rfl | rfl | rfl | rfl | rfl | rfl | rfl | rfl | rfl | rfl | rfl | rfl | rfl |
    rfl | rfl | rfl | rfl | rfl | rfl | rfl | rfl | rfl | rfl | rfl | rfl | rfl | rfl | rfl | rfl |
    rfl | rfl | rfl | rfl
  · exact .inr fun _ => .bind fun _ => .bind fun _ => .value _
  · exact .inr .readVariable
  · exact .inr fun _ => .signal rfl
  · exact .inr fun _ => .bind fun _ => .bind fun _ => .bind fun _ => .signal rfl
  · exact .inr fun _ => .bind fun _ => .bind fun _ => .loopOver _ _ _
  · exact .inr .tryCatch
  · exact .inr fun _ => .bind fun _ => .bind fun _ => .bind fun _ => .value _
  · exact .inr fun _ => .value _
  · exact .inr fun _ => .bind fun _ => .fail _
  · exact .inr fun _ => .bind fun _ => .bind fun _ => .value _
  · exact .inr fun _ => .bind fun _ => .value _
  · exact .inr fun _ => .bind fun _ => .value _
  · exact .inr fun _ => .value _
  · exact .inr fun _ => .shaped _ _ _
  · exact .inr fun _ => .shaped _ _ _
  · exact .inr .compareValues
  · exact .inr fun _ => .bind fun _ => .value _
  · exact .inr fun _ => .value _
  · exact .inr .arithmetic
  · exact .inl rfl
  · exact .inr (.callWith _)
  · exact .inr (.callWith _)
  · exact .inr fun _ => .signal rfl
  · exact .inr .readVariable
  · exact .inr .currentValue
  · exact .inr fun _ => .bind fun _ => .value _
  · exact .inr fun _ => .bind fun _ => .bind fun _ => .bind fun _ => .loopOver _ _ _
  · exact .inr .range
  · exact .inr .defineRows
  · exact .inr fun _ => .bind fun _ => .bind fun _ => .value _
  · exact .inr .makeRow
  · exact .inr .currentName
  · exact .inr fun _ => .bind fun _ => .bind fun _ => .value _
  · exact .inr .skipIf

end BlockSuite.Library
