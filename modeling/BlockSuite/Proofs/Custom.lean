import Mathlib.Data.List.SplitBy
import BlockSuite.Block.Custom
import BlockSuite.Proofs.Casing
import BlockSuite.Proofs.Pattern
import BlockSuite.Proofs.Procedure
import BlockSuite.Proofs.Step

/-!
Every procedure has a block. Whatever a procedure is called, the type made of its name is one that
both patterns of block types take: behind the prefix stand the words of the trimmed name in lower
case, with an underscore for each run of other characters. So the block can be made, and it binds
every parameter to what is in its field.
-/

namespace BlockSuite

namespace Name

open Text (isAsciiWord lowerChar Lowers Lowered Settled)

variable {cs ds run rest : List Char} {runs : List (List Char)} {s : String}

/-! ### Runs -/

/-- Both characters belong to words, or neither does. -/
def sameKind (c d : Char) : Bool := isAsciiWord c == isAsciiWord d

/-- How a run of characters of one kind is written: words as they are, and all else as one
underscore. -/
def written (run : List Char) : List Char := if run.all isAsciiWord then run else ['_']

lemma joinRuns_word (h : ∀ c ∈ run, isAsciiWord c = true) (hrun : run ≠ []) (inRun : Bool)
    (rest : List Char) : joinRuns inRun (run ++ rest) = run ++ joinRuns false rest := by
  induction run generalizing inRun with
  | nil => exact absurd rfl hrun
  | cons c run ih =>
    rw [List.forall_mem_cons] at h
    rw [List.cons_append, joinRuns, if_pos h.1, List.cons_append]
    cases run with
    | nil => rfl
    | cons d run => rw [ih h.2 (List.cons_ne_nil _ _)]

lemma joinRuns_other (h : ∀ c ∈ run, isAsciiWord c = false) (hrun : run ≠ []) (inRun : Bool)
    (rest : List Char) :
    joinRuns inRun (run ++ rest) = (if inRun then [] else ['_']) ++ joinRuns true rest := by
  induction run generalizing inRun with
  | nil => exact absurd rfl hrun
  | cons c run ih =>
    rw [List.forall_mem_cons] at h
    have hrest : joinRuns true (run ++ rest) = joinRuns true rest := by
      cases run with
      | nil => rfl
      | cons d run => exact ih h.2 (List.cons_ne_nil _ _) true
    rw [List.cons_append, joinRuns, h.1, hrest]
    cases inRun <;> rfl

lemma written_word (h : ∀ c ∈ run, isAsciiWord c = true) : written run = run :=
  if_pos (List.all_eq_true.mpr h)

lemma written_other (h : ∀ c ∈ run, isAsciiWord c = false) (hrun : run ≠ []) :
    written run = ['_'] := by
  obtain ⟨c, cs, rfl⟩ := List.exists_cons_of_ne_nil hrun
  simp [written, h c List.mem_cons_self]

lemma kind_of_isChain {c : Char} (h : (c :: cs).IsChain fun a b => sameKind a b = true) :
    ∀ d ∈ c :: cs, isAsciiWord d = isAsciiWord c := by
  induction cs generalizing c with
  | nil => simp
  | cons d cs ih =>
    rw [List.isChain_cons_cons] at h
    have hd : isAsciiWord d = isAsciiWord c := (beq_iff_eq.mp h.1).symm
    exact List.forall_mem_cons.mpr ⟨rfl, fun x hx => (ih h.2 x hx).trans hd⟩

lemma joinRuns_flatten (inRun : Bool) (hrun : [] ∉ runs)
    (hkind : ∀ run ∈ runs, run.IsChain fun a b => sameKind a b = true)
    (hnext : runs.IsChain fun a b => ∃ ha hb, sameKind (a.getLast ha) (b.head hb) = false)
    (hopen : inRun = true → ∀ run ∈ runs.head?, ∀ c ∈ run, isAsciiWord c = true) :
    joinRuns inRun runs.flatten = runs.flatMap written := by
  induction runs generalizing inRun with
  | nil => rfl
  | cons run rest ih =>
    rw [List.mem_cons, not_or] at hrun
    rw [List.forall_mem_cons] at hkind
    rw [List.isChain_cons] at hnext
    have hfull : run ≠ [] := Ne.symm hrun.1
    obtain ⟨c, cs, rfl⟩ := List.exists_cons_of_ne_nil hfull
    have hall := kind_of_isChain hkind.1
    rw [List.flatten_cons, List.flatMap_cons]
    cases hc : isAsciiWord c with
    | true =>
      have hword : ∀ d ∈ c :: cs, isAsciiWord d = true := fun d hd => (hall d hd).trans hc
      rw [joinRuns_word hword hfull, written_word hword, ih false hrun.2 hkind.2 hnext.2 (by simp)]
    | false =>
      have hother : ∀ d ∈ c :: cs, isAsciiWord d = false := fun d hd => (hall d hd).trans hc
      have hclosed : inRun = false := by
        by_contra h
        have := hopen (by simpa using h) _ rfl c List.mem_cons_self
        rw [hc] at this
        cases this
      -- Behind a run that is no word stands a word.
      have hbehind : ∀ run ∈ rest.head?, ∀ d ∈ run, isAsciiWord d = true := by
        intro run hhead d hd
        obtain ⟨hlast, hfirst, hdiffer⟩ := hnext.1 run hhead
        obtain ⟨e, es, rfl⟩ := List.exists_cons_of_ne_nil hfirst
        rw [sameKind, hother _ (List.getLast_mem hlast), List.head_cons] at hdiffer
        rw [kind_of_isChain (hkind.2 _ (List.mem_of_mem_head? hhead)) d hd]
        simpa using hdiffer
      rw [joinRuns_other hother hfull, written_other hother hfull, hclosed,
        ih true hrun.2 hkind.2 hnext.2 fun _ => hbehind]
      rfl

/-- **Each run of characters that belong to no word becomes one underscore**, and words are left as
they are. -/
lemma joinRuns_eq (cs : List Char) : joinRuns false cs = (cs.splitBy sameKind).flatMap written := by
  have h := joinRuns_flatten false (List.nil_notMem_splitBy sameKind cs)
    (fun _ => List.isChain_of_mem_splitBy) (List.isChain_getLast_head_splitBy sameKind cs) (by simp)
  rwa [List.flatten_splitBy] at h

example : joinRuns false "check-out / pay_".toList = "check_out_pay_".toList := by decide

/-! ### Runs of a text in lower case -/

lemma joinRuns_append_congr (h : ∀ inRun, joinRuns inRun cs = joinRuns inRun ds)
    (front : List Char) (inRun : Bool) :
    joinRuns inRun (front ++ cs) = joinRuns inRun (front ++ ds) := by
  induction front generalizing inRun with
  | nil => exact h inRun
  | cons c front ih => simp only [List.cons_append, joinRuns, ih]

/-- Where characters stand does not matter: both letters that a sigma may become belong to no ASCII
word. -/
lemma joinRuns_lowered (h : Lowered cs ds) (inRun : Bool) :
    joinRuns inRun ds = joinRuns inRun (cs.flatMap lowerChar) := by
  induction h generalizing inRun with
  | nil => rfl
  | @cons c piece cs ds one _ ih =>
    rw [joinRuns_append_congr ih, List.flatMap_cons]
    rcases one with rfl | ⟨rfl, rfl⟩
    · rfl
    · have hsigma {run : List Char} (h : Lowers 'Σ' run) : ∀ d ∈ run, isAsciiWord d = false :=
        h.not_isAsciiWord (by decide) (by decide)
      have hself : Lowers 'Σ' (lowerChar 'Σ') := .inl rfl
      rw [joinRuns_other (hsigma (.inr ⟨rfl, rfl⟩)) (List.cons_ne_nil _ _),
        joinRuns_other (hsigma hself) hself.ne_nil]

lemma joinRuns_settled (h : ∀ c ∈ cs, Settled c) (inRun : Bool) :
    joinRuns inRun (cs.flatMap lowerChar) = joinRuns inRun cs := by
  induction cs generalizing inRun with
  | nil => rfl
  | cons c cs ih =>
    rw [List.forall_mem_cons] at h
    have hc : Lowers c (lowerChar c) := .inl rfl
    rw [List.flatMap_cons, joinRuns_append_congr (ih h.2), ← List.singleton_append]
    cases hword : isAsciiWord c with
    | true => rw [hc.eq_of_isAsciiWord h.1 hword]
    | false =>
      rw [joinRuns_other (hc.not_isAsciiWord h.1 hword) hc.ne_nil,
        joinRuns_other (List.forall_mem_singleton.mpr hword) (List.cons_ne_nil _ _)]

/-- A text that is put into lower case twice has the runs that it has after the first time. -/
lemma joinRuns_twice (h : Lowered cs ds) (inRun : Bool) :
    joinRuns inRun (Text.lowerBehind [] ds) = joinRuns inRun (Text.lowerBehind [] cs) := by
  calc joinRuns inRun (Text.lowerBehind [] ds)
      = joinRuns inRun (ds.flatMap lowerChar) := joinRuns_lowered (Text.lowered_lowerBehind _ _) _
    _ = joinRuns inRun ds := joinRuns_settled h.settled _
    _ = joinRuns inRun (cs.flatMap lowerChar) := joinRuns_lowered h _
    _ = joinRuns inRun (Text.lowerBehind [] cs) :=
      (joinRuns_lowered (Text.lowered_lowerBehind _ _) _).symm

/-! ### The type made of a name -/

lemma toList_customBlockType (s : String) : (customBlockType s).toList =
    "custom_".toList ++ joinRuns false (Text.lowerBehind [] (Text.trimChars s.toList)) := by
  simp [customBlockType, Text.lower, Text.trim]

lemma isAsciiWord_of_mem_customBlockType (s : String) :
    ∀ c ∈ (customBlockType s).toList, isAsciiWord c = true := by
  rw [toList_customBlockType]
  exact List.forall_mem_append.mpr
    ⟨List.all_eq_true.mp (by decide), List.all_eq_true.mp (joinRuns_isAsciiWord false _)⟩

/-- The type is an identifier: the prefix starts with a letter. -/
lemma isIdentifier_customBlockType (s : String) :
    isIdentifier (customBlockType s).toList = true := by
  have hword := isAsciiWord_of_mem_customBlockType s
  rw [toList_customBlockType] at hword ⊢
  exact Bool.and_eq_true_iff.mpr
    ⟨rfl, List.all_eq_true.mpr fun c hc => hword c (List.mem_cons_of_mem 'c' hc)⟩

/-- Blanks around a name get into no type. -/
lemma customBlockType_margins {front back : String} (hfront : Text.isBlankText front = true)
    (hback : Text.isBlankText back = true) (s : String) :
    customBlockType (front ++ s ++ back) = customBlockType s := by
  have htrim := Text.trimChars_margins (List.all_eq_true.mp hfront) (List.all_eq_true.mp hback)
    s.toList
  rw [← String.toList_inj, toList_customBlockType, toList_customBlockType, String.toList_append,
    String.toList_append, List.append_assoc, htrim]

/-- A name in lower case has the same type. -/
lemma customBlockType_lower (s : String) : customBlockType (Text.lower s) = customBlockType s := by
  have hlowered := (Text.lowered_lowerBehind [] s.toList).trim
  have htext : (Text.lower s).toList = Text.lowerBehind [] s.toList := String.toList_ofList
  rw [← String.toList_inj, toList_customBlockType, toList_customBlockType, htext,
    joinRuns_twice hlowered]

/-- An identifier may be the type of a block. -/
lemma isBlockType_identifier (h : isIdentifier s.toList = true) : isBlockType s = true :=
  isBlockType_iff.mpr (.inl (isVariable_of_isIdentifier h))

/-- Both engines find the pattern of block types in an identifier. -/
lemma found_identifier (h : isIdentifier s.toList = true) :
    Pattern.Found .compiled .blockType s ∧ Pattern.Found .schema .blockType s := by
  have hname : IsType isAsciiWord s.toList := .inl h
  have hboth := regular_type.both_iff.mpr hname
  exact ⟨Pattern.found_blockType.mpr hboth.2, Pattern.found_blockType.mpr hboth.1⟩

end Name

namespace Procedure

variable {p : Procedure} {q : Param} {category : String} {b : Block} {v : Value}

/-! ### Blocks that can be made -/

/-- What the schema of procedures asks of one: it has a name, and its parameters have names of
variables. -/
structure WellFormed (p : Procedure) : Prop where
  named : p.name ≠ ""
  params : ∀ q ∈ p.params, Name.isVariable q.name = true

lemma isVariable_of_check (h : Param.check v = .ok q) : Name.isVariable q.name = true := by
  cases v with
  | dict es =>
    obtain ⟨_, _, h₃, -, rfl⟩ := Form.seq_eq_ok.mp (Form.close_eq_ok.mp h).1
    obtain ⟨_, _, h₂, -, rfl⟩ := Form.seq_eq_ok.mp h₃
    obtain ⟨_, _, h₁, -, rfl⟩ := Form.seq_eq_ok.mp h₂
    obtain ⟨_, hname, rfl⟩ := Form.map_eq_ok.mp h₁
    obtain ⟨w, hw⟩ := Form.required_ok hname
    exact Check.variableName_ok hw
  | _ => cases h

/-- Procedures that are read from a document are well-formed. -/
lemma wellFormed_of_check (h : Procedure.check v = .ok p) : p.WellFormed := by
  cases v with
  | dict es =>
    obtain ⟨_, _, h₄, -, rfl⟩ := Form.seq_eq_ok.mp (Form.close_eq_ok.mp h).1
    obtain ⟨_, _, h₃, -, rfl⟩ := Form.seq_eq_ok.mp h₄
    obtain ⟨_, params, h₂, hparams, rfl⟩ := Form.seq_eq_ok.mp h₃
    obtain ⟨_, _, h₁, -, rfl⟩ := Form.seq_eq_ok.mp h₂
    obtain ⟨_, hname, rfl⟩ := Form.map_eq_ok.mp h₁
    obtain ⟨w, hw⟩ := Form.required_ok hname
    refine ⟨Check.nonemptyText_ok hw, fun q hq => ?_⟩
    rcases Form.field_ok hparams with rfl | ⟨list, hlist⟩
    · cases hq
    · obtain ⟨item, hitem⟩ := Check.list_ok hlist q hq
      exact isVariable_of_check hitem
  | _ => cases h

/-- The field of a parameter. -/
def field (q : Param) : InputSpec :=
  { name := Text.upper q.name, kind := .field, fieldType := some "text", default := q.default }

lemma readField_ok (h : q.name ≠ "") : readField q = .ok (field q) := by
  have hname := Check.nonemptyText_text (Text.upper_ne_empty h)
  refine Form.close_eq_ok.mpr ⟨?_, rfl⟩
  refine Form.seq_ok (Form.seq_ok (Form.seq_ok (Form.seq_ok (Form.seq_ok (Form.seq_ok
    (Form.map_ok InputSpec.mk ?_) rfl) rfl) rfl) rfl) rfl) rfl
  exact Form.required_of_member rfl hname

lemma readField_unnamed (h : q.name = "") (i : InputSpec) : readField q ≠ .ok i := by
  obtain ⟨name, type, default, description⟩ := q
  subst h
  rintro ⟨⟩

lemma readBlock_ok (p : Procedure) (category : String) :
    p.readBlock category (p.params.map field) = .ok (p.block category) := by
  have htype := Check.blockType_text
    (Name.isBlockType_identifier (Name.isIdentifier_customBlockType p.name))
  unfold readBlock
  dsimp only
  refine Form.close_eq_ok.mpr ⟨?_, ?_⟩
  · refine Form.seq_ok (Form.seq_ok (Form.seq_ok (Form.seq_ok (Form.seq_ok (Form.seq_ok
      (Form.seq_ok (Form.seq_ok (Form.seq_ok (Form.map_ok _ ?_) rfl) rfl) rfl) rfl) rfl) rfl)
      rfl) rfl) rfl
    exact Form.required_of_member rfl htype
  · change Form.extras ["type", "category", "tooltip", "inputs", "executor"] _ = []
    simp [Form.extras]

lemma makeBlock_ok (h : ∀ q ∈ p.params, q.name ≠ "") (category : String) :
    p.makeBlock category = .ok (p.block category) := by
  have hinputs : (p.params.mapM fun q =>
      (readField q).mapError fun issues => Failure.invalid ⟨"BlockInput", issues⟩) =
        .ok (p.params.map field) := by
    refine mapM_eq_ok fun q hq => ?_
    rw [readField_ok (h q hq)]
    rfl
  unfold makeBlock
  dsimp only
  rw [hinputs]
  simp only [bind, Except.bind, readBlock_ok, Except.mapError]

/-- **A block can be made of a procedure just if each of its parameters has a name**, whatever it is
called itself. -/
lemma makeBlock_eq_ok_iff : p.makeBlock category = .ok b ↔
    (∀ q ∈ p.params, q.name ≠ "") ∧ b = p.block category := by
  refine ⟨fun hb => ?_, fun ⟨h, hb⟩ => hb ▸ makeBlock_ok h category⟩
  have hnamed : ∀ q ∈ p.params, q.name ≠ "" := by
    unfold makeBlock at hb
    obtain ⟨inputs, hinputs, -⟩ := except_bind_ok hb
    intro q hq hname
    obtain ⟨i, hi⟩ := exists_mapM_ok.mp ⟨inputs, hinputs⟩ q hq
    cases hfield : readField q with
    | ok i => exact readField_unnamed hname i hfield
    | error issues =>
      rw [hfield] at hi
      cases hi
  rw [makeBlock_ok hnamed] at hb
  exact ⟨hnamed, (Except.ok.inj hb).symm⟩

/-! ### What a block binds -/

/-- The default for a name: that of the last parameter that has it. -/
def lastDefault (p : Procedure) (name : String) : Value :=
  ((p.params.reverse.find? fun q => q.name == name).map (·.default)).getD .null

lemma fieldValue_eq (values : Dict Value) (q : Param) : fieldValue values q =
    ((values.get? (Text.upper q.name)).bind Value.given?).getD q.default := by
  unfold fieldValue
  cases values.get? (Text.upper q.name) with
  | none => rfl
  | some v => cases v <;> rfl

/-- Every parameter is bound to what is in its field, if there is anything, and else to the default
for its name. -/
lemma get?_bindings (values : Dict Value) {q : Param} (hq : q ∈ p.params) :
    (Dict.ofPairs (p.params.map fun q => (q.name, fieldValue values q))).get? q.name =
      some (((values.get? (Text.upper q.name)).bind Value.given?).getD (p.lastDefault q.name)) := by
  have hlast : (p.params.reverse.find? fun r => r.name == q.name).isSome = true :=
    List.find?_isSome.mpr ⟨q, List.mem_reverse.mpr hq, beq_self_eq_true _⟩
  obtain ⟨r, hr⟩ := Option.isSome_iff_exists.mp hlast
  have hname : r.name = q.name := by simpa using List.find?_some hr
  rw [Dict.get?_ofPairs_reverse, ← List.map_reverse, Dict.get?, List.find?_map]
  simp only [Function.comp_def, lastDefault, hr, Option.map_some, Option.getD_some, fieldValue_eq,
    hname]

/-- **Every procedure has a block.** Of every name a block type is made that both patterns of block
types take. It consists of ASCII letters, digits and underscores, and is the same with blanks around
the name or with the name in lower case: behind the prefix stands the trimmed name in lower case, of
which each longest run of other characters becomes one underscore. So the block of every well-formed
procedure can be made, and its executor asks for the steps of the procedure in a frame in which the
parameters, and nothing else, are bound: each to the value of its field, which is its name in upper
case, or to the default where that has none. -/
theorem procedures_have_blocks :
    (∀ s : String,
      (Pattern.Found .compiled .blockType (Name.customBlockType s) ∧
        Name.matchBlockType? (Name.customBlockType s) = some (none, Name.customBlockType s)) ∧
      (Pattern.Found .schema .blockType (Name.customBlockType s) ∧
        Check.blockType (.text (Name.customBlockType s)) = .ok (Name.customBlockType s)) ∧
      (∀ c ∈ (Name.customBlockType s).toList, Text.isAsciiWord c = true) ∧
      (∀ front back, Text.isBlankText front = true → Text.isBlankText back = true →
        Name.customBlockType (front ++ s ++ back) = Name.customBlockType s) ∧
      Name.customBlockType (Text.lower s) = Name.customBlockType s ∧
      Name.customBlockType s = "custom_" ++ String.ofList
        (((Text.lower (Text.trim s)).toList.splitBy Name.sameKind).flatMap Name.written)) ∧
    ∀ p : Procedure, p.WellFormed → ∀ category,
      p.makeBlock category = .ok (p.block category) ∧
      (p.block category).type = Name.customBlockType p.name ∧
      (p.block category).inputs.map (·.name) = p.paramNames.map Text.upper ∧
      ∀ (values : Dict Value) (c : Context), ∃ bindings : Dict Value,
        (p.block category).executor values c =
          (.done (.signal (.expand p.steps (some p.name) true bindings)), c) ∧
        bindings.keys = p.paramNames.eraseDups ∧
        ∀ q ∈ p.params, bindings.get? q.name =
          some (((values.get? (Text.upper q.name)).bind Value.given?).getD
            (p.lastDefault q.name)) := by
  refine ⟨fun s => ?_, fun p hp category => ?_⟩
  · have hname := Name.isIdentifier_customBlockType s
    obtain ⟨hcompiled, hschema⟩ := Name.found_identifier hname
    exact ⟨⟨hcompiled, Name.matchBlockType?_identifier hname⟩,
      ⟨hschema, Check.blockType_text (Name.isBlockType_identifier hname)⟩,
      Name.isAsciiWord_of_mem_customBlockType s,
      fun front back hfront hback => Name.customBlockType_margins hfront hback s,
      Name.customBlockType_lower s, by rw [← Name.joinRuns_eq]; rfl⟩
  · have hnamed : ∀ q ∈ p.params, q.name ≠ "" := by
      intro q hq hempty
      have hname := hp.params q hq
      rw [hempty] at hname
      cases hname
    refine ⟨makeBlock_eq_ok_iff.mpr ⟨hnamed, rfl⟩, rfl, ?_, fun values c => ?_⟩
    · simp [block, paramNames]
    · refine ⟨_, rfl, ?_, fun q hq => get?_bindings values hq⟩
      rw [Dict.keys_ofPairs, List.map_map]
      rfl

/-- A procedure whose name and parameter are not written in ASCII letters alone. -/
def packing : Procedure where
  name := "ΟΔΟΣ Check-Out"
  description := none
  params := [⟨"größe", Param.anyType, .int 3, none⟩,
    ⟨"label", Param.anyType, .text "Fragile", none⟩]
  returnType := none
  steps := []

lemma packing_check : Procedure.check (.record [("name", .text "ΟΔΟΣ Check-Out"),
    ("params", .list [.record [("name", .text "größe"), ("default", .int 3)],
      .record [("name", .text "label"), ("default", .text "Fragile")]])]) = .ok packing := rfl

theorem procedures_have_blocks_packing : packing.WellFormed ∧
    Text.isBlankText "\u2003" = true ∧ Text.isBlankText "\n" = true ∧
    Name.customBlockType ("\u2003" ++ packing.name ++ "\n") = Name.customBlockType packing.name ∧
    Name.customBlockType packing.name = "custom__check_out" ∧
    packing.makeBlock "Custom" = .ok (packing.block "Custom") ∧
    ∀ c, ∃ bindings : Dict Value,
      (packing.block "Custom").executor [("GRÖSSE", .int 7), ("LABEL", .null)] c =
        (.done (.signal (.expand [] (some packing.name) true bindings)), c) ∧
      bindings.get? "größe" = some (.int 7) ∧ bindings.get? "label" = some (.text "Fragile") := by
  have hp : packing.WellFormed := wellFormed_of_check packing_check
  have hfront : Text.isBlankText "\u2003" = true := by decide +kernel
  have hback : Text.isBlankText "\n" = true := by decide +kernel
  obtain ⟨htypes, hblocks⟩ := procedures_have_blocks
  obtain ⟨-, -, -, hmargins, -, -⟩ := htypes packing.name
  obtain ⟨hmade, -, -, hexecutor⟩ := hblocks packing hp "Custom"
  refine ⟨hp, hfront, hback, hmargins _ _ hfront hback, by decide +kernel, hmade, fun c => ?_⟩
  obtain ⟨bindings, hrun, -, hbound⟩ := hexecutor [("GRÖSSE", .int 7), ("LABEL", .null)] c
  exact ⟨bindings, hrun, hbound _ List.mem_cons_self,
    hbound _ (List.mem_cons_of_mem _ List.mem_cons_self)⟩

end Procedure

end BlockSuite
