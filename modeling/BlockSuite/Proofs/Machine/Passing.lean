import BlockSuite.Proofs.Json
import BlockSuite.Proofs.Machine.Call

/-!
Texts that are passed to procedures. A call whose arguments are written as a mapping with the
placeholder of a variable does not pass the value of the variable: the placeholder is filled, the
text that comes of it is read as JSON, and what is read is filled once more.
-/

namespace BlockSuite

/-- Names are written as they are. -/
lemma Json.verbatim_of_isVariable {s : String} (h : Name.isVariable s = true) :
    Json.Verbatim s.toList := by
  intro c hc
  have hword := Name.words_of_isVariable h c hc
  refine ⟨Text.ne_of_isWord hword (by decide) (by decide),
    Text.ne_of_isWord hword (by decide) (by decide), ?_⟩
  by_contra hcontrol
  rw [Text.isWord, if_pos (by omega)] at hword
  have hbounds := Text.toNat_of_isAsciiWord hword
  omega

namespace Machine

variable {m : Machine} {run : Runner} {step : Step} {procedure : Procedure}

/-- Arguments that are written as a mapping with one member. -/
def written (key s : String) : String := "\x7b\"" ++ key ++ "\": \"" ++ s ++ "\"\x7d"

/-- The placeholder of a variable. -/
def placeholder (v : String) : String := "$\x7b" ++ v ++ "\x7d"

lemma written_toList (key s : String) :
    (written key s).toList = Json.memberText key.toList s.toList := by
  simp [written, Json.memberText, Json.quotedText]

/-- Written arguments are filled by filling what is written for the variable. -/
lemma fill_written {p v w : String} (hp : Name.isVariable p = true)
    (hv : Name.isIdentifier v.toList = true) {bindings : Dict Value}
    (hw : bindings.get? v = some (.text w)) :
    Template.fill [bindings] (written p (placeholder v)) = .ok (written p w) := by
  have hstart : '$' ∉ '\x7b' :: '"' :: (p.toList ++ ['"', ':', ' ', '"']) := by
    have hdollar : '$' ∉ p.toList := Name.not_mem_of_isVariable hp (by decide) (by decide)
    simp [hdollar]
  have hclose : Template.pieces ['"', '\x7d'] = ['"', '\x7d'].map .literal :=
    Template.pieces_of_plain (by decide)
  have hpieces : Template.pieces (written p (placeholder v)).toList =
      ('\x7b' :: '"' :: (p.toList ++ ['"', ':', ' ', '"'])).map .literal ++
        .placeholder v :: ['"', '\x7d'].map .literal := by
    have hsplit : (written p (placeholder v)).toList =
        ('\x7b' :: '"' :: (p.toList ++ ['"', ':', ' ', '"'])) ++
          '$' :: '\x7b' :: (v.toList ++ '\x7d' :: ['"', '\x7d']) := by
      simp [written, placeholder]
    rw [hsplit, Template.pieces_append hstart,
      Template.pieces_placeholder (Template.placeholder?_identifier hv _), String.ofList_toList,
      hclose]
  have hvalue : Template.fillPiece [bindings] (.placeholder v) = .ok w := by
    rw [Template.fillPiece, Template.lookup_variable hv hw]
    rfl
  have hrest : Template.fillPieces [bindings] (.placeholder v :: ['"', '\x7d'].map .literal) =
      .ok (w ++ String.ofList ['"', '\x7d']) := by
    rw [Template.fillPieces, hvalue, Template.fillPieces_literals]
    rfl
  rw [Template.fill, hpieces, Template.fillPieces_append (Template.fillPieces_literals _ _) hrest]
  refine congrArg Except.ok (String.toList_injective ?_)
  simp [written]

/-- Written arguments are read as they were written, where all characters stand for themselves. -/
lemma arguments_written {p w : String} (hp : Name.isVariable p = true)
    (hw : Json.Verbatim w.toList) (procedure : Procedure) :
    procedure.arguments (.text (written p w)) =
      .ok (Arguments.bindFrom [(.text p, .text w)] [] procedure.params) := by
  have hread := Json.read_member (Json.verbatim_of_isVariable hp) hw
  rw [← written_toList, String.ofList_toList] at hread
  have hlist := written_toList p w
  have hempty : (written p w).isEmpty = false := by
    rw [← Bool.not_eq_true, String.isEmpty_iff, ← String.toList_eq_nil_iff, hlist]
    simp [Json.memberText]
  have hblank : Text.isBlankText (written p w) = false := by
    rw [Text.isBlankText, hlist]
    rfl
  have hgiven : Arguments.ofValue (.text (written p w)) = .named [(.text p, .text w)] := by
    rw [Arguments.ofValue, hempty, hblank, hread]
    rfl
  rw [Procedure.arguments, hgiven]
  rfl

/-- How a call step comes to name a procedure, with arguments that are written in the step. Behind
the name the variables are those of the first context, behind all inputs those of the second. -/
inductive Calls (m : Machine) (run : Runner) (nested : Bool) (step : Step) (c : Context)
    (procedure : Procedure) (text : String) (c₁ c₂ : Context) : Prop
  | mk {expectReturn : Bool} {c₀ : Context} {rs rs' : Dict StepResult} {v : Value} {name : String}
    {vs : Dict Value} (begins : m.Begins nested step c c₀)
    (block : m.blocks.lookup step.type = some (callBlock expectReturn))
    (named : Gives run (callBlock expectReturn) step "NAME" c₀ rs v c₁) (shown : v.toText = .ok name)
    (text : Dict.get? step.params "ARGS" = some (.literal (.text text)))
    (supplied : Supplied run (callBlock expectReturn) step
      ((inputOrder (callBlock expectReturn) step).drop 2) c₁ rs' vs c₂)
    (found : c₂.shared.procedures.lookup name = some procedure)

variable {nested : Bool} {c c₁ c₂ : Context}

/-- Written arguments with the placeholder of a variable are filled as a text, before they are
read. -/
lemma gives_written {b : Block} {p v w : String} (hp : Name.isVariable p = true)
    (hv : Name.isIdentifier v.toList = true) (row : c.row = none)
    (hw : c.bindings.get? v = some (.text w))
    (text : Dict.get? step.params "ARGS" = some (.literal (.text (written p (placeholder v))))) :
    Gives run b step "ARGS" c [] (.text (written p w)) c := by
  have hscopes : c.scopes = [c.bindings] := by rw [Context.scopes, row]
  refine .plain (v := .text (written p (placeholder v))) (by rw [sourceOf, text]) ?_
  rw [hscopes, Template.fillValue, fill_written hp hv hw]
  rfl

/-- **A text that is passed by name in written arguments** comes to the body as it is, if all its
characters stand for themselves in JSON and no placeholder in it leads anywhere. The placeholders
that do lead somewhere are filled once more, in the variables of the caller. -/
theorem texts_are_passed {p v w w' : String}
    (calls : Calls m run nested step c procedure (written p (placeholder v)) c₁ c₂)
    (paramName : Name.isVariable p = true) (variableName : Name.isIdentifier v.toList = true)
    (row : c₁.row = none) (bound : c₁.bindings.get? v = some (.text w))
    (verbatim : Json.Verbatim w.toList) (fills : Template.fill c₂.scopes w = .ok w')
    (defaults : ∀ q ∈ procedure.params, Showable c₂ q.default)
    (loggable : c₂.shared.journal.keeps .info = true → c₂.Loggable) :
    (∃ body, Enters m run nested step c procedure (.text (written p w))
      { c₂ with currentStep := some step } body ∧ body.bindings.get? p = some (.text w')) ∧
    ((∀ path ∈ Template.paths w, Template.lookup c₂.scopes path = .ok none) → w' = w) := by
  refine ⟨?_, fun hnowhere => ?_⟩
  · cases calls with
    | @mk expectReturn c₀ rs rs' nv name vs begins block named shown text supplied found =>
      -- What is read is filled once more, when it is bound for the body.
      have hfill : Template.fillValue c₂.scopes (.text w) = .ok (.text w') := by
        rw [Template.fillValue, fills]
        rfl
      have hargs : Gives run (callBlock expectReturn) step "ARGS" c₁ []
          (.text (written p w)) c₁ := gives_written paramName variableName row bound text
      have horder : inputOrder (callBlock expectReturn) step =
          "NAME" :: "ARGS" :: (inputOrder (callBlock expectReturn) step).drop 2 := by
        cases expectReturn <;> rfl
      have hsupplied := Supplied.cons named (.cons hargs supplied)
      rw [← horder] at hsupplied
      obtain ⟨d, hbind, hget, hmem⟩ :=
        Arguments.bindFrom_member p (.text w) procedure.params
      have hgiven := arguments_written paramName verbatim procedure
      rw [hbind] at hgiven
      have hread : Check.mapping Check.text Check.any (.dict (Arguments.members d)) =
          .ok (Dict.ofPairs d) := Check.mapping_record d
      have hshow : ∀ e ∈ Dict.ofPairs d, Showable { c₂ with currentStep := some step } e.2 := by
        intro e he
        rcases hmem e he with rfl | ⟨q, hq, hdefault⟩
        · exact ⟨.text w', hfill, fun _ => rfl⟩
        · rw [hdefault]
          exact defaults q hq
      obtain ⟨bindings, c', henters⟩ := bindArguments_exists
        (c := { c₂ with currentStep := some step })
        (fun hkeeps => (loggable hkeeps).congr ⟨rfl, rfl⟩) name hshow
      refine ⟨_, enters_of_supplied begins block hsupplied rfl shown found hgiven hread henters, ?_⟩
      have hbody := bindArguments_bound (Check.mapping_keys hread) henters p
      rw [BoundIn, hget] at hbody
      obtain ⟨x, hx, hbound⟩ := hbody
      obtain rfl : .text w' = x := Except.ok.inj (hfill.symm.trans hx)
      exact hbound
  · rw [Template.fill_unresolved hnowhere] at fills
    exact (Except.ok.inj fills).symm

/-- A step that passes a variable to a parameter. -/
def passing (p v : String) : Step :=
  ⟨"call", "procedure_call_with_return",
    [("NAME", .literal (.text "greet")), ("ARGS", .literal (.text (written p (placeholder v))))], []⟩

lemma passing_calls (user p v : String) : Calls switchboard (switchboard.runWith 1) false
    (passing p v) (host user) greet (written p (placeholder v)) (host user) (host user) := by
  have hblock : switchboard.blocks.lookup (passing p v).type = some (callBlock true) := rfl
  have hname : Gives (switchboard.runWith 1) (callBlock true) (passing p v) "NAME" (host user) []
      (.text "greet") (host user) := .plain rfl (Template.fillValue_plain _ _ (by decide +kernel))
  exact .mk ⟨rfl, rfl⟩ hblock hname rfl rfl (.nil _) rfl

theorem texts_are_passed_host :
    Calls switchboard (switchboard.runWith 1) false (passing "title" "user") (host "Dr. No") greet
      (written "title" (placeholder "user")) (host "Dr. No") (host "Dr. No") ∧
    Json.Verbatim "Dr. No".toList ∧ Template.fill (host "Dr. No").scopes "Dr. No" = .ok "Dr. No" ∧
    ∃ body, Enters switchboard (switchboard.runWith 1) false (passing "title" "user")
      (host "Dr. No") greet (.text (written "title" "Dr. No"))
      { host "Dr. No" with currentStep := some (passing "title" "user") } body ∧
    body.bindings.get? "title" = some (.text "Dr. No") := by
  have hcalls := passing_calls "Dr. No" "title" "user"
  have hverbatim : Json.Verbatim "Dr. No".toList := by decide
  have hfills : Template.fill (host "Dr. No").scopes "Dr. No" = .ok "Dr. No" :=
    Template.fill_plain (by decide) _
  have hdefaults : ∀ q ∈ greet.params, Showable (host "Dr. No") q.default := by
    have hall : greet.params.all (fun q => Template.isPlain q.default) = true := by decide +kernel
    exact fun q hq => showable_of_plain rfl (List.all_eq_true.mp hall q hq)
  exact ⟨hcalls, hverbatim, hfills, (texts_are_passed hcalls (by decide) (by decide) rfl rfl
    hverbatim hfills hdefaults fun _ => ⟨"[blocks] ", rfl, by decide⟩).1⟩

/-- The arguments that come of a text with a quotation mark. -/
def spoiled : String := written "title" "a\"b"

lemma spoiled_arguments : greet.arguments (.text spoiled) =
    .ok (Arguments.members [("title", .text spoiled), ("mood", .text "calm")]) := by
  have hread : (Json.read spoiled).isOk = false := by decide +kernel
  have htrim : Text.trim spoiled = spoiled := by decide +kernel
  have hsplit : Text.splitAt ',' spoiled = [spoiled] := by decide +kernel
  obtain ⟨e, herror⟩ : ∃ e, Json.read spoiled = .error e := by
    cases hr : Json.read spoiled with
    | ok v => rw [hr] at hread; cases hread
    | error e => exact ⟨e, rfl⟩
  have hitem : Arguments.decodeItem spoiled = .text spoiled := by
    rw [Arguments.decodeItem, htrim, herror]
  have hvalue : Arguments.ofValue (.text spoiled) = .positional [.text spoiled] := by
    rw [Arguments.ofValue, if_neg (by decide +kernel), if_neg (by decide +kernel), herror, hsplit,
      List.map_singleton, hitem]
  rw [Procedure.arguments, hvalue]
  rfl

/-- A text with a quotation mark spoils the arguments: they are no mapping any more, and all of them
are passed to the first parameter. -/
theorem quotes_are_not_passed : ∃ body,
    Enters switchboard (switchboard.runWith 1) false (passing "title" "user") (host "a\"b") greet
      (.text spoiled) { host "a\"b" with currentStep := some (passing "title" "user") } body ∧
    body.bindings.get? "title" = some (.text spoiled) ∧ spoiled ≠ "a\"b" := by
  have hargs : Gives (switchboard.runWith 1) (callBlock true) (passing "title" "user") "ARGS"
      (host "a\"b") [] (.text spoiled) (host "a\"b") :=
    gives_written (by decide) (by decide) rfl rfl rfl
  have hname : Gives (switchboard.runWith 1) (callBlock true) (passing "title" "user") "NAME"
      (host "a\"b") [] (.text "greet") (host "a\"b") :=
    .plain rfl (Template.fillValue_plain _ _ (by decide +kernel))
  let args : Dict Value := [("title", .text spoiled), ("mood", .text "calm")]
  have hshow : ∀ e ∈ args,
      Showable { host "a\"b" with currentStep := some (passing "title" "user") } e.2 := by
    have hall : args.all (fun e => Template.isPlain e.2) = true := by decide +kernel
    exact fun e he => showable_of_plain rfl (List.all_eq_true.mp hall e he)
  obtain ⟨bindings, c', henters⟩ :=
    bindArguments_exists (fun _ => ⟨"[blocks] ", rfl, by decide⟩) "greet" hshow
  refine ⟨_, enters_of_supplied ⟨rfl, rfl⟩ rfl (.cons hname (.cons hargs (.nil _))) rfl rfl rfl
    spoiled_arguments (Check.mapping_record args) henters, ?_, by decide⟩
  obtain ⟨w, hfill, hbound⟩ : ∃ w, Template.fillValue _ (.text spoiled) = .ok w ∧ _ :=
    bindArguments_bound (Check.mapping_keys (Check.mapping_record args)) henters "title"
  have hplain : Template.isPlain (.text spoiled) = true := by decide +kernel
  rw [Template.fillValue_plain _ _ hplain] at hfill
  cases hfill
  exact hbound

end Machine

end BlockSuite
