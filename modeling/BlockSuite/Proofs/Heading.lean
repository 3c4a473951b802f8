import BlockSuite.Proofs.Log
import BlockSuite.Proofs.Number

/-!
Log records behind their heads. A record begins with the name of the test and the number of the row,
and this head is read as a part of the template where there are arguments. The record holds its
message as it is just if the head has no percent sign: a directive of the head takes an argument
that the template needs, and two percent signs become one.
-/

namespace BlockSuite

namespace Message

variable {head template text : String} {arguments vs : List Value}

/-! ### What stands in front of a template -/

/-- How many arguments a width or precision takes. -/
def taken : Option Extent → Nat
  | some .argument => 1
  | _ => 0

/-- How many arguments directives without keys take. -/
def demand : List Part → Nat
  | [] => 0
  | .literal _ :: rest => demand rest
  | .directive d _ :: rest => taken d.width + taken d.precision + 1 + demand rest

lemma demand_append (ps qs : List Part) : demand (ps ++ qs) = demand ps + demand qs := by
  induction ps with
  | nil => simp [demand]
  | cons p ps ih =>
    cases p with
    | literal c => exact ih
    | directive d ending =>
      rw [List.cons_append, demand, demand, ih]
      omega

lemma extentOf_items {limit : Limit} {e : Option Extent} {x : Option Int} {rest : Supply}
    (h : extentOf limit (.items vs) e = .ok (x, rest)) :
    ∃ ws, rest = .items ws ∧ vs.length = taken e + ws.length := by
  rcases e with _ | n | _
  · cases h
    exact ⟨vs, rfl, by simp [taken]⟩
  · rw [extentOf] at h
    split at h
    · cases h
      exact ⟨vs, rfl, by simp [taken]⟩
    · cases h
  · cases vs with
    | nil => cases h
    | cons v ws =>
      refine ⟨ws, ?_, by simp [taken]; omega⟩
      obtain ⟨⟨w, supply⟩, hnext, h⟩ := except_bind_ok h
      cases hnext
      dsimp only at h
      split at h
      · split at h <;> cases h
        rfl
      · cases h
        rfl
      · cases h

/-- A directive is written from arguments one by one if it has no key, and takes the first of
them. -/
lemma writeParts_directive {d : Directive} {ending : Option (Char × Nat)} {ps : List Part}
    {s : String} {as : List Value}
    (h : writeParts (.tuple as) (.items vs) (.directive d ending :: ps) = .ok s) :
    d.key = none ∧ ∃ ws rest, writeParts (.tuple as) (.items ws) ps = .ok rest ∧
      vs.length = taken d.width + taken d.precision + 1 + ws.length := by
  rw [writeParts] at h
  obtain ⟨supply, hsupply, h⟩ := except_bind_ok h
  obtain ⟨hkey, rfl⟩ : d.key = none ∧ supply = .items vs := by
    cases hkey : d.key with
    | some key =>
      rw [hkey] at hsupply
      cases hsupply
    | none =>
      rw [hkey] at hsupply
      exact ⟨rfl, (Except.ok.inj hsupply).symm⟩
  obtain ⟨⟨width, supply₁⟩, hwidth, h⟩ := except_bind_ok h
  obtain ⟨vs₁, rfl, hvs₁⟩ := extentOf_items hwidth
  obtain ⟨⟨precision, supply₂⟩, hprecision, h⟩ := except_bind_ok h
  obtain ⟨vs₂, rfl, hvs₂⟩ := extentOf_items hprecision
  rcases ending with _ | ⟨letter, index⟩
  · cases h
  · obtain ⟨⟨v, supply₃⟩, hnext, h⟩ := except_bind_ok h
    cases vs₂ with
    | nil => cases hnext
    | cons w ws =>
      cases hnext
      obtain ⟨shown, -, h⟩ := except_bind_ok h
      obtain ⟨rest, hrest, -⟩ := except_bind_ok h
      refine ⟨hkey, ws, rest, hrest, ?_⟩
      rw [hvs₁, hvs₂, List.length_cons]
      omega

/-- Arguments that are no mapping serve directives without keys, each of them once. -/
lemma writeParts_items {ps : List Part} {s : String} {as : List Value}
    (h : writeParts (.tuple as) (.items vs) ps = .ok s) :
    demand ps = vs.length ∧ ∀ d ending, .directive d ending ∈ ps → d.key = none := by
  induction ps generalizing vs s with
  | nil =>
    cases vs with
    | nil => exact ⟨rfl, by simp⟩
    | cons v vs => cases h
  | cons p ps ih =>
    cases p with
    | literal c =>
      obtain ⟨rest, hrest, -⟩ := except_bind_ok h
      obtain ⟨hdemand, hkeys⟩ := ih hrest
      exact ⟨hdemand, by simpa using hkeys⟩
    | directive d ending =>
      obtain ⟨hkey, ws, rest, hrest, hlength⟩ := writeParts_directive h
      obtain ⟨hdemand, hkeys⟩ := ih hrest
      refine ⟨by rw [demand, hdemand, hlength], fun d' ending' hmem => ?_⟩
      rcases List.mem_cons.mp hmem with heq | hmem
      · cases heq
        exact hkey
      · exact hkeys d' ending' hmem

/-- Parts of which none takes an argument are literal. -/
lemma literals_of_demand {ps : List Part} (h : demand ps = 0) :
    ∃ cs : List Char, ps = cs.map .literal := by
  induction ps with
  | nil => exact ⟨[], rfl⟩
  | cons p ps ih =>
    cases p with
    | literal c =>
      obtain ⟨cs, rfl⟩ := ih h
      exact ⟨c :: cs, rfl⟩
    | directive d ending =>
      rw [demand] at h
      omega

/-- The directive that is left open behind one more character. -/
def step (pending : Option (Stage × Directive)) (c : Char) : Option (Stage × Directive) :=
  match pending with
  | none => if c == '%' then some (.opened, {}) else none
  | some (stage, d) => continueWith stage d c

/-- The part that one more character completes. -/
def completed (pending : Option (Stage × Directive)) (index : Nat) (c : Char) : List Part :=
  match pending with
  | none => if c == '%' then [] else [.literal c]
  | some (stage, d) =>
    match continueWith stage d c with
    | some _ => []
    | none =>
      [if c == '%' && stage = .opened then .literal '%' else .directive d (some (c, index))]

/-- The parts that characters complete, whatever follows them. -/
def completedBy (pending : Option (Stage × Directive)) (index : Nat) : List Char → List Part
  | [] => []
  | c :: rest => completed pending index c ++ completedBy (step pending c) (index + 1) rest

variable {pending : Option (Stage × Directive)} {index : Nat} {c : Char} {cs : List Char}

lemma parts_cons (pending : Option (Stage × Directive)) (index : Nat) (c : Char)
    (rest : List Char) : parts pending index (c :: rest) =
      completed pending index c ++ parts (step pending c) (index + 1) rest := by
  rcases pending with _ | ⟨stage, d⟩
  · simp only [parts, completed, step]
    split <;> rfl
  · simp only [parts, completed, step]
    cases continueWith stage d c <;> rfl

lemma parts_split (pending : Option (Stage × Directive)) (index : Nat) (xs ys : List Char) :
    parts pending index (xs ++ ys) =
      completedBy pending index xs ++ parts (xs.foldl step pending) (index + xs.length) ys := by
  induction xs generalizing pending index with
  | nil => rfl
  | cons c xs ih =>
    rw [List.cons_append, parts_cons, ih, completedBy, List.append_assoc, List.foldl_cons,
      List.length_cons, Nat.add_comm xs.length, Nat.add_assoc]

lemma length_completed (pending : Option (Stage × Directive)) (index : Nat) (c : Char) :
    (completed pending index c).length ≤ 1 := by
  unfold completed
  split <;> split <;> simp

lemma length_completedBy (pending : Option (Stage × Directive)) (index : Nat) (cs : List Char) :
    (completedBy pending index cs).length ≤ cs.length := by
  induction cs generalizing pending index with
  | nil => simp [completedBy]
  | cons c cs ih =>
    have hone := length_completed pending index c
    have hrest := ih (step pending c) (index + 1)
    rw [completedBy, List.length_append, List.length_cons]
    omega

/-- A percent sign completes no part. -/
lemma length_completedBy_lt (h : '%' ∈ cs) (index : Nat) :
    (completedBy none index cs).length < cs.length := by
  induction cs generalizing index with
  | nil => cases h
  | cons c cs ih =>
    rw [completedBy, List.length_append, List.length_cons]
    by_cases hc : c = '%'
    · have hrest := length_completedBy (step none c) (index + 1) cs
      have hnone : completed none index c = [] := by simp [completed, hc]
      rw [hnone, List.length_nil]
      omega
    · have hone := length_completed none index c
      have hstep : step none c = none := by simp [step, hc]
      have hrest := ih ((List.mem_cons.mp h).resolve_left (Ne.symm hc)) (index + 1)
      rw [hstep]
      omega

/-! ### Keys that are left open -/

/-- A directive that has a key, or whose key is being read. -/
def Keyed : Option (Stage × Directive) → Prop
  | some (.key _ _, _) => True
  | some (stage, d) => stage ≠ .opened ∧ d.key ≠ none
  | none => False

/-- More characters keep the key of a directive. -/
lemma continueWith_keeps {stage stage' : Stage} {d d' : Directive}
    (h : continueWith stage d c = some (stage', d')) (hkey : Keyed (some (stage, d))) :
    Keyed (some (stage', d')) := by
  unfold continueWith at h
  cases stage with
  | opened => exact absurd rfl hkey.1
  | key depth acc =>
    dsimp only at h
    split at h <;> cases h
    · exact ⟨by simp, by simp⟩
    · trivial
  | _ =>
    obtain ⟨-, hd⟩ := hkey
    dsimp only at h
    repeat' split at h
    all_goals cases h
    all_goals exact ⟨by simp, hd⟩

/-- A directive that has a key is written as one, whatever follows. -/
lemma Keyed.parts_eq (h : Keyed pending) (index : Nat) (cs : List Char) :
    ∃ d ending rest, parts pending index cs = .directive d ending :: rest ∧ d.key ≠ none := by
  rcases pending with _ | ⟨stage, d⟩
  · cases h
  induction cs generalizing stage d index with
  | nil =>
    cases stage with
    | key depth acc => exact ⟨_, _, _, rfl, by simp⟩
    | _ => exact ⟨_, _, _, rfl, h.2⟩
  | cons c cs ih =>
    rw [parts_cons, completed, step]
    cases hnext : continueWith stage d c with
    | some next => exact ih (index + 1) next.1 next.2 (continueWith_keeps hnext h)
    | none =>
      have hkeyed : stage ≠ .opened ∧ d.key ≠ none := by
        cases stage with
        | key depth acc =>
          simp only [continueWith] at hnext
          split at hnext <;> cases hnext
        | _ => exact h
      exact ⟨d, some (c, index), parts none (index + 1) cs, by simp [hkeyed.1], hkeyed.2⟩

/-- A bracket and a blank end every directive that has no key. -/
lemma step_bracket (pending : Option (Stage × Directive)) :
    step (step pending ']') ' ' = none ∨ Keyed (step (step pending ']') ' ') := by
  rcases pending with _ | ⟨stage, d⟩
  · exact .inl rfl
  · cases stage with
    | key depth acc => exact .inr trivial
    | _ => exact .inl rfl

/-! ### Records behind a head -/

/-- Arguments that are no mapping alone are taken one by one. -/
lemma render_items (hne : arguments ≠ []) (hsingle : ∀ es, arguments = [.dict es] → es = []) :
    render template arguments =
      writeParts (.tuple arguments) (.items arguments) (parts none 0 template.toList) := by
  have hsupply : Supply.ofList arguments = .items arguments := by
    unfold Supply.ofList
    split
    · next es =>
      rw [hsingle es rfl]
      rfl
    · rfl
  rw [render, if_neg (by simpa using hne), hsupply]

/-- **A head with a percent sign is not written as it is.** The template behind it needs all
arguments, so that none is left for a directive in the head; two percent signs are written as one;
and a key that the head opens is not one of arguments that are taken one by one. -/
theorem head_of_render {front : List Char} (hend : head.toList = front ++ [']', ' '])
    (hne : arguments ≠ []) (hsingle : ∀ es, arguments = [.dict es] → es = [])
    (hbare : render template arguments = .ok text)
    (hhead : render (head ++ template) arguments = .ok (head ++ text)) :
    '%' ∉ head.toList := by
  intro hpercent
  rw [render_items hne hsingle] at hbare hhead
  rw [String.toList_append, parts_split] at hhead
  obtain ⟨hdemand, hkeys⟩ := writeParts_items hhead
  have hstep : head.toList.foldl step none = none ∨ Keyed (head.toList.foldl step none) := by
    rw [hend, List.foldl_append]
    exact step_bracket _
  rcases hstep with hnone | hkeyed
  · rw [hnone] at hhead hdemand
    have hshift : writeParts (.tuple arguments) (.items arguments)
        (parts none (0 + head.toList.length) template.toList) = .ok text :=
      ok_of_toOption ((writeParts_toOption _ _ _ 0 _).trans (congrArg Except.toOption hbare))
    have hrest := (writeParts_items hshift).1
    rw [demand_append] at hdemand
    have hfree : demand (completedBy none 0 head.toList) = 0 := by omega
    obtain ⟨cs, hcs⟩ := literals_of_demand hfree
    rw [hcs, writeParts_literals, hshift] at hhead
    have htext : cs ++ text.toList = head.toList ++ text.toList := by
      have h := congrArg String.toList (Except.ok.inj hhead)
      simpa using h
    have hlength := length_completedBy_lt hpercent 0
    rw [hcs, List.length_map, List.append_cancel_right htext] at hlength
    omega
  · obtain ⟨d, ending, rest, hparts, hkey⟩ :=
      hkeyed.parts_eq (0 + head.toList.length) template.toList
    exact hkey (hkeys d ending (by rw [hparts]; simp))

/-- A head without a percent sign is written as it is. -/
lemma render_head (h : '%' ∉ head.toList) (hbare : render template arguments = .ok text) :
    render (head ++ template) arguments = .ok (head ++ text) := by
  refine ok_of_toOption ((render_append h template arguments).trans ?_)
  rw [hbare]
  rfl

/-- A template and its arguments with data, which is one more argument unless it is null. -/
def withData (template : String) (arguments : List Value) : Value → String × List Value
  | .null => (template, arguments)
  | v => (template ++ " %r", arguments ++ [v])

end Message

namespace Context

variable {c : Context} {level : Level} {template text : String} {arguments : List Value}
  {data : Value}

/-- What records are about: the test, by its name, or the engine where the test has none. -/
def subject (c : Context) : String :=
  match c.testName with
  | some name => if name.isEmpty then "blocks" else name
  | none => "blocks"

/-- How the number of the row is told behind the name. -/
def rowMark (c : Context) : String :=
  match c.position with
  | some p => "[" ++ p.text ++ "]"
  | none => ""

/-- The head of a record. -/
def heading (c : Context) : String := "[" ++ c.subject ++ c.rowMark ++ "] "

/-- The number of the row is not too long to be told. -/
def RowFits (c : Context) : Prop := ∀ i, c.position = some (.number i) → Number.isShort i = true

lemma subject_eq (c : Context) :
    ((c.marks.get? "test_name").filter Value.isTruthy).getD (.text "blocks") = .text c.subject := by
  rw [marks_name, subject]
  cases c.testName with
  | none => rfl
  | some name =>
    cases hname : name.isEmpty <;>
      simp [Value.ofText?, Option.filter_some, Value.isTruthy, hname]

/-- The number of the row as it is told. -/
lemma Position.plainText_toValue {p : Position}
    (h : ∀ i, p = .number i → Number.isShort i = true) : p.toValue.plainText = .ok p.text := by
  cases p with
  | number i =>
    change intText i = _
    rw [Number.intText_short (h i rfl), ← Number.toList_toString, String.ofList_toList]
    rfl
  | flag b => cases b <;> rfl

lemma logHead_of_fits (h : c.RowFits) : logHead c.marks = .ok c.heading := by
  unfold logHead
  dsimp only
  rw [subject_eq, marks_row, heading, rowMark, rowValue]
  cases hp : c.position with
  | none =>
    change Except.ok ("[" ++ c.subject ++ "] ") = _
    rw [String.append_empty]
  | some p =>
    have htext : p.toValue.plainText = .ok p.text :=
      Position.plainText_toValue fun i hi => h i (hi ▸ hp)
    have hne : (p.toValue != .null) = true := by cases p <;> rfl
    rw [Option.map_some, Option.getD_some, Option.filter_some, if_pos hne]
    dsimp only
    rw [htext]
    change Except.ok ("[" ++ (c.subject ++ ("[" ++ p.text ++ "]")) ++ "] ") = _
    simp only [String.append_assoc]

lemma fits_of_logHead {head : String} (h : logHead c.marks = .ok head) : c.RowFits := by
  intro i hi
  rcases hshort : Number.isShort i with _ | _
  · have hrow : c.rowValue = .int i := by rw [rowValue, hi]; rfl
    have hlong : (Value.int i).plainText = .error .tooManyDigits := by
      change intText i = _
      rw [Number.intText_eq, if_neg (by simp [hshort])]
    unfold logHead at h
    dsimp only at h
    rw [subject_eq, marks_row, hrow] at h
    have hne : (Value.int i != .null) = true := rfl
    rw [Option.filter_some, if_pos hne] at h
    dsimp only at h
    rw [hlong] at h
    cases h
  · rfl

lemma heading_end (c : Context) : ∃ front, c.heading.toList = front ++ [']', ' '] :=
  ⟨("[" ++ c.subject ++ c.rowMark).toList, by rw [heading, String.toList_append]; rfl⟩

/-- Only the name of the test can bring a percent sign into the head. -/
lemma percent_mem_heading : '%' ∈ c.heading.toList ↔ '%' ∈ c.subject.toList := by
  have hrow : '%' ∉ c.rowMark.toList := by
    rw [rowMark]
    rcases c.position with _ | i | b
    · simp
    · have hnumber : '%' ∉ (toString i).toList := by
        rw [Number.toList_toString, Number.spelled]
        split
        · intro h
          have hmem := (List.mem_cons.mp h).resolve_left (by decide)
          cases Number.isDigit_of_mem hmem
        · intro h
          cases Number.isDigit_of_mem h
      simpa [Position.text] using hnumber
    · cases b <;> decide
  simp [heading, hrow]

/-- What becomes of a record that is kept. -/
lemma log_kept (kept : c.shared.journal.keeps level = true) (template : String)
    (arguments : List Value) (data : Value) :
    log level template arguments data c =
      match (do
        let head ← logHead c.marks
        Message.render (head ++ (Message.withData template arguments data).1)
          (Message.withData template arguments data).2) with
      | .ok text => (.done (), c.onJournal (·.log level text))
      | .error f => (.failed (.ofFault f), c) := by
  have hnull (template : String) (arguments : List Value) :
      log level template arguments .null c =
        match (do
          let head ← logHead c.marks
          Message.render (head ++ template) arguments) with
        | .ok text => (.done (), c.onJournal (·.log level text))
        | .error f => (.failed (.ofFault f), c) := by
    rw [log_eq, logUnder, Action.bind_of_done (Action.get_run c), if_pos kept]
    change (Action.compute (do
      let head ← logHead c.marks
      Message.render (head ++ template) arguments) >>= _ : Run Unit) c = _
    cases (do
      let head ← logHead c.marks
      Message.render (head ++ template) arguments : Except Fault String) <;> rfl
  by_cases hdata : data = .null
  · rw [hdata]
    exact hnull template arguments
  · have hwith : Message.withData template arguments data =
        (template ++ " %r", arguments ++ [data]) := by
      cases data <;> first | exact absurd rfl hdata | rfl
    rw [log_data _ _ _ hdata, hwith]
    exact hnull _ _

lemma onJournal_log_inj (kept : c.shared.journal.keeps level = true) {s t : String}
    (h : c.onJournal (·.log level s) = c.onJournal (·.log level t)) : s = t := by
  have hrecords := congrArg (fun c : Context => c.shared.journal.records) h
  simp only [onJournal, Journal.log, if_pos kept] at hrecords
  simpa using hrecords

variable {full : String} {all : List Value}

/-- A record is its text behind the head if the row can be told and the head is written as it is. -/
lemma log_eq_iff (hdata : Message.withData template arguments data = (full, all))
    (kept : c.shared.journal.keeps level = true) :
    log level template arguments data c =
        (.done (), c.onJournal (·.log level (c.heading ++ text))) ↔
      c.RowFits ∧ Message.render (c.heading ++ full) all = .ok (c.heading ++ text) := by
  rw [log_kept kept, hdata]
  cases hhead : logHead c.marks with
  | error f =>
    refine iff_of_false (fun h => by cases h) ?_
    rintro ⟨hfits, -⟩
    rw [logHead_of_fits hfits] at hhead
    cases hhead
  | ok head =>
    have hfits := fits_of_logHead hhead
    obtain rfl := Except.ok.inj ((logHead_of_fits hfits).symm.trans hhead)
    change (match Message.render (c.heading ++ full) all with
      | .ok text => (Outcome.done (), c.onJournal (·.log level text))
      | .error f => (.failed (.ofFault f), c)) = _ ↔ _
    cases Message.render (c.heading ++ full) all with
    | error f => exact iff_of_false (fun h => by cases h) (fun h => by cases h.2)
    | ok s =>
      refine ⟨fun h => ⟨hfits, ?_⟩, fun h => ?_⟩
      · rw [onJournal_log_inj kept (Prod.mk.inj h).2]
      · rw [Except.ok.inj h.2]

/-- **A record holds its message just if its head has no percent sign or the message has no
arguments.** A mapping that is the only argument is left aside here: directives take its members by
their keys, those of the head too. -/
theorem record_is_intact_iff
    (hdata : Message.withData template arguments data = (full, all))
    (kept : c.shared.journal.keeps level = true) (valid : Message.render full all = .ok text) :
    (c.RowFits ∧ (all = [] ∨ '%' ∉ c.subject.toList) → log level template arguments data c =
      (.done (), c.onJournal (·.log level (c.heading ++ text)))) ∧
    ((∀ es, all = [.dict es] → es = []) → log level template arguments data c =
        (.done (), c.onJournal (·.log level (c.heading ++ text))) →
      c.RowFits ∧ (all = [] ∨ '%' ∉ c.subject.toList)) := by
  rw [log_eq_iff hdata kept, ← percent_mem_heading]
  refine ⟨fun ⟨hfits, h⟩ => ⟨hfits, ?_⟩, fun hsingle ⟨hfits, h⟩ => ⟨hfits, ?_⟩⟩
  · rcases h with rfl | hpercent
    · rw [Message.render_nil] at valid ⊢
      rw [Except.ok.inj valid]
    · exact Message.render_head hpercent valid
  · obtain ⟨front, hend⟩ := c.heading_end
    by_contra hnot
    rw [not_or, not_not] at hnot
    exact Message.head_of_render hend hnot.1 hsingle valid h hnot.2

/-- The run of a test for one of its rows. -/
def secondLogin : Context := { testName := some "login", position := some (.number 2) }

theorem record_is_intact_iff_login :
    Message.render "Progress %d%%" [.int 100] = .ok "Progress 100%" ∧
      log .info "Progress %d%%" [.int 100] .null secondLogin =
        (.done (), secondLogin.onJournal (·.log .info ("[login[2]] " ++ "Progress 100%"))) := by
  have valid : Message.render "Progress %d%%" [.int 100] = .ok "Progress 100%" := by decide +kernel
  have hfits : secondLogin.RowFits := by
    rintro i ⟨⟩
    decide
  have hdata : Message.withData "Progress %d%%" [.int 100] .null = ("Progress %d%%", [.int 100]) :=
    rfl
  exact ⟨valid, (record_is_intact_iff hdata rfl valid).1 ⟨hfits, .inr (by decide)⟩⟩

/-- The run of a test with a percent sign in its name. -/
def halfDoneRun : Context := { testName := some "50% done" }

/-- A record about a call is not written in this run: what follows the percent sign is taken for a
directive for numbers. -/
theorem halfDoneRun_spoils_record :
    Message.render "Calling procedure %s" [.text "greet"] = .ok "Calling procedure greet" ∧
      log .info "Calling procedure %s" [.text "greet"] .null halfDoneRun =
        (.failed (.ofFault (.type "%d format: a real number is required, not str")),
          halfDoneRun) := by
  have valid : Message.render "Calling procedure %s" [.text "greet"] =
      .ok "Calling procedure greet" := by decide +kernel
  have hhead : logHead halfDoneRun.marks = .ok "[50% done] " := by decide +kernel
  have hspoilt : Message.render ("[50% done] " ++ "Calling procedure %s") [.text "greet"] =
      .error (.type "%d format: a real number is required, not str") := by decide +kernel
  refine ⟨valid, ?_⟩
  rw [log_kept rfl, hhead]
  change (match Message.render ("[50% done] " ++ "Calling procedure %s") [.text "greet"] with
    | .ok text => (Outcome.done (), halfDoneRun.onJournal (·.log .info text))
    | .error f => (.failed (.ofFault f), halfDoneRun)) = _
  rw [hspoilt]

end Context

end BlockSuite
