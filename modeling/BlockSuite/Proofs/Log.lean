import BlockSuite.Proofs.Message
import BlockSuite.Context

/-!
When log records can be written. The head of a record shows the name of the test and the number of
its row. A template without arguments is written as it is: such a record can only fail for a number
that is too long to be shown. Where there are arguments the head is read as a part of the template,
so that a percent sign in the name of the test can spoil it.
-/

namespace BlockSuite.Context

variable {c : Context} {row : String}

lemma marks_name (c : Context) : c.marks.get? "test_name" = some (.ofText? c.testName) := by
  rw [marks, Dict.get?_cons, if_pos rfl]

lemma marks_row (c : Context) : c.marks.get? "data_iteration" = some c.rowValue := by
  rw [marks, Dict.get?_cons, if_neg (by decide), Dict.get?_cons, if_pos rfl]

/-- A record is about a test by its name, or about the engine. -/
lemma shownName (c : Context) :
    ∃ s, ((c.marks.get? "test_name").filter Value.isTruthy).getD (.text "blocks") = .text s := by
  rw [marks_name]
  cases c.testName with
  | none => exact ⟨"blocks", rfl⟩
  | some t =>
    change ∃ s, (if !t.isEmpty then some (Value.text t) else none).getD _ = .text s
    split
    · exact ⟨t, rfl⟩
    · exact ⟨"blocks", rfl⟩

lemma logHead_ok (h : c.rowValue.plainText = .ok row) : ∃ s, logHead c.marks = .ok s := by
  obtain ⟨name, hname⟩ := shownName c
  unfold logHead
  dsimp only
  rw [hname, marks_row]
  cases hr : (some c.rowValue).filter (· != .null) with
  | none => exact ⟨_, rfl⟩
  | some v =>
    obtain rfl : c.rowValue = v := by
      have := Option.filter_eq_some_iff.mp hr
      exact Option.some.inj this.1
    refine ⟨"[" ++ (name ++ ("[" ++ row ++ "]")) ++ "] ", ?_⟩
    simp only [h]
    rfl

/-- The marks of a run take no name that records have of their own. -/
lemma log_eq (level : Level) (template : String) (arguments : List Value) (data : Value)
    (c : Context) :
    log level template arguments data c =
      logUnder (logHead c.marks) level template arguments data c := by
  have hnames : ["test_name", "data_iteration"].find? recordFields.contains = none := by decide
  have hkeys : (c.marks.update []).keys.find? recordFields.contains = none := hnames
  rw [log, logMarked, Action.bind_of_done (Action.get_run c)]
  simp only [hkeys]
  rfl

/-- A record that is not kept is not written. -/
lemma log_unkept {level : Level} (h : c.shared.journal.keeps level = false) (template : String)
    (arguments : List Value) (data : Value) :
    log level template arguments data c = (.done (), c) := by
  rw [log_eq]
  unfold logUnder
  rw [Action.bind_of_done (Action.get_run c), h]
  rfl

/-- A record without arguments can be written if the number of the row can. -/
lemma log_done (h : c.rowValue.plainText = .ok row) (level : Level) (template : String) :
    ∃ c', log level template [] .null c = (.done (), c') := by
  obtain ⟨head, hhead⟩ := logHead_ok h
  rw [log_eq, hhead, logUnder, Action.bind_of_done (Action.get_run c)]
  split
  · exact ⟨_, rfl⟩
  · exact ⟨c, rfl⟩

/-- The records of a run can be written behind their heads: the number of the row can be shown, and
no percent sign is taken for a directive. -/
def Loggable (c : Context) : Prop := ∃ head, logHead c.marks = .ok head ∧ '%' ∉ head.toList

/-- A record can be written if it can be with its head as a part of its template. -/
lemma logUnder_done {head : String} {level : Level} {template : String} {arguments : List Value}
    (ht : (Message.render (head ++ template) arguments).isOk = true) (c : Context) :
    ∃ c', logUnder (.ok head) level template arguments .null c = (.done (), c') := by
  rw [logUnder, Action.bind_of_done (Action.get_run c)]
  split
  · change ∃ c', (Action.compute (Message.render (head ++ template) arguments) >>= _ : Run Unit) c =
      (.done (), c')
    cases hr : Message.render (head ++ template) arguments with
    | ok text => exact ⟨_, rfl⟩
    | error f =>
      rw [hr] at ht
      cases ht
  · exact ⟨c, rfl⟩

/-- Behind such a head a record can be written if its own template can. -/
lemma Loggable.log_done (h : c.Loggable) (level : Level) (template : String)
    (arguments : List Value) (ht : (Message.render template arguments).isOk = true) :
    ∃ c', log level template arguments .null c = (.done (), c') := by
  obtain ⟨head, hhead, hclear⟩ := h
  rw [← Message.render_append_isOk hclear] at ht
  rw [log_eq, hhead]
  exact logUnder_done ht c

/-- A record is written, or it cannot be written behind its head. -/
lemma log_cases (c : Context) (level : Level) (template : String) (arguments : List Value)
    (ht : (Message.render template arguments).isOk = true) :
    (∃ c', log level template arguments .null c = (.done (), c')) ∨
      ∃ f c', log level template arguments .null c = (.failed f, c') ∧ ¬c.Loggable := by
  by_cases hc : c.Loggable
  · exact .inl (hc.log_done level template arguments ht)
  rw [log_eq, logUnder, Action.bind_of_done (Action.get_run c)]
  split
  · generalize (do Message.render ((← logHead c.marks) ++ template) arguments) = text
    change (∃ c', (Action.compute text >>= _ : Run Unit) c = (.done (), c')) ∨ _
    cases text with
    | ok text => exact .inl ⟨_, rfl⟩
    | error f => exact .inr ⟨_, _, rfl, hc⟩
  · exact .inl ⟨c, rfl⟩

/-- Logging comes to its end: the record is written, or it cannot be. -/
lemma log_ends {level : Level} {template : String} {arguments : List Value} {data : Value} :
    Action.Ends (log level template arguments data) := by
  refine .get fun c => .get fun c' => ?_
  split
  · exact (Action.Ends.compute _).bind fun _ => .modify _
  · exact .pure _

/-- The records of two contexts are marked alike. -/
structure SameMarks (c c' : Context) : Prop where
  test : c'.testName = c.testName
  row : c'.position = c.position

lemma SameMarks.marks {c' : Context} (h : SameMarks c c') : c'.marks = c.marks := by
  rw [Context.marks, Context.marks, h.test, rowValue, rowValue, h.row]

lemma Loggable.congr {c' : Context} (hc : c.Loggable) (h : SameMarks c c') : c'.Loggable := by
  rw [Loggable, h.marks]
  exact hc

/-! ### What a record leaves -/

/-- A context with other records in its journal. -/
def withRecords (c : Context) (records : List (Level × String)) : Context :=
  c.onJournal fun j => { j with records }

/-- Two contexts that differ in nothing but what is written in the journal. -/
def Journaled (c c' : Context) : Prop :=
  ∃ records notes, c' = c.onJournal fun j => { j with records, notes }

lemma Journaled.refl (c : Context) : c.Journaled c :=
  ⟨c.shared.journal.records, c.shared.journal.notes, rfl⟩

lemma Journaled.symm {c' : Context} (h : c.Journaled c') : c'.Journaled c := by
  obtain ⟨rs, ns, rfl⟩ := h
  exact ⟨c.shared.journal.records, c.shared.journal.notes, rfl⟩

lemma Journaled.trans {c' c'' : Context} (h : c.Journaled c') (h' : c'.Journaled c'') :
    c.Journaled c'' := by
  obtain ⟨rs, ns, rfl⟩ := h
  obtain ⟨rs', ns', rfl⟩ := h'
  exact ⟨rs', ns', rfl⟩

lemma journaled_withRecords (c : Context) (records : List (Level × String)) :
    c.Journaled (c.withRecords records) := ⟨records, c.shared.journal.notes, rfl⟩

/-- To log is to add to the records. -/
lemma onJournal_log (c : Context) (level : Level) (text : String) :
    c.onJournal (·.log level text) = c.withRecords (c.shared.journal.log level text).records := by
  have hlog : c.shared.journal.log level text =
      { c.shared.journal with records := (c.shared.journal.log level text).records } := by
    unfold Journal.log
    split <;> rfl
  exact congrArg (fun j => { c with shared := { c.shared with journal := j } }) hlog

/-- Whatever becomes of a record, nothing but the records of the journal is changed. -/
lemma logUnder_leaves {head : Except Fault String} {level : Level} {template : String}
    {arguments : List Value} {data : Value} {o : Outcome Unit} {c' : Context}
    (h : logUnder head level template arguments data c = (o, c')) :
    ∃ records, c' = c.withRecords records := by
  have hsame : ∃ records, c = c.withRecords records := ⟨c.shared.journal.records, rfl⟩
  unfold logUnder at h
  rw [Action.bind_of_done (Action.get_run c)] at h
  split at h
  · rcases Action.bind_cases h with ⟨text, c₁, h₁, h₂⟩ | ⟨o', h₁, -⟩
    · rw [Action.compute_same h₁] at h₂
      cases h₂
      exact ⟨_, onJournal_log c level text⟩
    · rwa [Action.compute_same h₁]
  · cases h
    exact hsame

lemma log_leaves {level : Level} {template : String} {arguments : List Value} {data : Value}
    {o : Outcome Unit} {c' : Context} (h : log level template arguments data c = (o, c')) :
    ∃ records, c' = c.withRecords records := by
  rw [log_eq] at h
  exact logUnder_leaves h

lemma setVariable_leaves {name : String} {v : Value} {o : Outcome Unit} {c' : Context}
    (h : setVariable name v c = (o, c')) :
    ∃ records, c' = { c with bindings := c.bindings.set name v }.withRecords records :=
  log_leaves (c := { c with bindings := c.bindings.set name v }) h

/-- Data is one more argument. -/
lemma log_data (level : Level) (template : String) (arguments : List Value) {v : Value}
    (hv : v ≠ .null) (c : Context) :
    log level template arguments v c =
      log level (template ++ " %r") (arguments ++ [v]) .null c := by
  rw [log_eq, log_eq]
  unfold logUnder
  cases v with
  | null => exact absurd rfl hv
  | _ => rfl

/-! ### Where records can be written -/

/-- Where the least urgent records are kept, all are. -/
lemma keeps_info {j : Journal} (h : j.keeps .debug = true) : j.keeps .info = true := by
  have hrank : j.level.rank ≤ 10 := of_decide_eq_true h
  exact decide_eq_true (Nat.le_trans hrank (by decide))

/-- A record can be written if it is not kept, or else behind its head. -/
lemma log_exists {level : Level} (hc : c.shared.journal.keeps level = true → c.Loggable)
    (template : String) (arguments : List Value)
    (ht : (Message.render template arguments).isOk = true) :
    ∃ c', log level template arguments .null c = (.done (), c') := by
  cases hkeeps : c.shared.journal.keeps level with
  | false => exact ⟨c, log_unkept hkeeps _ _ _⟩
  | true => exact (hc hkeeps).log_done level template arguments ht

/-- A variable can be bound if a record can be written about it, where one is kept. -/
lemma setVariable_exists (hc : c.shared.journal.keeps .debug = true → c.Loggable) (name : String)
    {v : Value} (shown : c.shared.journal.keeps .debug = true → v.quoted.isOk = true) :
    ∃ c', setVariable name v c = (.done (), c') := by
  let c₁ := { c with bindings := c.bindings.set name v }
  have hc₁ (hkeeps : c₁.shared.journal.keeps .debug = true) : c₁.Loggable :=
    (hc hkeeps).congr ⟨rfl, rfl⟩
  change ∃ c', log .debug "Set variable %s" [.text name] v c₁ = (.done (), c')
  cases hkeeps : c₁.shared.journal.keeps .debug with
  | false => exact ⟨c₁, log_unkept hkeeps _ _ _⟩
  | true =>
    by_cases hv : v = .null
    · subst hv
      exact log_exists hc₁ "Set variable %s" [.text name] rfl
    · rw [log_data _ _ _ hv]
      refine log_exists hc₁ _ _ ?_
      change (Message.render "Set variable %s %r" [.text name, v]).isOk = true
      rw [Message.render_shown]
      exact shown hkeeps

end BlockSuite.Context
