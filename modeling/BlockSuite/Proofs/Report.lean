import BlockSuite.CommandLine
import BlockSuite.Proofs.Decimal
import BlockSuite.Proofs.Machine.Walk
import BlockSuite.Proofs.Respelling

/-!
Reports of runs. The results of a run are printed as one list in JSON, and the exit code says
whether one of them failed. Both are lost where something in the results cannot be written: a
mapping with a key that JSON has no text for, or a whole number that is too long.
-/

namespace BlockSuite

namespace Value

/-! ### Values in reports -/

/-- Keys that JSON has a text for. -/
inductive IsKey : Value → String → Prop
  | text (s : String) : IsKey (.text s) s
  | null : IsKey .null "null"
  | bool (b : Bool) : IsKey (.bool b) (if b then "true" else "false")
  | int {i : Int} (short : Number.isShort i = true) :
    IsKey (.int i) (String.ofList (Number.spelled i))
  | float (d : Double) : IsKey (.float d) (Json.ofDouble d)

/-- Values that can be reported: those that are shown as texts, and lists and mappings of others, if
no whole number is too long, and each key has a text. -/
inductive Reportable : Value → Prop
  | null : Reportable .null
  | bool (b : Bool) : Reportable (.bool b)
  | int {i : Int} (short : Number.isShort i = true) : Reportable (.int i)
  | float (d : Double) : Reportable (.float d)
  | text {v : Value} {s : String} (shown : Json.shown v = .ok (.text s)) : Reportable v
  | list {xs : List Value} (items : ∀ x ∈ xs, Reportable x) : Reportable (.list xs)
  | tuple {xs : List Value} (items : ∀ x ∈ xs, Reportable x) : Reportable (.tuple xs)
  | dict {es : List (Value × Value)} (keys : ∀ e ∈ es, ∃ key, IsKey e.1 key)
    (members : ∀ e ∈ es, Reportable e.2) : Reportable (.dict es)

/-- What is read of the report of a value. Keys have become texts, and of members with one text the
last one counts. -/
inductive Shows : Value → Value → Prop
  | null : Shows .null .null
  | bool (b : Bool) : Shows (.bool b) (.bool b)
  | int (i : Int) : Shows (.int i) (.int i)
  | float (d : Double) : Shows (.float d) (.float d)
  | text {v : Value} {s : String} (shown : Json.shown v = .ok (.text s)) : Shows v (.text s)
  | list {xs ys : List Value} (items : List.Forall₂ Shows xs ys) : Shows (.list xs) (.list ys)
  | tuple {xs ys : List Value} (items : List.Forall₂ Shows xs ys) : Shows (.tuple xs) (.list ys)
  | dict {es : List (Value × Value)} {d : Dict Value}
    (keys : List.Forall₂ IsKey (es.map Prod.fst) d.keys)
    (members : List.Forall₂ Shows (es.map Prod.snd) (d.map Prod.snd)) :
    Shows (.dict es) (mappingOf (Arguments.members d))

variable {v w : Value} {xs : List Value} {es : List (Value × Value)}

lemma keyText_iff {layout : Json.Layout} {k : Value} {key : String} :
    Json.keyText layout k = .ok key ↔ IsKey k key := by
  constructor
  · intro h
    cases k with
    | int i =>
      rw [Json.keyText, Number.intText_eq] at h
      split at h
      · next short =>
        cases h
        exact .int short
      · cases h
    | _ =>
      cases h
      try constructor
  · rintro (_ | _ | _ | short | _)
    case int => exact Number.intText_short short
    all_goals rfl

/-- Lists and mappings are not shown as texts. -/
lemma shown_list_ne {s : String} : Json.shown (.list xs) ≠ .ok (.text s) := by
  intro h
  obtain ⟨ys, -, h⟩ := except_bind_ok h
  cases h

lemma shown_dict_ne {s : String} : Json.shown (.dict es) ≠ .ok (.text s) := by
  intro h
  obtain ⟨fs, -, h⟩ := except_bind_ok h
  cases h

lemma reportable_int {i : Int} : Reportable (.int i) ↔ Number.isShort i = true := by
  refine ⟨fun h => ?_, .int⟩
  cases h with
  | int short => exact short
  | text shown => cases shown

lemma reportable_list : Reportable (.list xs) ↔ ∀ x ∈ xs, Reportable x := by
  refine ⟨fun h => ?_, .list⟩
  cases h with
  | list items => exact items
  | text shown => exact absurd shown shown_list_ne

lemma reportable_tuple : Reportable (.tuple xs) ↔ ∀ x ∈ xs, Reportable x := by
  refine ⟨fun h => ?_, .tuple⟩
  cases h with
  | tuple items => exact items
  | text shown => exact absurd shown shown_list_ne

lemma reportable_dict :
    Reportable (.dict es) ↔ ∀ e ∈ es, (∃ key, IsKey e.1 key) ∧ Reportable e.2 := by
  refine ⟨fun h => ?_, fun h => .dict (fun e he => (h e he).1) fun e he => (h e he).2⟩
  cases h with
  | dict keys members => exact fun e he => ⟨keys e he, members e he⟩
  | text shown => exact absurd shown shown_dict_ne

/-! ### What can be reported -/

section Writing

variable {layout : Json.Layout} {depth : Nat}

/-- What is shown of a value is written. -/
def Written (layout : Json.Layout) (depth : Nat) (v : Value) : Prop :=
  ∃ u s, Json.shown v = .ok u ∧ Json.write layout depth u = .ok s

/-- Values are shown and written together just if each of them is. -/
lemma writtenAll_iff :
    (∃ us ss, Json.shownAll xs = .ok us ∧ Json.writeAll layout depth us = .ok ss) ↔
      ∀ x ∈ xs, Written layout depth x := by
  induction xs with
  | nil => exact iff_of_true ⟨[], [], rfl, rfl⟩ nofun
  | cons x rest ih =>
    rw [List.forall_mem_cons, ← ih]
    constructor
    · rintro ⟨_, _, hshown, hwrite⟩
      obtain ⟨u, hu, hshown⟩ := except_bind_ok hshown
      obtain ⟨us, hus, hshown⟩ := except_bind_ok hshown
      cases hshown
      obtain ⟨s, hs, hwrite⟩ := except_bind_ok hwrite
      obtain ⟨ss, hss, -⟩ := except_bind_ok hwrite
      exact ⟨⟨u, s, hu, hs⟩, us, ss, hus, hss⟩
    · rintro ⟨⟨u, s, hu, hs⟩, us, ss, hus, hss⟩
      refine ⟨u :: us, s :: ss, ?_, ?_⟩
      · rw [Json.shownAll, hu, hus]
        rfl
      · rw [Json.writeAll, hs, hss]
        rfl

lemma writtenEntries_iff :
    (∃ fs ss, Json.shownEntries es = .ok fs ∧ Json.writeMembers layout depth fs = .ok ss) ↔
      ∀ e ∈ es, (∃ key, IsKey e.1 key) ∧ Written layout depth e.2 := by
  induction es with
  | nil => exact iff_of_true ⟨[], [], rfl, rfl⟩ nofun
  | cons e rest ih =>
    rw [List.forall_mem_cons, ← ih]
    constructor
    · rintro ⟨_, _, hshown, hwrite⟩
      obtain ⟨u, hu, hshown⟩ := except_bind_ok hshown
      obtain ⟨fs, hfs, hshown⟩ := except_bind_ok hshown
      cases hshown
      obtain ⟨key, hkey, hwrite⟩ := except_bind_ok hwrite
      obtain ⟨s, hs, hwrite⟩ := except_bind_ok hwrite
      obtain ⟨ss, hss, -⟩ := except_bind_ok hwrite
      exact ⟨⟨⟨key, keyText_iff.mp hkey⟩, u, s, hu, hs⟩, fs, ss, hfs, hss⟩
    · rintro ⟨⟨⟨key, hkey⟩, u, s, hu, hs⟩, fs, ss, hfs, hss⟩
      refine ⟨(e.1, u) :: fs, (Json.ofText key ++ layout.colon ++ s) :: ss, ?_, ?_⟩
      · rw [Json.shownEntries, hu, hfs]
        rfl
      · rw [Json.writeMembers, keyText_iff.mpr hkey, hs, hss]
        rfl

lemma written_list : Written layout depth (.list xs) ↔ ∀ x ∈ xs, Written layout (depth + 1) x := by
  rw [← writtenAll_iff]
  constructor
  · rintro ⟨_, _, hshown, hwrite⟩
    obtain ⟨us, hus, hshown⟩ := except_bind_ok hshown
    cases hshown
    obtain ⟨ss, hss, -⟩ := except_bind_ok hwrite
    exact ⟨us, ss, hus, hss⟩
  · rintro ⟨us, ss, hus, hss⟩
    refine ⟨.list us, layout.wrap depth "[" "]" ss, ?_, ?_⟩
    · rw [Json.shown, hus]
      rfl
    · rw [Json.write, hss]
      rfl

lemma written_tuple : Written layout depth (.tuple xs) ↔ Written layout depth (.list xs) := Iff.rfl

lemma written_dict : Written layout depth (.dict es) ↔
    ∀ e ∈ es, (∃ key, IsKey e.1 key) ∧ Written layout (depth + 1) e.2 := by
  rw [← writtenEntries_iff]
  constructor
  · rintro ⟨_, _, hshown, hwrite⟩
    obtain ⟨fs, hfs, hshown⟩ := except_bind_ok hshown
    cases hshown
    obtain ⟨ss, hss, -⟩ := except_bind_ok hwrite
    exact ⟨fs, ss, hfs, hss⟩
  · rintro ⟨fs, ss, hfs, hss⟩
    refine ⟨.dict fs, layout.wrap depth "\x7b" "\x7d" ss, ?_, ?_⟩
    · rw [Json.shown, hfs]
      rfl
    · rw [Json.write, hss]
      rfl

/-- What is shown as a text is written. -/
lemma written_text {s : String} (h : Json.shown v = .ok (.text s)) : Written layout depth v :=
  ⟨.text s, Json.ofText s, h, rfl⟩

lemma written_int {i : Int} : Written layout depth (.int i) ↔ Number.isShort i = true := by
  constructor
  · rintro ⟨_, s, ⟨⟩, hwrite⟩
    rw [Json.write, Number.intText_eq] at hwrite
    split at hwrite
    · assumption
    · cases hwrite
  · exact fun short => ⟨.int i, _, rfl, Number.intText_short short⟩

/-- **A value can be reported just if it is written**, in whatever layout. -/
theorem reportable_iff_written (layout : Json.Layout) : ∀ (v : Value) (depth : Nat),
    v.Reportable ↔ Written layout depth v
  | .list xs, depth => by
    rw [reportable_list, written_list]
    exact forall₂_congr fun x _ => reportable_iff_written layout x (depth + 1)
  | .tuple xs, depth => by
    rw [reportable_tuple, written_tuple, written_list]
    exact forall₂_congr fun x _ => reportable_iff_written layout x (depth + 1)
  | .dict es, depth => by
    rw [reportable_dict, written_dict]
    exact forall₂_congr fun e _ =>
      and_congr_right' (reportable_iff_written layout e.2 (depth + 1))
  | .int i, depth => reportable_int.trans written_int.symm
  | .null, _ => iff_of_true .null ⟨.null, _, rfl, rfl⟩
  | .bool b, _ => iff_of_true (.bool b) ⟨.bool b, _, rfl, rfl⟩
  | .float d, _ => iff_of_true (.float d) ⟨.float d, _, rfl, rfl⟩
  | .text s, _ => iff_of_true (.text rfl) (written_text rfl)
  | .date d, _ => iff_of_true (.text rfl) (written_text rfl)
  | .moment m, _ => iff_of_true (.text rfl) (written_text rfl)
  | .duration d, _ => iff_of_true (.text rfl) (written_text rfl)
  | .bytes _, _ | .set _, _ | .handle _, _ | .inner .., _ => by
    constructor
    · intro h
      cases h with
      | text shown => exact written_text shown
    · rintro ⟨_, _, hshown, -⟩
      have hshown' := hshown
      obtain ⟨s, -, h⟩ := except_bind_ok hshown'
      cases h
      exact .text hshown
termination_by v => sizeOf v
decreasing_by
  all_goals
    simp only [Value.list.sizeOf_spec, Value.tuple.sizeOf_spec, Value.dict.sizeOf_spec]
    first
    | exact Json.sizeOf_item ‹_ ∈ xs›
    | exact Json.sizeOf_member ‹_ ∈ es›

end Writing

/-! ### What is read of a report -/

lemma IsKey.text_eq {s key : String} (h : IsKey (.text s) key) : key = s := by
  cases h
  rfl

lemma writes_float {d : Double} (h : d.Proper) : Json.Writes (.float d) (.float d) :=
  fun _ _ _ => ⟨_, rfl, Json.spells_double h⟩

/-- What is shown of a value is written as a text that spells what is read of it. -/
def Relayed (v : Value) : Prop := ∃ u w, Json.shown v = .ok u ∧ Shows v w ∧ Json.Writes u w

lemma relayedAll (h : ∀ x ∈ xs, Relayed x) : ∃ us ws, Json.shownAll xs = .ok us ∧
    List.Forall₂ Shows xs ws ∧ List.Forall₂ Json.Writes us ws := by
  induction xs with
  | nil => exact ⟨[], [], rfl, .nil, .nil⟩
  | cons x rest ih =>
    obtain ⟨u, w, hu, hshows, hwrites⟩ := h x List.mem_cons_self
    obtain ⟨us, ws, hus, hall, hwritten⟩ := ih fun y hy => h y (List.mem_cons_of_mem _ hy)
    refine ⟨u :: us, w :: ws, ?_, .cons hshows hall, .cons hwrites hwritten⟩
    rw [Json.shownAll, hu, hus]
    rfl

lemma relayedEntries (h : ∀ e ∈ es, (∃ key, IsKey e.1 key) ∧ Relayed e.2) :
    ∃ (fs : List (Value × Value)) (d : Dict Value), Json.shownEntries es = .ok fs ∧
      List.Forall₂ IsKey (es.map Prod.fst) d.keys ∧
      List.Forall₂ Shows (es.map Prod.snd) (d.map Prod.snd) ∧
      List.Forall₂ Json.WritesMember fs d := by
  induction es with
  | nil => exact ⟨[], [], rfl, .nil, .nil, .nil⟩
  | cons e rest ih =>
    obtain ⟨⟨key, hkey⟩, u, w, hu, hshows, hwrites⟩ := h e List.mem_cons_self
    obtain ⟨fs, d, hfs, hkeys, hall, hwritten⟩ := ih fun y hy => h y (List.mem_cons_of_mem _ hy)
    refine ⟨(e.1, u) :: fs, (key, w) :: d, ?_, .cons hkey hkeys, .cons hshows hall,
      .cons ⟨fun _ => keyText_iff.mpr hkey, hwrites⟩ hwritten⟩
    rw [Json.shownEntries, hu, hfs]
    rfl

/-- **What can be reported is read back** as what it shows. -/
theorem Reportable.relayed (h : v.Reportable) (proper : ∀ d, Json.Holds v d → d.Proper) :
    Relayed v := by
  induction h with
  | null => exact ⟨.null, .null, rfl, .null, Json.writes_null⟩
  | bool b => exact ⟨.bool b, .bool b, rfl, .bool b, Json.writes_bool b⟩
  | @int i short => exact ⟨.int i, .int i, rfl, .int i, Json.writes_int short⟩
  | float d => exact ⟨.float d, .float d, rfl, .float d, writes_float (proper d (.number d))⟩
  | @text v s shown => exact ⟨.text s, .text s, shown, .text shown, Json.writes_text s⟩
  | list _ ih =>
    obtain ⟨us, ws, hus, hshows, hwrites⟩ :=
      relayedAll fun x hx => ih x hx fun d hd => proper d (.item hx hd)
    refine ⟨.list us, .list ws, ?_, .list hshows, Json.writes_list hwrites⟩
    rw [Json.shown, hus]
    rfl
  | tuple _ ih =>
    obtain ⟨us, ws, hus, hshows, hwrites⟩ :=
      relayedAll fun x hx => ih x hx fun d hd => proper d (.part hx hd)
    refine ⟨.list us, .list ws, ?_, .tuple hshows, Json.writes_list hwrites⟩
    rw [Json.shown, hus]
    rfl
  | dict keys _ ih =>
    obtain ⟨fs, d, hfs, hkeys, hshows, hwrites⟩ :=
      relayedEntries fun e he => ⟨keys e he, ih e he fun d hd => proper d (.value he hd)⟩
    refine ⟨.dict fs, _, ?_, .dict hkeys hshows, Json.writes_mapping hwrites⟩
    rw [Json.shown, hfs]
    rfl

lemma shows_text {s : String} (h : Shows (.text s) w) : w = .text s := by
  cases h with
  | text shown =>
    cases shown
    rfl

lemma shows_null (h : Shows .null w) : w = .null := by
  cases h with
  | null => rfl
  | text shown => cases shown

lemma shows_ofText? {s : Option String} (h : Shows (.ofText? s) w) : w = .ofText? s := by
  cases s with
  | none => exact shows_null h
  | some s => exact shows_text h

lemma shows_list (h : Shows (.list xs) w) : ∃ ys, w = .list ys ∧ List.Forall₂ Shows xs ys := by
  cases h with
  | list items => exact ⟨_, rfl, items⟩
  | text shown => exact absurd shown shown_list_ne

/-- A member of a record is read under the same key. -/
def ShowsMember (e m : String × Value) : Prop := e.1 = m.1 ∧ Shows e.2 m.2

lemma showsMembers (d d' : Dict Value)
    (keys : List.Forall₂ IsKey ((Arguments.members d).map Prod.fst) d'.keys)
    (members : List.Forall₂ Shows ((Arguments.members d).map Prod.snd) (d'.map Prod.snd)) :
    List.Forall₂ ShowsMember d d' := by
  induction d generalizing d' with
  | nil =>
    cases d' with
    | nil => exact .nil
    | cons m d' => cases keys
  | cons e d ih =>
    cases d' with
    | nil => cases keys
    | cons m d' =>
      obtain ⟨hkey, keys⟩ := List.forall₂_cons.mp keys
      obtain ⟨hmember, members⟩ := List.forall₂_cons.mp members
      exact .cons ⟨hkey.text_eq.symm, hmember⟩ (ih d' keys members)

lemma keys_eq {d d' : Dict Value} (h : List.Forall₂ ShowsMember d d') : d'.keys = d.keys := by
  induction h with
  | nil => rfl
  | @cons e m d d' hm _ ih =>
    change m.1 :: Dict.keys d' = e.1 :: Dict.keys d
    rw [hm.1, ih]

lemma showsMember_cons {e : String × Value} {d d' : Dict Value}
    (h : List.Forall₂ ShowsMember (e :: d) d') :
    ∃ w rest, d' = (e.1, w) :: rest ∧ Shows e.2 w ∧ List.Forall₂ ShowsMember d rest := by
  cases h with
  | @cons _ m _ rest hm hrest =>
    obtain ⟨hkey, hm⟩ := hm
    exact ⟨m.2, rest, by rw [hkey], hm, hrest⟩

/-- What is read of a record has the same keys in the same order. -/
lemma shows_record {d : Dict Value} (hkeys : d.keys.Nodup) (h : Shows (.record d) w) :
    ∃ d' : Dict Value, w = .record d' ∧ List.Forall₂ ShowsMember d d' := by
  cases h with
  | text shown => exact absurd shown shown_dict_ne
  | @dict _ d' keys members =>
    have hshows := showsMembers d d' keys members
    exact ⟨d', mappingOf_members (keys_eq hshows ▸ hkeys), hshows⟩

lemma reportable_record {d : Dict Value} :
    Reportable (.record d) ↔ ∀ e ∈ d, Reportable e.2 := by
  refine reportable_dict.trans ⟨fun h e he => ?_, fun h e he => ?_⟩
  · exact (h _ (List.mem_map_of_mem he)).2
  · obtain ⟨m, hm, rfl⟩ := List.mem_map.mp he
    exact ⟨⟨m.1, .text m.1⟩, h m hm⟩

lemma reportable_text (s : String) : Reportable (.text s) := .text rfl

lemma reportable_ofText? (s : Option String) : Reportable (.ofText? s) := by
  cases s with
  | none => exact .null
  | some s => exact reportable_text s

end Value

/-! ### Results in reports -/

lemma ErrorInfo.reportable_record (e : Option ErrorInfo) :
    ((e.map ErrorInfo.record).getD .null).Reportable := by
  cases e with
  | none => exact .null
  | some e =>
    refine Value.reportable_record.mpr ?_
    simp [Value.reportable_text, Value.reportable_ofText?]

namespace StepResult

lemma records_eq (whole : Bool) (rs : List StepResult) :
    records whole rs = rs.map (record whole) := by
  induction rs with
  | nil => rfl
  | cons r rest ih => rw [records, ih, List.map_cons]

lemma inputRecords_eq (whole : Bool) (inputs : List (String × StepResult)) :
    inputRecords whole inputs =
      Arguments.members (inputs.map fun e => (e.1, record whole e.2)) := by
  induction inputs with
  | nil => rfl
  | cons e rest ih =>
    rw [inputRecords, ih]
    rfl

/-- A result can be reported if its own values can be, and the results inside it. -/
lemma reportable_record (r : StepResult) : (r.record false).Reportable ↔
    (r.output.Reportable ∧ r.artifact.Reportable) ∧
      (∀ y ∈ r.given, (y.record false).Reportable) ∧
      ∀ y ∈ r.children, (y.record false).Reportable := by
  obtain ⟨id, type, status, duration, output, error, artifact, inputs, children, soft, returned,
    failure⟩ := r
  have hinputs : (Value.dict (inputRecords false inputs)).Reportable ↔
      ∀ e ∈ inputs, (e.2.record false).Reportable := by
    rw [inputRecords_eq]
    exact Value.reportable_record.trans List.forall_mem_map
  have hchildren : (Value.list (records false children)).Reportable ↔
      ∀ y ∈ children, (y.record false).Reportable := by
    rw [records_eq, Value.reportable_list]
    simp
  have hplain (b : Bool) : (Value.bool b).Reportable := .bool b
  have hduration : (Value.float duration).Reportable := .float duration
  rw [record, Value.reportable_record]
  simp only [if_neg Bool.false_ne_true, List.append_nil, List.forall_mem_cons, hinputs, hchildren,
    Value.reportable_text, ErrorInfo.reportable_record, hplain, hduration, given,
    List.forall_mem_map, true_and, and_assoc]
  tauto

/-- **The result of a step can be reported** if all outputs and artifacts in its tree can be. -/
theorem reportable_iff (r : StepResult) : (r.record false).Reportable ↔
    ∀ x ∈ r.walk, x.output.Reportable ∧ x.artifact.Reportable := by
  rw [reportable_record]
  constructor
  · rintro ⟨hown, hgiven, hchildren⟩ x hx
    rcases mem_walk.mp hx with rfl | ⟨y, hy, hx⟩ | ⟨y, hy, hx⟩
    · exact hown
    · exact (reportable_iff y).mp (hgiven y hy) x hx
    · exact (reportable_iff y).mp (hchildren y hy) x hx
  · intro h
    refine ⟨h r (mem_walk.mpr (.inl rfl)), fun y hy => ?_, fun y hy => ?_⟩
    · exact (reportable_iff y).mpr fun x hx => h x (mem_walk.mpr (.inr (.inl ⟨y, hy, hx⟩)))
    · exact (reportable_iff y).mpr fun x hx => h x (mem_walk.mpr (.inr (.inr ⟨y, hy, hx⟩)))
termination_by sizeOf r
decreasing_by
  · exact sizeOf_lt (.inl hy)
  · exact sizeOf_lt (.inr hy)
  · exact sizeOf_lt (.inl hy)
  · exact sizeOf_lt (.inr hy)

lemma reportableAll_iff (rs : List StepResult) :
    (∀ r ∈ rs, (r.record false).Reportable) ↔
      ∀ x ∈ walkAll rs, x.output.Reportable ∧ x.artifact.Reportable := by
  simp only [reportable_iff, mem_walkAll]
  exact ⟨fun h x ⟨y, hy, hx⟩ => h y hy x hx, fun h y hy x hx => h x ⟨y, hy, hx⟩⟩

end StepResult

/-- A report is written just if the value can be reported. -/
lemma Json.report_ok_iff {indent : String} {v : Value} :
    (∃ s, Json.report indent v = .ok s) ↔ v.Reportable := by
  rw [Value.reportable_iff_written (.indented indent) v 0]
  constructor
  · rintro ⟨s, h⟩
    obtain ⟨u, hu, hs⟩ := except_bind_ok h
    exact ⟨u, s, hu, hs⟩
  · rintro ⟨u, s, hu, hs⟩
    refine ⟨s, ?_⟩
    rw [Json.report, hu]
    exact hs

/-- **A report is read back** as what the value shows. -/
theorem Json.report_reads {indent : String} (hindent : Json.Blank indent.toList) {v : Value}
    {s : String} (h : Json.report indent v = .ok s) (proper : ∀ d, Json.Holds v d → d.Proper)
    {tail : String} (htail : Json.Blank tail.toList) :
    ∃ w, Value.Shows v w ∧ Json.read (s ++ tail) = .ok w := by
  obtain ⟨u, w, hu, hshows, hwrites⟩ := (Json.report_ok_iff.mp ⟨s, h⟩).relayed proper
  obtain ⟨s', hs', hspells⟩ := hwrites (.indented indent) hindent 0
  rw [Json.report, hu] at h
  obtain rfl : s' = s := Except.ok.inj (hs'.symm.trans h)
  exact ⟨w, hshows, hspells.read_blank htail⟩

namespace TestResult

/-- Everything in a result can be reported: its number of a row is not too long, all outputs and
artifacts of its steps, their inputs and children can be, and what collected failures expected and
found. -/
structure Reportable (r : TestResult) : Prop where
  row : ∀ i ∈ r.row, Number.isShort i = true
  steps : ∀ x ∈ StepResult.walkAll r.steps, x.output.Reportable ∧ x.artifact.Reportable
  softErrors : ∀ e ∈ r.softErrors, e.expected.Reportable ∧ e.actual.Reportable

lemma reportable_softError (e : SoftError) : (e.record .plain).Reportable ↔
    e.expected.Reportable ∧ e.actual.Reportable := by
  rw [SoftError.record, Value.reportable_record, SoftError.members]
  simp only [List.forall_mem_cons, Value.reportable_text, Value.reportable_ofText?, true_and]
  simp [Display.plain]

lemma reportable_row (row : Option Int) : ((row.map Value.int).getD .null).Reportable ↔
    ∀ i ∈ row, Number.isShort i = true := by
  cases row with
  | none => exact iff_of_true .null nofun
  | some i => simpa using Value.reportable_int

/-- A result can be reported just if everything in it can be. -/
theorem reportable_iff (r : TestResult) : r.record.Reportable ↔ r.Reportable := by
  rw [record, Value.reportable_record]
  simp only [List.forall_mem_cons, Value.reportable_text, ErrorInfo.reportable_record,
    Value.reportable_ofText?, reportable_row, Value.reportable_list, StepResult.records_eq,
    List.forall_mem_map, StepResult.reportableAll_iff, reportable_softError, true_and]
  exact ⟨fun ⟨steps, row, soft, _⟩ => ⟨row, steps, soft⟩,
    fun h => ⟨h.steps, h.row, h.softErrors, nofun⟩⟩

lemma shows_row {row : Option Int} {w : Value}
    (h : Value.Shows ((row.map Value.int).getD .null) w) : w = (row.map Value.int).getD .null := by
  cases row with
  | none => exact Value.shows_null h
  | some i =>
    cases h with
    | int => rfl
    | text shown => cases shown

/-- What is read of the report of a result. -/
def Told (r : TestResult) (w : Value) : Prop :=
  ∃ steps error softErrors,
    w = .record [("test_id", .text r.testId), ("test_name", .text r.testName),
      ("status", .text r.status.name), ("steps", .list steps), ("error", error),
      ("data_iteration", (r.row.map Value.int).getD .null), ("lifecycle", .ofText? r.lifecycle),
      ("soft_errors", .list softErrors)] ∧
    List.Forall₂ Value.Shows (r.steps.map (StepResult.record false)) steps ∧
    Value.Shows ((r.error.map ErrorInfo.record).getD .null) error ∧
    List.Forall₂ Value.Shows (r.softErrors.map (SoftError.record .plain)) softErrors

/-- The report of a result shows its members one by one. -/
lemma told_of_shows {r : TestResult} {w : Value} (h : Value.Shows r.record w) : r.Told w := by
  obtain ⟨d, rfl, hmembers⟩ := Value.shows_record (by simp [Dict.keys]) h
  obtain ⟨id, _, rfl, hid, hmembers⟩ := Value.showsMember_cons hmembers
  obtain ⟨name, _, rfl, hname, hmembers⟩ := Value.showsMember_cons hmembers
  obtain ⟨status, _, rfl, hstatus, hmembers⟩ := Value.showsMember_cons hmembers
  obtain ⟨steps, _, rfl, hsteps, hmembers⟩ := Value.showsMember_cons hmembers
  obtain ⟨error, _, rfl, herror, hmembers⟩ := Value.showsMember_cons hmembers
  obtain ⟨row, _, rfl, hrow, hmembers⟩ := Value.showsMember_cons hmembers
  obtain ⟨lifecycle, _, rfl, hlifecycle, hmembers⟩ := Value.showsMember_cons hmembers
  obtain ⟨soft, _, rfl, hsoft, hmembers⟩ := Value.showsMember_cons hmembers
  cases hmembers
  obtain ⟨stepItems, rfl, hstepItems⟩ := Value.shows_list hsteps
  obtain ⟨softItems, rfl, hsoftItems⟩ := Value.shows_list hsoft
  rw [StepResult.records_eq] at hstepItems
  refine ⟨stepItems, error, softItems, ?_, hstepItems, herror, hsoftItems⟩
  rw [Value.shows_text hid, Value.shows_text hname, Value.shows_text hstatus, shows_row hrow,
    Value.shows_ofText? hlifecycle]

end TestResult

namespace CommandLine

variable {settings : Settings} {entries : List EntryPoint} {path : String} {text : Option String}
  {session s' : Session} {warnings : List String}

/-- The session that is started for the suite of a file, with the warnings on the way. -/
def session? (settings : Settings) (entries : List EntryPoint) (path : String)
    (text : Option String) : Option (Session × List String) :=
  match suiteOf path text with
  | .error _ => none
  | .ok suite =>
    match Environment.create settings Library.catalog none none entries with
    | (.done _, setup) =>
      match Session.start setup suite [] setup.environment.journal with
      | (.done session, warnings) => some (session, warnings)
      | _ => none
    | _ => none

/-- Nothing is printed. -/
def lost (warnings : List String) (f : Failure) : Report :=
  { code := 1, warnings, failure := some f }

/-- What a run that gives results is reported as. -/
def reported (warnings : List String) (results : List TestResult) : Report :=
  match Json.report "  " (.list (results.map TestResult.record)) with
  | .error f => lost warnings (.ofFault f)
  | .ok json =>
    let green := results.all fun r => r.status == .passed || r.status == .skipped
    { code := if green then 0 else 1, printed := json ++ "\n", warnings }

lemma runFile_eq (opens : session? settings entries path text = some (session, warnings)) :
    runFile settings entries path text =
      match (Session.runSuite session).1.ended with
      | .error f => lost warnings f
      | .ok results => reported warnings results := by
  have hended {α : Type} (a : α) : (Outcome.done a).ended = .ok a := rfl
  unfold session? at opens
  split at opens
  · cases opens
  next suite hsuite =>
  split at opens
  · next setup hcreated =>
    split at opens
    · next hstarted =>
      cases opens
      simp only [runFile, hsuite, hcreated, hstarted, hended]
      cases (Session.runSuite session).1.ended with
      | error f => rfl
      | ok results =>
        unfold reported
        simp only [bind, Except.bind]
        cases Json.report "  " (.list (results.map TestResult.record)) with
        | error f => rfl
        | ok json => rfl
    · cases opens
  · cases opens

/-- The exit code says whether some result is no success. -/
lemma exitCode_iff (results : List TestResult) :
    let code := if results.all fun r => r.status == .passed || r.status == .skipped then 0 else 1
    (code = 1 ↔ ∃ t ∈ results, t.status = .failed ∨ t.status = .error) ∧
      (code = 0 ↔ ∀ t ∈ results, t.status = .passed ∨ t.status = .skipped) := by
  have hgreen : (results.all fun r => r.status == .passed || r.status == .skipped) = true ↔
      ∀ t ∈ results, t.status = .passed ∨ t.status = .skipped := by simp
  have hred : (∃ t ∈ results, t.status = .failed ∨ t.status = .error) ↔
      ¬∀ t ∈ results, t.status = .passed ∨ t.status = .skipped := by
    have hstatus (status : Status) : status = .failed ∨ status = .error ↔
        ¬(status = .passed ∨ status = .skipped) := by cases status <;> simp
    simp only [hstatus, not_forall, exists_prop]
  rw [hred, ← hgreen]
  by_cases h : (results.all fun r => r.status == .passed || r.status == .skipped) = true
  · simp [h]
  · simp [h]

/-- What reports of results come to. -/
lemma reported_cases (warnings : List String) (results : List TestResult) :
    (∃ json, Json.report "  " (.list (results.map TestResult.record)) = .ok json ∧
      (∀ t ∈ results, t.Reportable) ∧
      (reported warnings results).failure = none ∧
      (reported warnings results).printed = json ++ "\n" ∧
      ((reported warnings results).code = 1 ↔
        ∃ t ∈ results, t.status = .failed ∨ t.status = .error) ∧
      ((reported warnings results).code = 0 ↔
        ∀ t ∈ results, t.status = .passed ∨ t.status = .skipped)) ∨
    (¬∀ t ∈ results, t.Reportable) ∧ ∃ f, reported warnings results = lost warnings f := by
  have hreportable : (∃ json, Json.report "  " (.list (results.map TestResult.record)) = .ok json) ↔
      ∀ t ∈ results, t.Reportable := by
    rw [Json.report_ok_iff, Value.reportable_list, List.forall_mem_map]
    simp only [TestResult.reportable_iff]
  unfold reported
  cases hjson : Json.report "  " (.list (results.map TestResult.record)) with
  | error f =>
    rw [hjson] at hreportable
    exact .inr ⟨fun h => by simpa using hreportable.mpr h, _, rfl⟩
  | ok json =>
    obtain ⟨hred, hgreen⟩ := exitCode_iff results
    exact .inl ⟨json, rfl, hreportable.mp ⟨json, hjson⟩, rfl, rfl, hred, hgreen⟩

/-- **The results of a run are printed as one list**, an element for each, and the exit code says
whether one of them failed or broke off, just if everything in them can be reported. Else nothing is
printed, whatever became of the tests. Numbers are read back as they were if they are proper
floating point numbers. -/
theorem runFile_reports
    (opens : session? settings entries path text = some (session, warnings))
    {o : Outcome (List TestResult)} (ran : Session.runSuite session = (o, s')) {r : Report}
    (hr : runFile settings entries path text = r) :
    (∀ results, o = .done results →
      (r.failure = none ↔ ∀ t ∈ results, t.Reportable) ∧
      (r.failure = none →
        (r.code = 1 ↔ ∃ t ∈ results, t.status = .failed ∨ t.status = .error) ∧
        (r.code = 0 ↔ ∀ t ∈ results, t.status = .passed ∨ t.status = .skipped) ∧
        ((∀ t ∈ results, ∀ d, Json.Holds t.record d → d.Proper) →
          ∃ elements, Json.read r.printed = .ok (.list elements) ∧
            List.Forall₂ TestResult.Told results elements))) ∧
    ((∀ results, o ≠ .done results) → r.failure ≠ none) ∧
    (r.failure ≠ none → r.code = 1 ∧ r.printed = "") := by
  have hrun := runFile_eq opens
  rw [ran, hr] at hrun
  have hlost (f : Failure) (h : r = lost warnings f) :
      r.failure ≠ none ∧ (r.failure ≠ none → r.code = 1 ∧ r.printed = "") := by
    rw [h]
    exact ⟨nofun, fun _ => ⟨rfl, rfl⟩⟩
  cases o with
  | failed f =>
    obtain ⟨hfailure, hnothing⟩ := hlost f hrun
    exact ⟨nofun, fun _ => hfailure, hnothing⟩
  | exhausted =>
    obtain ⟨hfailure, hnothing⟩ := hlost _ hrun
    exact ⟨nofun, fun _ => hfailure, hnothing⟩
  | done results =>
    have hreported : r = reported warnings results := hrun
    rcases reported_cases warnings results with
      ⟨json, hjson, hreportable, hfailure, hprinted, hred, hgreen⟩ | ⟨hnot, f, hf⟩
    · rw [← hreported] at hfailure hprinted hred hgreen
      refine ⟨?_, fun h => absurd rfl (h results), fun h => absurd hfailure h⟩
      rintro _ ⟨⟩
      refine ⟨iff_of_true hfailure hreportable, fun _ => ⟨hred, hgreen, fun proper => ?_⟩⟩
      have hindent : Json.Blank "  ".toList := Json.blank_of_all (by decide)
      have hbreak : Json.Blank "\n".toList := Json.blank_of_all (by decide)
      have hproper : ∀ d, Json.Holds (.list (results.map TestResult.record)) d → d.Proper := by
        intro d hd
        obtain ⟨x, hx, hd⟩ := Json.holds_list.mp hd
        obtain ⟨t, ht, rfl⟩ := List.mem_map.mp hx
        exact proper t ht d hd
      obtain ⟨w, hshows, hread⟩ := Json.report_reads hindent hjson hproper hbreak
      obtain ⟨elements, rfl, helements⟩ := Value.shows_list hshows
      rw [List.forall₂_map_left_iff] at helements
      exact ⟨elements, hprinted ▸ hread, helements.imp fun _ _ => TestResult.told_of_shows⟩
    · obtain ⟨hfailure, hnothing⟩ := hlost f (hreported.trans hf)
      refine ⟨?_, fun _ => hfailure, hnothing⟩
      rintro _ ⟨⟩
      exact ⟨iff_of_false hfailure hnot, fun h => absurd h hfailure⟩

/-- The results of the suite of a file. -/
def results? (settings : Settings) (entries : List EntryPoint) (path : String)
    (text : Option String) : Option (List TestResult) :=
  (session? settings entries path text).bind fun s =>
    match (Session.runSuite s.1).1 with
    | .done results => some results
    | _ => none

/-- What is computed of the results of a file belongs to a run of its session. -/
lemma exists_run {α : Type} {g : List TestResult → α} {a : α}
    (h : (results? settings entries path text).map g = some a) :
    ∃ session warnings results s', session? settings entries path text = some (session, warnings) ∧
      Session.runSuite session = (.done results, s') ∧ g results = a := by
  obtain ⟨results, hresults, hg⟩ := Option.map_eq_some_iff.mp h
  obtain ⟨⟨session, warnings⟩, hsession, hresults⟩ := Option.bind_eq_some_iff.mp hresults
  rcases hrun : Session.runSuite session with ⟨o, s'⟩
  rw [hrun] at hresults
  cases o with
  | done _ =>
    cases hresults
    exact ⟨session, warnings, results, s', hsession, hrun, hg⟩
  | _ => cases hresults

/-- No floating point number is reported of a test without steps that does not fail. -/
lemma not_holds_record {t : TestResult} (hsteps : t.steps = []) (herror : t.error = none)
    (hsoft : t.softErrors = []) {d : Double} : ¬Json.Holds t.record d := by
  intro h
  rw [TestResult.record, hsteps, herror, hsoft] at h
  obtain ⟨e, he, hd⟩ := Json.holds_dict.mp h
  obtain ⟨m, hm, rfl⟩ := List.mem_map.mp he
  have hd : Json.Holds m.2 d := hd.resolve_left nofun
  have hrow : ¬Json.Holds ((t.row.map Value.int).getD .null) d := by
    cases t.row <;> exact nofun
  have hlifecycle : ¬Json.Holds (.ofText? t.lifecycle) d := by
    cases t.lifecycle <;> exact nofun
  simp only [List.mem_cons, List.not_mem_nil, or_false] at hm
  rcases hm with rfl | rfl | rfl | rfl | rfl | rfl | rfl | rfl
  · cases hd
  · cases hd
  · cases hd
  · exact absurd (Json.holds_list.mp hd) nofun
  · cases hd
  · exact hrow hd
  · exact hlifecycle hd
  · exact absurd (Json.holds_list.mp hd) nofun

/-- What is seen of a result at first sight: how it ended, for which row, and how much it tells. -/
def glance (t : TestResult) : (Status × Option Int) × Nat × Bool × Nat :=
  ((t.status, t.row), t.steps.length, t.error.isNone, t.softErrors.length)

/-- A sale at two prices. -/
def priceList : String :=
  "tests: [\x7bname: sale, data: [\x7bvalues: \x7b\x7d\x7d, \x7bvalues: \x7b\x7d\x7d]\x7d]"

/-- The sales are reported in their order. -/
theorem runFile_reports_priceList : ∃ session warnings results s' elements,
    session? {} [] "sale.yaml" (some priceList) = some (session, warnings) ∧
      Session.runSuite session = (.done results, s') ∧
      results.map (fun t => (t.status, t.row)) = [(.passed, some 0), (.passed, some 1)] ∧
      (runFile {} [] "sale.yaml" (some priceList)).code = 0 ∧
      Json.read (runFile {} [] "sale.yaml" (some priceList)).printed = .ok (.list elements) ∧
      List.Forall₂ TestResult.Told results elements := by
  obtain ⟨session, warnings, results, s', hsession, hrun, hresults⟩ :
      ∃ session warnings results s',
        session? {} [] "sale.yaml" (some priceList) = some (session, warnings) ∧
          Session.runSuite session = (.done results, s') ∧
          results.map glance =
            [((.passed, some 0), 0, true, 0), ((.passed, some 1), 0, true, 0)] :=
    exists_run (by decide +kernel)
  have hsales : ∀ t ∈ results, t.status = .passed ∧ t.steps = [] ∧ t.error = none ∧
      t.softErrors = [] ∧ ∀ i ∈ t.row, Number.isShort i = true := by
    intro t ht
    have hmem : glance t ∈ results.map glance := List.mem_map_of_mem ht
    rw [hresults] at hmem
    simp only [glance, List.mem_cons, Prod.mk.injEq, List.not_mem_nil, or_false,
      List.length_eq_zero_iff, Option.isNone_iff_eq_none] at hmem
    rcases hmem with ⟨⟨hstatus, hrow⟩, hsteps, herror, hsoft⟩ |
      ⟨⟨hstatus, hrow⟩, hsteps, herror, hsoft⟩
    all_goals
      refine ⟨hstatus, hsteps, herror, hsoft, ?_⟩
      rw [hrow]
      rintro _ ⟨⟩
      decide
  have hreportable : ∀ t ∈ results, t.Reportable := by
    intro t ht
    obtain ⟨-, hsteps, -, hsoft, hrow⟩ := hsales t ht
    exact ⟨hrow, by rw [hsteps]; exact nofun, by rw [hsoft]; exact nofun⟩
  obtain ⟨hprinted, -⟩ := runFile_reports hsession hrun rfl
  obtain ⟨hwhole, hreport⟩ := hprinted results rfl
  obtain ⟨-, hgreen, hread⟩ := hreport (hwhole.mpr hreportable)
  obtain ⟨elements, hread, htold⟩ := hread fun t ht d hd =>
    absurd hd (not_holds_record (hsales t ht).2.1 (hsales t ht).2.2.1 (hsales t ht).2.2.2.1)
  refine ⟨session, warnings, results, s', elements, hsession, hrun, ?_,
    hgreen.mpr fun t ht => .inl (hsales t ht).1, hread, htold⟩
  have hfirst := congrArg (List.map Prod.fst) hresults
  rwa [List.map_map] at hfirst

/-- A table of the visitors on a day. -/
def calendar : String :=
  "tests: [\x7bname: visit, steps: [\x7bid: ask, type: logic_object, params: " ++
    "\x7bJSON: \x7b2024-01-01: 1\x7d\x7d\x7d]\x7d]"

/-- A visit passes, but nothing is printed, and the exit code says that something failed: days are
no keys in JSON. -/
theorem calendar_is_not_reported : ∃ session warnings results s',
    session? {} [] "visits.yaml" (some calendar) = some (session, warnings) ∧
      Session.runSuite session = (.done results, s') ∧
      results.map (fun t => (t.testName, t.status)) = [("visit", .passed)] ∧
      (runFile {} [] "visits.yaml" (some calendar)).code = 1 ∧
      (runFile {} [] "visits.yaml" (some calendar)).printed = "" := by
  obtain ⟨session, warnings, results, s', hsession, hrun, hresults⟩ :
      ∃ session warnings results s',
        session? {} [] "visits.yaml" (some calendar) = some (session, warnings) ∧
          Session.runSuite session = (.done results, s') ∧
          (results.map (fun t => (t.testName, t.status)),
            (Json.report "  " (.list (results.map TestResult.record))).isOk) =
            ([("visit", .passed)], false) :=
    exists_run (by decide +kernel)
  obtain ⟨hstatus, hreport⟩ := Prod.mk.inj hresults
  obtain ⟨f, hlost⟩ : ∃ f, runFile {} [] "visits.yaml" (some calendar) = lost warnings f := by
    rw [runFile_eq hsession, hrun]
    rcases reported_cases warnings results with ⟨json, hjson, -⟩ | ⟨-, hlost⟩
    · rw [hjson] at hreport
      cases hreport
    · exact hlost
  rw [hlost]
  exact ⟨session, warnings, results, s', hsession, hrun, hstatus, rfl, rfl⟩

end CommandLine

end BlockSuite
