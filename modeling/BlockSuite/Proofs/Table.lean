import BlockSuite.Proofs.Arguments
import BlockSuite.Proofs.Lines
import BlockSuite.Proofs.Range
import BlockSuite.Proofs.Step

/-!
Tables in text. The JSON texts of scalars make the cells of a row, and rows make lines. A table that
is written so is read again, row by row and under its headers, unless a text in it holds one of the
three ends of lines that JSON does not escape: such a text is torn, and more rows are read than were
written.
-/

namespace BlockSuite

/-- Characters that end a line and that JSON writes as they are: a next line, a line separator and a
paragraph separator. -/
def Text.isBareEnd (c : Char) : Bool := c.toNat == 0x85 || c.toNat == 0x2028 || c.toNat == 0x2029

/-- A scalar whose JSON is one line. -/
def Value.OneLine : Value → Prop
  | .text s => ∀ c ∈ s.toList, Text.isBareEnd c = false
  | _ => True

namespace Library

open Text (Filled Torn isBareEnd isBlank isLineEnd)

/-- The text of a row: the JSON of its values, with commas between them. -/
def rowText (row : List Value) : Except Fault String := do
  return ", ".intercalate (← row.mapM Value.toJson)

/-- The text of a table, a line for each row. -/
def tableText (rows : List (List Value)) : Except Fault String := do
  return "\n".intercalate (← rows.mapM rowText)

/-- A row under the headers, named by its position. -/
def namedRow (headers : List String) (i : ℕ) (row : List Value) : Value :=
  .record [("name", .text ("Row " ++ Nat.repr (i + 1))), ("values", .record (headers.zip row))]

variable {c d : Char} {s : String} {v : Value} {row : List Value}

/-! ### Cells -/

/-- A character stands for itself, or its escape does not end a line. -/
lemma escape_cases (c : Char) : Json.escape c = [c] ∧ 0x20 ≤ c.toNat ∨
    (Json.escape c).all (!isLineEnd ·) = true := by
  have hcontrol : ∀ n < 0x20, (hexText 4 n).toList.all (!isLineEnd ·) = true := by decide +kernel
  unfold Json.escape
  split
  case h_6 =>
    split
    · exact .inr rfl
    split
    · exact .inr rfl
    split
    · next hlow =>
      refine .inr ?_
      rw [List.all_cons, List.all_cons, hcontrol _ hlow]
      rfl
    · next hhigh => exact .inl ⟨rfl, Nat.le_of_not_lt hhigh⟩
  all_goals exact .inr rfl

/-- No end of a line is left by escapes, but for those that stand for themselves. -/
lemma bare_of_mem_escape (h : d ∈ Json.escape c) (hend : isLineEnd d = true) :
    d = c ∧ isBareEnd d = true := by
  rcases escape_cases c with ⟨hself, hhigh⟩ | hnone
  · rw [hself] at h
    obtain rfl := List.mem_singleton.mp h
    refine ⟨rfl, ?_⟩
    simp only [isLineEnd, Bool.or_eq_true, Bool.and_eq_true, decide_eq_true_eq,
      beq_iff_eq] at hend
    simp only [isBareEnd, Bool.or_eq_true, beq_iff_eq]
    omega
  · have hd := List.all_eq_true.mp hnone d h
    rw [hend] at hd
    cases hd

/-- The three ends of lines stand for themselves. -/
lemma escape_of_bare (h : isBareEnd c = true) : Json.escape c = [c] := by
  have hcode : c.toNat = 0x85 ∨ c.toNat = 0x2028 ∨ c.toNat = 0x2029 := by
    simpa [isBareEnd, or_assoc] using h
  unfold Json.escape
  split
  case h_6 => rw [if_neg (by omega), if_neg (by omega), if_neg (by omega)]
  all_goals exact absurd h (by decide)

lemma isLineEnd_of_bare (h : isBareEnd c = true) : isLineEnd c = true := by
  have hcode : c.toNat = 0x85 ∨ c.toNat = 0x2028 ∨ c.toNat = 0x2029 := by
    simpa [isBareEnd, or_assoc] using h
  simp only [isLineEnd, Bool.or_eq_true, beq_iff_eq]
  tauto

/-- What is written in a cell of a table for a value, which is read as the value. It has one line if
the value has, and is torn if not. -/
structure Cell (s : String) (v : Value) : Prop where
  item : Arguments.Item s v
  filled : Filled s.toList
  ends : ∀ c ∈ s.toList, isLineEnd c = true → isBareEnd c = true
  whole : v.OneLine → ∀ c ∈ s.toList, isLineEnd c = false
  torn : ¬v.OneLine → Torn s.toList

lemma Cell.of_unended (item : Arguments.Item s v) (oneLine : v.OneLine) (filled : Filled s.toList)
    (unended : s.toList.all (!isLineEnd ·) = true) : Cell s v := by
  have hnone : ∀ c ∈ s.toList, isLineEnd c = false := fun c hc => by
    simpa using List.all_eq_true.mp unended c hc
  refine ⟨item, filled, fun c hc hend => ?_, fun _ => hnone, fun hmany => absurd oneLine hmany⟩
  rw [hnone c hc] at hend
  cases hend

/-- A text is torn by an end of a line in it, between its quotation marks. -/
lemma cell_text {t : String} (item : Arguments.Item (Json.ofText t) (.text t)) :
    Cell (Json.ofText t) (.text t) := by
  have hquote : isBlank '"' = false := by decide
  have hlist := Json.toList_ofText t
  have hends : ∀ c ∈ (Json.ofText t).toList, isLineEnd c = true →
      c ∈ t.toList ∧ isBareEnd c = true := by
    intro c hc hend
    have hne : c ≠ '"' := by
      rintro rfl
      cases hend
    have hbody : c ∈ t.toList.flatMap Json.escape := by
      simpa [hlist, hne] using hc
    obtain ⟨d, hd, hcd⟩ := List.mem_flatMap.mp hbody
    obtain ⟨rfl, hbare⟩ := bare_of_mem_escape hcd hend
    exact ⟨hd, hbare⟩
  refine ⟨item, ⟨'"', by simp [hlist], hquote⟩, fun c hc hend => (hends c hc hend).2,
    fun oneLine c hc => ?_, fun hmany => ?_⟩
  · by_contra hend
    obtain ⟨hmem, hbare⟩ := hends c hc (by simpa using hend)
    rw [oneLine c hmem] at hbare
    cases hbare
  · obtain ⟨c, hc, hbare⟩ : ∃ c ∈ t.toList, isBareEnd c = true := by
      simpa [Value.OneLine] using hmany
    have hmem : c ∈ t.toList.flatMap Json.escape :=
      List.mem_flatMap.mpr ⟨c, hc, by simp [escape_of_bare hbare]⟩
    obtain ⟨front, back, hsplit⟩ := List.append_of_mem hmem
    refine ⟨'"' :: front, c, back ++ ['"'], by rw [hlist, hsplit]; simp, isLineEnd_of_bare hbare,
      ⟨'"', by simp, hquote⟩, ⟨'"', by simp, hquote⟩⟩

/-- **The JSON of a scalar is a cell**, if there is no comma in it. -/
lemma exists_cell (h : v.Scalar) (hcomma : ∀ s, v.toJson = .ok s → ',' ∉ s.toList) :
    ∃ s, v.toJson = .ok s ∧ Cell s v := by
  obtain ⟨s, hs, hread⟩ := h.portable.read_toJson
  have hitem : Arguments.Item s v := ⟨hread, hcomma s hs⟩
  refine ⟨s, hs, ?_⟩
  cases h with
  | null =>
    obtain rfl : "null" = s := Except.ok.inj hs
    exact .of_unended hitem trivial ⟨'n', by decide, by decide⟩ rfl
  | bool b =>
    obtain rfl : (if b then "true" else "false") = s := Except.ok.inj hs
    cases b
    · exact .of_unended hitem trivial ⟨'f', by decide, by decide⟩ rfl
    · exact .of_unended hitem trivial ⟨'t', by decide, by decide⟩ rfl
  | @int i short =>
    have hspelled : String.ofList (Number.spelled i) = s :=
      Except.ok.inj ((Number.intText_short short).symm.trans hs)
    have hlist : s.toList = Number.spelled i := by rw [← hspelled, String.toList_ofList]
    have hblank : ∀ c ∈ s.toList, isBlank c = false := fun c hc =>
      Number.isBlank_of_mem_spelled (hlist ▸ hc)
    obtain ⟨c, hc⟩ := List.exists_mem_of_ne_nil _ (hlist ▸ Number.spelled_ne_nil i)
    refine .of_unended hitem trivial ⟨c, hc, hblank c hc⟩ (List.all_eq_true.mpr fun d hd => ?_)
    by_contra hend
    have hd' := Text.isBlank_of_isLineEnd (by simpa using hend)
    rw [hblank d hd] at hd'
    cases hd'
  | text t =>
    obtain rfl : Json.ofText t = s := Except.ok.inj hs
    exact cell_text hitem

/-! ### Rows -/

/-- Items that have results one by one have them together. -/
lemma exists_mapM_forall₂ {α β ε : Type} {f : α → Except ε β} {P : β → α → Prop} {xs : List α}
    (h : ∀ x ∈ xs, ∃ y, f x = .ok y ∧ P y x) :
    ∃ ys, xs.mapM f = .ok ys ∧ List.Forall₂ P ys xs := by
  induction xs with
  | nil => exact ⟨[], rfl, .nil⟩
  | cons x xs ih =>
    obtain ⟨y, hy, hP⟩ := h x List.mem_cons_self
    obtain ⟨ys, hys, hall⟩ := ih fun x hx => h x (List.mem_cons_of_mem _ hx)
    refine ⟨y :: ys, ?_, .cons hP hall⟩
    rw [List.mapM_cons, hy, hys]
    rfl

/-- What is written in a line of a table for a row, which is read as the row if it is one line. It is
torn if a value is. -/
structure Line (s : String) (row : List Value) : Prop where
  cells : (Text.splitAt ',' s).map Arguments.decodeItem = row
  filled : Filled s.toList
  ends : ∀ c ∈ s.toList, isLineEnd c = true → isBareEnd c = true
  whole : (∀ v ∈ row, v.OneLine) → ∀ c ∈ s.toList, isLineEnd c = false
  torn : ¬(∀ v ∈ row, v.OneLine) → Torn s.toList

lemma Line.noReturn (h : Line s row) : '\r' ∉ s.toList := by
  intro hmem
  have hbare := h.ends _ hmem rfl
  cases hbare

lemma line_cells {items : List String} (h : List.Forall₂ Cell items row) :
    (Text.splitAt ',' (", ".intercalate items)).map Arguments.decodeItem = row ∨ items = [] := by
  cases h with
  | nil => exact .inr rfl
  | @cons s v items row hs hitems =>
    have hall : List.Forall₂ Arguments.Item items row := hitems.imp fun _ _ h => h.item
    rw [Text.splitAt_intercalate hs.item.whole (Arguments.whole_all hall), List.map_cons,
      Arguments.decodeItem_ok hs.item.read, Arguments.decodeItem_all hall]
    exact .inl rfl

/-- A character of joined texts is one of a text, or of what joins them. -/
lemma mem_intercalate {items : List String} (h : c ∈ (", ".intercalate items).toList) :
    c = ',' ∨ c = ' ' ∨ ∃ s ∈ items, c ∈ s.toList := by
  have hsep : ", ".toList = [',', ' '] := by simp
  rw [String.toList_intercalate, hsep] at h
  by_contra hnone
  push Not at hnone
  obtain ⟨hcomma, hspace, hitems⟩ := hnone
  exact Text.not_mem_intercalate (by simp [hcomma, hspace]) (List.forall_mem_map.mpr hitems) h

/-- A text stands in what it is joined to. -/
lemma infix_intercalate {items : List String} (h : s ∈ items) :
    s.toList <:+: (", ".intercalate items).toList := by
  have hsep : ", ".toList = [',', ' '] := by simp
  rw [String.toList_intercalate, hsep]
  exact Json.infix_joined (List.mem_map_of_mem h)

/-- **Cells make a line.** -/
lemma line_of_cells {items : List String} (h : List.Forall₂ Cell items row) (hne : row ≠ []) :
    Line (", ".intercalate items) row := by
  have hcell : ∀ s ∈ items, ∃ v ∈ row, Cell s v := Step.exists_of_forall₂ h.flip
  have hitem : ∀ v ∈ row, ∃ s ∈ items, Cell s v := Step.exists_of_forall₂ h
  obtain ⟨v, hv⟩ := List.exists_mem_of_ne_nil _ hne
  obtain ⟨s, hs, hsv⟩ := hitem v hv
  have hends : ∀ c ∈ (", ".intercalate items).toList, isLineEnd c = true →
      ∃ s ∈ items, c ∈ s.toList := by
    intro c hc hend
    rcases mem_intercalate hc with rfl | rfl | hmem
    · cases hend
    · cases hend
    · exact hmem
  refine ⟨(line_cells h).resolve_right (List.ne_nil_of_mem hs),
    hsv.filled.of_piece (infix_intercalate hs), fun c hc hend => ?_, fun oneLine c hc => ?_,
    fun hmany => ?_⟩
  · obtain ⟨s, hs, hcs⟩ := hends c hc hend
    obtain ⟨v, -, hsv⟩ := hcell s hs
    exact hsv.ends c hcs hend
  · by_contra hend
    obtain ⟨s, hs, hcs⟩ := hends c hc (by simpa using hend)
    obtain ⟨v, hv, hsv⟩ := hcell s hs
    exact hend (hsv.whole (oneLine v hv) c hcs)
  · push Not at hmany
    obtain ⟨v, hv, hmany⟩ := hmany
    obtain ⟨s, hs, hsv⟩ := hitem v hv
    exact (hsv.torn hmany).of_piece (infix_intercalate hs)

/-- Rows of scalars make lines. -/
lemma exists_line (hne : row ≠ []) (scalars : ∀ v ∈ row, v.Scalar)
    (hcomma : ∀ v ∈ row, ∀ s, v.toJson = .ok s → ',' ∉ s.toList) :
    ∃ s, rowText row = .ok s ∧ Line s row := by
  obtain ⟨items, hitems, hcells⟩ :=
    exists_mapM_forall₂ fun v hv => exists_cell (scalars v hv) (hcomma v hv)
  refine ⟨_, ?_, line_of_cells hcells hne⟩
  rw [rowText, hitems]
  rfl

/-! ### Tables -/

variable {headers : List String} {rows : List (List Value)} {ls : List String}

/-- Headers that are trimmed and have no commas are cut apart again. -/
lemma headers_cut (hne : headers ≠ []) (trimmed : ∀ h ∈ headers, Text.trim h = h)
    (hcomma : ∀ h ∈ headers, ',' ∉ h.toList) :
    (Text.splitAt ',' (", ".intercalate headers)).map Text.trim = headers := by
  obtain ⟨h, rest, rfl⟩ := List.exists_cons_of_ne_nil hne
  obtain ⟨hfirst, hrest⟩ := List.forall_mem_cons.mp hcomma
  obtain ⟨htrim, htrims⟩ := List.forall_mem_cons.mp trimmed
  have hspace : ∀ t ∈ rest, Text.trim (String.ofList (' ' :: t.toList)) = t := by
    intro t ht
    have hdrop : Text.trimChars (' ' :: t.toList) = Text.trimChars t.toList := by
      simp [Text.trimChars, Text.trimLeft_cons, Text.isBlank]
    rw [Text.trim, String.toList_ofList, hdrop, ← Text.trim, htrims t ht]
  rw [Text.splitAt_intercalate hfirst hrest, List.map_cons, htrim, List.map_map]
  congr 1
  exact (List.map_congr_left hspace).trans (List.map_id rest)

/-- A row with a value for each header binds the headers to the values. -/
lemma tableValues_eq (distinct : headers.Nodup) (h : row.length = headers.length) :
    tableValues headers row = headers.zip row := by
  have hzip (more : List Value) : headers.zip (row ++ more) = headers.zip row := by
    have happend : (headers ++ []).zip (row ++ more) = headers.zip row ++ [].zip more :=
      List.zip_append h.symm
    rwa [List.append_nil, List.zip_nil_left, List.append_nil] at happend
  have hkeys : Dict.keys (headers.zip row) = headers := List.map_fst_zip h.ge
  rw [tableValues, hzip, Dict.ofPairs_of_nodup (hkeys.symm ▸ distinct)]

/-- A table has a row for each line that is not blank. -/
lemma length_tableRows (names text : String) :
    (tableRows names text).length = Text.filledLines text.toList := by
  have hblank (l : List Char) : Text.isBlankText (String.ofList l) = l.all isBlank := by
    rw [Text.isBlankText, String.toList_ofList]
  rw [tableRows, List.length_zipWith, List.length_range, min_self, Text.lines, List.filter_map,
    List.length_map, ← List.countP_eq_length_filter, Text.filledLines]
  simp only [Function.comp_def, hblank]

/-- **Lines that are whole make the table that they were written for.** -/
lemma tableRows_eq {names : String} (h : List.Forall₂ Line ls rows)
    (hnames : (Text.splitAt ',' names).map Text.trim = headers) (distinct : headers.Nodup)
    (fits : ∀ row ∈ rows, row.length = headers.length)
    (oneLine : ∀ row ∈ rows, ∀ v ∈ row, v.OneLine) :
    tableRows names ("\n".intercalate ls) = rows.mapIdx (namedRow headers) := by
  have hline : ∀ l ∈ ls, ∃ row ∈ rows, Line l row := Step.exists_of_forall₂ h.flip
  have hfilled : ∀ l ∈ ls, Text.isBlankText l = false := fun l hl => by
    obtain ⟨row, -, hrow⟩ := hline l hl
    obtain ⟨c, hc, hblank⟩ := hrow.filled
    exact List.all_eq_false.mpr ⟨c, hc, by simp [hblank]⟩
  have hlines : Text.lines ("\n".intercalate ls) = ls := by
    refine Text.lines_intercalate (fun l hl heq => ?_) fun l hl => ?_
    · have hl := hfilled l hl
      rw [Text.isBlankText, heq] at hl
      cases hl
    · obtain ⟨row, hrow, hl⟩ := hline l hl
      exact hl.whole (oneLine row hrow)
  have hall : ls.filter (!Text.isBlankText ·) = ls :=
    List.filter_eq_self.mpr fun l hl => by simp [hfilled l hl]
  rw [tableRows, hlines, hall, hnames]
  refine List.ext_getElem (by simp [h.length_eq]) fun i hi _ => ?_
  have hlength : i < ls.length := by simpa using hi
  have hrow : i < rows.length := h.length_eq ▸ hlength
  have hcells := ((List.forall₂_iff_get.mp h).2 i hlength hrow).cells
  rw [List.get_eq_getElem, List.get_eq_getElem] at hcells
  have hvalues := tableValues_eq distinct (fits rows[i] (List.getElem_mem hrow))
  simp only [List.getElem_zipWith, List.getElem_range, List.getElem_mapIdx, hcells, hvalues,
    namedRow]

/-- A line that is torn makes more than one row. -/
lemma more_rows (h : List.Forall₂ Line ls rows) (hmany : ∃ row ∈ rows, ∃ v ∈ row, ¬v.OneLine)
    (names : String) : rows.length < (tableRows names ("\n".intercalate ls)).length := by
  have hline : ∀ l ∈ ls, ∃ row ∈ rows, Line l row := Step.exists_of_forall₂ h.flip
  have hreturn : ∀ cs ∈ ls.map String.toList, '\r' ∉ cs := List.forall_mem_map.mpr fun l hl => by
    obtain ⟨row, -, hrow⟩ := hline l hl
    exact hrow.noReturn
  have hfilled : ∀ cs ∈ ls.map String.toList, Filled cs := List.forall_mem_map.mpr fun l hl => by
    obtain ⟨row, -, hrow⟩ := hline l hl
    exact hrow.filled
  have htorn : ∃ cs ∈ ls.map String.toList, Torn cs := by
    obtain ⟨row, hrow, v, hv, hmany⟩ := hmany
    obtain ⟨l, hl, hline⟩ := Step.exists_of_forall₂ h row hrow
    exact ⟨_, List.mem_map_of_mem hl, hline.torn fun hone => hmany (hone v hv)⟩
  have hmore := (Text.filledLines_intercalate hreturn hfilled).2 htorn
  have hfeed : "\n".toList = ['\n'] := by simp
  rwa [List.length_map, h.length_eq, ← hfeed, ← String.toList_intercalate,
    ← length_tableRows names] at hmore

/-- The block does nothing but cut the table. -/
lemma table_run {params : Dict Value} {names text : String}
    (hnames : params.get? "HEADERS" = some (.text names))
    (htext : params.get? "ROWS" = some (.text text)) (c : Context) :
    table.executor params c = (.done (.value (.list (tableRows names text))), c) := by
  have hneed {key s : String} (h : params.get? key = some (.text s)) :
      needText params key c = (.done s, c) := by
    rw [needText, Action.bind_of_done (need_run h c)]
    rfl
  change (needText params "HEADERS" >>= _) c = _
  rw [Action.bind_of_done (hneed hnames), Action.bind_of_done (hneed htext)]
  rfl

/-- **A table is read as it was written, just if every text in it is one line.** The lines of a table
are the JSON texts of scalars between commas, one scalar for each header. If one of the texts holds
an end of a line that JSON leaves as it is, more rows are read than were written. -/
theorem tables_are_read_iff (hne : headers ≠ []) (distinct : headers.Nodup)
    (proper : ∀ h ∈ headers, Text.trim h = h ∧ ',' ∉ h.toList)
    (scalars : ∀ row ∈ rows, ∀ v ∈ row, v.Scalar)
    (fits : ∀ row ∈ rows, row.length = headers.length)
    (hcomma : ∀ row ∈ rows, ∀ v ∈ row, ∀ s, v.toJson = .ok s → ',' ∉ s.toList) :
    ∃ text, tableText rows = .ok text ∧
      ∀ params : Dict Value, params.get? "HEADERS" = some (.text (", ".intercalate headers)) →
        params.get? "ROWS" = some (.text text) →
        ∃ output, (∀ c, table.executor params c = (.done (.value (.list output)), c)) ∧
          (output = rows.mapIdx (namedRow headers) ↔ ∀ row ∈ rows, ∀ v ∈ row, v.OneLine) ∧
          ((∃ row ∈ rows, ∃ v ∈ row, ¬v.OneLine) → rows.length < output.length) := by
  have hrow : ∀ row ∈ rows, ∃ s, rowText row = .ok s ∧ Line s row := fun row hrow => by
    refine exists_line (fun hnil => hne ?_) (scalars row hrow) (hcomma row hrow)
    exact List.length_eq_zero_iff.mp (by rw [← fits row hrow, hnil]; rfl)
  obtain ⟨ls, hls, hlines⟩ := exists_mapM_forall₂ hrow
  refine ⟨"\n".intercalate ls, by rw [tableText, hls]; rfl, fun params hheaders hrows => ?_⟩
  have hnames := headers_cut hne (fun h hh => (proper h hh).1) fun h hh => (proper h hh).2
  refine ⟨_, table_run hheaders hrows, ⟨fun heq => ?_, fun oneLine => ?_⟩,
    fun hmany => more_rows hlines hmany _⟩
  · by_contra hmany
    push Not at hmany
    have hlength := more_rows hlines hmany (", ".intercalate headers)
    rw [heq, List.length_mapIdx] at hlength
    exact Nat.lt_irrefl _ hlength
  · exact tableRows_eq hlines hnames distinct fits oneLine

/-- A table of two orders. -/
def orders : List (List Value) := [[.text "lamp", .int 2], [.null, .bool true]]

theorem tables_are_read_iff_orders :
    (∀ row ∈ orders, ∀ v ∈ row, v.Scalar) ∧ (∀ row ∈ orders, ∀ v ∈ row, v.OneLine) ∧
      tableText orders = .ok "\"lamp\", 2\nnull, true" ∧
      ∀ c, table.executor
        [("HEADERS", .text "item, pieces"), ("ROWS", .text "\"lamp\", 2\nnull, true")] c =
          (.done (.value (.list (orders.mapIdx (namedRow ["item", "pieces"])))), c) := by
  have hvalues {P : Value → Prop} (hlamp : P (.text "lamp")) (htwo : P (.int 2)) (hnull : P .null)
      (htrue : P (.bool true)) : ∀ row ∈ orders, ∀ v ∈ row, P v := by
    simp [orders, hlamp, htwo, hnull, htrue]
  have hscalars : ∀ row ∈ orders, ∀ v ∈ row, v.Scalar :=
    hvalues (.text _) (.int rfl) .null (.bool _)
  have hlamp : ∀ c ∈ "lamp".toList, isBareEnd c = false := by simp [isBareEnd]
  have hlines : ∀ row ∈ orders, ∀ v ∈ row, v.OneLine := hvalues hlamp trivial trivial trivial
  have hcomma : ∀ row ∈ orders, ∀ v ∈ row, ∀ s, v.toJson = .ok s → ',' ∉ s.toList := by
    have hnone (v : Value) (w : String) (hw : v.toJson = .ok w) (hcomma : ',' ∉ w.toList) (s : String)
        (hs : v.toJson = .ok s) : ',' ∉ s.toList := Except.ok.inj (hw.symm.trans hs) ▸ hcomma
    exact hvalues (hnone _ (Json.ofText "lamp") rfl (by decide)) (hnone _ "2" rfl (by decide))
      (hnone _ "null" rfl (by decide)) (hnone _ "true" rfl (by decide))
  have htext : tableText orders = .ok "\"lamp\", 2\nnull, true" := by cbv
  obtain ⟨text, hwritten, hread⟩ := tables_are_read_iff
    (List.cons_ne_nil "item" ["pieces"]) (by decide) (by decide) hscalars (by decide) hcomma
  obtain rfl := Except.ok.inj (htext.symm.trans hwritten)
  obtain ⟨output, hrun, hiff, -⟩ := hread
    [("HEADERS", .text "item, pieces"), ("ROWS", .text "\"lamp\", 2\nnull, true")] rfl rfl
  rw [hiff.mpr hlines] at hrun
  exact ⟨hscalars, hlines, htext, hrun⟩

/-- A text with a line separator in it makes two rows. -/
theorem torn_note_makes_rows : tableText [[.text "a\u2028b"]] = .ok "\"a\u2028b\"" ∧
    ∀ c, table.executor [("HEADERS", .text "note"), ("ROWS", .text "\"a\u2028b\"")] c =
      (.done (.value (.list [namedRow ["note"] 0 [.text "\"a"], namedRow ["note"] 1 [.text "b\""]])),
        c) := by
  have hrows : tableRows "note" "\"a\u2028b\"" =
      [namedRow ["note"] 0 [.text "\"a"], namedRow ["note"] 1 [.text "b\""]] := by cbv
  refine ⟨by cbv, fun c => ?_⟩
  rw [table_run rfl rfl, hrows]

end Library

end BlockSuite
