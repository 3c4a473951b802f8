import BlockSuite.Proofs.Arguments

/-!
Blanks around the text of a call's arguments. They are dropped around each item of a text that is no
JSON, and JSON skips its own blanks, but a text that only other blanks keep from being JSON is cut
at its commas, and a text of nothing but blanks is an argument itself. So the blanks around a text
matter just where they turn a list, a mapping or a scalar with a comma into items, or are all there
is.
-/

namespace BlockSuite

namespace Text

variable {front back cs : List Char}

lemma trimChars_trimRight (cs : List Char) : trimChars (trimRight cs) = trimChars cs := by
  obtain ⟨back, hback, hcs⟩ := exists_trimRight cs
  have hnone : ∀ c ∈ ([] : List Char), isBlank c = true := nofun
  have hmargins := trimChars_margins hnone hback (trimRight cs)
  rw [List.nil_append, ← hcs] at hmargins
  exact hmargins.symm

lemma trimRight_cons {ds : List Char} (h : trimRight cs = trimRight ds) (c : Char) :
    trimRight (c :: cs) = trimRight (c :: ds) := by
  obtain ⟨back, hback, hcs⟩ := exists_trimRight cs
  obtain ⟨back', hback', hds⟩ := exists_trimRight ds
  rw [hcs, hds, ← List.cons_append, ← List.cons_append, trimRight_append hback,
    trimRight_append hback', h]

lemma splitChars_cons {c sep : Char} (h : c ≠ sep) (cs : List Char) :
    ∃ piece rest, splitChars sep cs = piece :: rest ∧
      splitChars sep (c :: cs) = (c :: piece) :: rest := by
  cases hpieces : splitChars sep cs with
  | nil => exact absurd hpieces (splitChars_ne_nil _ _)
  | cons piece rest => exact ⟨piece, rest, rfl, by rw [splitChars, if_neg h, hpieces]⟩

/-- Blanks in front of a text belong to its first piece. -/
lemma splitChars_front (h : ∀ c ∈ front, isBlank c = true) (cs : List Char) :
    (splitChars ',' (front ++ cs)).map trimLeft = (splitChars ',' cs).map trimLeft := by
  induction front with
  | nil => rfl
  | cons c front ih =>
    have hc : isBlank c = true := h c List.mem_cons_self
    have hne : c ≠ ',' := by rintro rfl; cases hc
    obtain ⟨piece, rest, hpieces, hcons⟩ := splitChars_cons hne (front ++ cs)
    rw [List.cons_append, hcons, ← ih fun d hd => h d (List.mem_cons_of_mem _ hd), hpieces,
      List.map_cons, List.map_cons, trimLeft_cons, if_pos hc]

/-- Blanks behind a text belong to its last piece. -/
lemma splitChars_back (h : ∀ c ∈ back, isBlank c = true) (cs : List Char) :
    (splitChars ',' (cs ++ back)).map trimRight = (splitChars ',' cs).map trimRight := by
  induction cs with
  | nil =>
    have hcomma : ',' ∉ back := fun hmem => by cases h ',' hmem
    rw [List.nil_append, splitChars_of_not_mem hcomma]
    exact congrArg (fun ds => [ds]) (trimRight_append h [])
  | cons c cs ih =>
    by_cases hc : c = ','
    · subst hc
      rw [List.cons_append, splitChars, if_pos rfl, splitChars, if_pos rfl, List.map_cons, ih]
      rfl
    · obtain ⟨piece, rest, hpieces, hcons⟩ := splitChars_cons hc cs
      obtain ⟨piece', rest', hpieces', hcons'⟩ := splitChars_cons hc (cs ++ back)
      rw [hpieces, hpieces', List.map_cons, List.map_cons] at ih
      obtain ⟨hpiece, hrest⟩ := List.cons.inj ih
      rw [List.cons_append, hcons, hcons', List.map_cons, List.map_cons, hrest,
        trimRight_cons hpiece]

/-- The pieces of a text are trimmed to those of the trimmed text. -/
lemma splitChars_trim (cs : List Char) :
    (splitChars ',' cs).map trimChars = (splitChars ',' (trimChars cs)).map trimChars := by
  have hleft (css : List (List Char)) : css.map trimChars = (css.map trimLeft).map trimRight := by
    rw [List.map_map]
    rfl
  have hright (css : List (List Char)) : css.map trimChars = (css.map trimRight).map trimChars := by
    rw [List.map_map]
    exact List.map_congr_left fun ds _ => (trimChars_trimRight ds).symm
  obtain ⟨front, back, h⟩ := exists_framed cs
  calc (splitChars ',' cs).map trimChars
      = (splitChars ',' (front ++ (trimChars cs ++ back))).map trimChars := by rw [← h.eq]
    _ = (splitChars ',' (trimChars cs ++ back)).map trimChars := by
      rw [hleft, splitChars_front h.front, ← hleft]
    _ = (splitChars ',' (trimChars cs)).map trimChars := by
      rw [hright, splitChars_back h.back, ← hright]

end Text

/-- To a procedure two values are alike as arguments: they bind the same, or are both refused
because there are too many. -/
def Procedure.TakesAlike (p : Procedure) (v w : Value) : Prop :=
  (∃ bound, p.arguments v = .ok bound ∧ p.arguments w = .ok bound) ∨
    ∃ message message', p.arguments v = .error (.of .unresolved message) ∧
      p.arguments w = .error (.of .unresolved message')

namespace Arguments

variable {v w : Value} {xs ys : List Value} {t : String}

/-! ### Items -/

/-- The items of a text that is no JSON. -/
def items (t : String) : List Value := (Text.splitAt ',' t).map decodeItem

/-- Blanks around an item are dropped. -/
lemma decodeItem_trim (cs : List Char) :
    decodeItem (String.ofList (Text.trimChars cs)) = decodeItem (String.ofList cs) := by
  obtain ⟨front, back, h⟩ := Text.exists_framed cs
  have hidem : Text.trimChars (Text.trimChars cs) = Text.trimChars cs := by
    conv_rhs => rw [h.eq, Text.trimChars_margins h.front h.back]
  have htrim : Text.trim (String.ofList (Text.trimChars cs)) = Text.trim (String.ofList cs) := by
    rw [Text.trim, Text.trim, String.toList_ofList, String.toList_ofList, hidem]
  rw [decodeItem, decodeItem, htrim]

lemma items_eq (cs : List Char) : items (String.ofList cs) =
    ((Text.splitChars ',' cs).map Text.trimChars).map fun ds => decodeItem (String.ofList ds) := by
  rw [items, Text.splitAt, String.toList_ofList, List.map_map, List.map_map]
  refine List.map_congr_left fun ds _ => ?_
  rw [Function.comp_apply, Function.comp_apply, decodeItem_trim]

/-- Blanks around a text do not get into its items. -/
lemma items_trim (t : String) : items (Text.trim t) = items t := by
  have ht := items_eq t.toList
  rw [String.ofList_toList, Text.splitChars_trim t.toList] at ht
  rw [Text.trim, items_eq, ht]

lemma items_of_not_mem (h : ',' ∉ t.toList) : items t = [decodeItem t] := by
  rw [items, Text.splitAt, Text.splitChars_of_not_mem h, List.map_singleton, List.map_singleton,
    String.ofList_toList]

/-- The first item of a text ends at its first comma. -/
lemma items_append {cs : List Char} (h : ',' ∉ cs) (rest : List Char) : ∃ x more,
    items (String.ofList (cs ++ ',' :: rest)) = decodeItem (String.ofList cs) :: x :: more := by
  rw [items, Text.splitAt, String.toList_ofList, Text.splitChars_append h]
  cases hrest : Text.splitChars ',' rest with
  | nil => exact absurd hrest (Text.splitChars_ne_nil _ _)
  | cons ds css => exact ⟨_, _, rfl⟩

lemma items_ne_nil (t : String) : items t ≠ [] := by
  simp [items, Text.splitAt, Text.splitChars_ne_nil]

/-! ### The first item of a list -/

/-- What stands behind the first item of a text: nothing, or a comma. -/
def Cut (tail : List Char) : Prop := tail = [] ∨ ∃ more, tail = ',' :: more

/-- What a text without a comma begins, its first item begins with. -/
lemma prefix_of_cut {cs tail start rest : List Char} (htail : Cut tail) (hstart : ',' ∉ start)
    (h : cs ++ tail = start ++ rest) : ∃ more, cs = start ++ more := by
  rcases List.append_eq_append_iff.mp h with ⟨left, hleft, hrest⟩ | ⟨more, hmore, -⟩
  · cases left with
    | nil => exact ⟨[], by rw [hleft, List.append_nil, List.append_nil]⟩
    | cons c left =>
      rcases htail with hnone | ⟨behind, hcut⟩
      · rw [hnone] at hrest
        cases hrest
      · rw [hcut] at hrest
        obtain ⟨rfl, -⟩ := List.cons.inj hrest
        exact absurd (hleft ▸ List.mem_append_right _ List.mem_cons_self) hstart
  · exact ⟨more, hmore⟩

/-- A character that is no blank is left when the blanks behind a text are dropped. -/
lemma length_lt_of_append {core back start rest : List Char} {c : Char}
    (hback : ∀ d ∈ back, Text.isBlank d = true) (hc : Text.isBlank c = false)
    (h : core ++ back = start ++ c :: rest) : start.length < core.length := by
  have hnot : c ∉ back := Json.not_mem_of_blank hback hc
  rcases List.append_eq_append_iff.mp h with ⟨left, -, hleft⟩ | ⟨more, hmore, hrest⟩
  · rw [hleft] at hnot
    simp at hnot
  · cases more with
    | nil =>
      rw [List.nil_append] at hrest
      exact absurd (hrest ▸ List.mem_cons_self) hnot
    | cons d more =>
      rw [hmore, List.length_append, List.length_cons]
      omega

lemma openings_blank {cs : List Char} (h : ∀ c ∈ cs, Text.isBlank c = true) :
    Json.openings cs = 0 := by
  induction cs with
  | nil => rfl
  | cons c cs ih =>
    have hc : c ≠ '[' := Json.ne_of_isBlank (h c List.mem_cons_self) (by decide)
    rw [Json.openings, ih fun d hd => h d (List.mem_cons_of_mem _ hd), if_neg hc, ite_self]

lemma openings_cut {tail : List Char} (h : Cut tail) : Json.openings tail = 0 := by
  rcases h with rfl | ⟨more, rfl⟩ <;> rfl

/-- The text up to the first comma of a list whose first item is a text is longer than that. -/
lemma length_lt_of_text {fuel : Nat} {cs tail more rest core back : List Char} {u : String}
    (htail : Cut tail) (hcomma : ',' ∉ u.toList) (hback : ∀ d ∈ back, Text.isBlank d = true)
    (hopen : cs ++ tail = '[' :: more) (hcs : cs = core ++ back)
    (hread : Json.readValue fuel (Json.skipSpace more) = .ok (.text u, rest)) :
    u.toList.length < core.length := by
  obtain ⟨fuel, rfl⟩ : ∃ n, fuel = n + 1 := by
    cases fuel with
    | zero => cases hread
    | succ n => exact ⟨n, rfl⟩
  cases Json.readValue_ok hread with
  | bare eq space marks bare => exact absurd rfl (bare.ne_text u)
  | @text behind _ open_eq read =>
    obtain ⟨used, new, hused, hu, hlength, hcommas⟩ := Json.readText_used read
    obtain rfl : u = String.ofList new := by rw [hu]; rfl
    rw [String.toList_ofList] at hcomma ⊢
    -- The text up to the closing quotation mark has no comma, so it is part of the first item.
    have hspaces : ',' ∉ more.takeWhile Json.isSpace := fun hmem => by
      cases List.mem_takeWhile_imp hmem
    have hused' : ',' ∉ used := fun hmem => hcomma (hcommas hmem)
    have hmore : more = more.takeWhile Json.isSpace ++ Json.skipSpace more :=
      List.takeWhile_append_dropWhile.symm
    generalize more.takeWhile Json.isSpace = spaces at hspaces hmore
    have hstart : ',' ∉ '[' :: (spaces ++ '"' :: (used ++ ['"'])) := by simp [hspaces, hused']
    have hquoted : cs ++ tail = '[' :: (spaces ++ '"' :: (used ++ ['"'])) ++ rest := by
      rw [hopen, hmore, open_eq, hused]
      simp
    obtain ⟨left, hleft⟩ := prefix_of_cut htail hstart hquoted
    have hlast : core ++ back = '[' :: (spaces ++ '"' :: used) ++ '"' :: left := by
      rw [← hcs, hleft]
      simp
    have hlong := length_lt_of_append hback (by decide) hlast
    simp only [List.length_cons, List.length_append] at hlong
    omega

/-- **The first item of the text of a list is not the first item of the list**: it begins with as
many lists as the list does, or it is a text that is longer than a first item which is one. -/
theorem decodeItem_ne {cs tail : List Char} {x : Value} (htail : Cut tail) (hcomma : ',' ∉ cs)
    (hhead : ∀ c ∈ (cs ++ tail).head?, Text.isBlank c = false)
    (hread : Json.read (String.ofList (cs ++ tail)) = .ok (.list (x :: xs))) :
    decodeItem (String.ofList cs) ≠ x := by
  have hskip : Json.skipSpace (cs ++ tail) = cs ++ tail := by
    cases heq : cs ++ tail with
    | nil => rfl
    | cons c rest =>
      have hc : Text.isBlank c = false := hhead c (by rw [heq]; rfl)
      refine List.dropWhile_cons_of_neg fun hspace => ?_
      rw [Json.isBlank_of_isSpace hspace] at hc
      cases hc
  obtain ⟨rest, hvalue, -⟩ := Json.read_eq_ok.mp hread
  rw [String.toList_ofList, hskip] at hvalue
  have hnest := Json.readValue_nest hvalue
  cases Json.readValue_ok hvalue with
  | bare eq space marks bare =>
    rcases bare.cases with h | ⟨b, h⟩ | ⟨i, h⟩ | ⟨d, h⟩ <;> cases h
  | @list more _ open_eq read =>
    obtain ⟨y, left, ys, hitem, hxs⟩ := Json.readItems_ok read
    obtain ⟨rfl, -⟩ := List.cons.inj hxs
    obtain ⟨front, back, hframed⟩ := Text.exists_framed cs
    have hcs : cs = Text.trimChars cs ++ back := by
      cases front with
      | nil => exact hframed.eq
      | cons c front =>
        have hc : Text.isBlank c = false := hhead c (by rw [hframed.eq]; rfl)
        rw [hframed.front c List.mem_cons_self] at hc
        cases hc
    have hopenings : x.nest + 1 = Json.openings (Text.trimChars cs) := by
      rw [Json.openings_append (openings_cut htail), hcs,
        Json.openings_append (openings_blank hframed.back)] at hnest
      exact hnest
    rw [decodeItem, Text.trim, String.toList_ofList]
    cases hfirst : Json.read (String.ofList (Text.trimChars cs)) with
    | ok w =>
      rintro (rfl : w = x)
      obtain ⟨end', hw, -⟩ := Json.read_eq_ok.mp hfirst
      have hdepth := Json.readValue_nest hw
      rw [Json.openings_skipSpace, String.toList_ofList, ← hopenings] at hdepth
      exact absurd hdepth (Nat.succ_ne_self _).symm
    | error e =>
      rintro (rfl : .text _ = x)
      have hwhole : ',' ∉ (String.ofList (Text.trimChars cs)).toList := by
        rw [String.toList_ofList]
        exact fun hmem => hcomma ((Text.trimChars_sublist cs).subset hmem)
      have hlong := length_lt_of_text htail hwhole hframed.back open_eq hcs hitem
      rw [String.toList_ofList] at hlong
      exact lt_irrefl _ hlong

/-- The items of the text of a list are not the items of the list. -/
lemma items_ne {cs : List Char} (hhead : ∀ c ∈ cs.head?, Text.isBlank c = false)
    (hread : Json.read (String.ofList cs) = .ok (.list xs)) : items (String.ofList cs) ≠ xs := by
  by_cases hcomma : ',' ∈ cs
  · obtain ⟨before, after, rfl, hbefore⟩ := List.eq_append_cons_of_mem hcomma
    obtain ⟨x, more, hitems⟩ := items_append hbefore after
    rintro rfl
    rw [hitems] at hread
    exact decodeItem_ne (.inr ⟨after, rfl⟩) hbefore hhead hread rfl
  · rintro rfl
    rw [items_of_not_mem (by rwa [String.toList_ofList]), ← List.append_nil cs] at hread
    refine decodeItem_ne (.inl rfl) hcomma (by rwa [List.append_nil]) hread ?_
    rw [List.append_nil]

/-! ### Calls -/

lemma takesAlike_of_eq (h : ofValue v = ofValue w) (p : Procedure) : p.TakesAlike v w := by
  have hsame : p.arguments v = p.arguments w := by rw [Procedure.arguments, h, Procedure.arguments]
  rw [Procedure.TakesAlike, hsame]
  unfold Procedure.arguments
  split
  · exact .inl ⟨_, rfl, rfl⟩
  · exact .inr ⟨_, _, rfl, rfl⟩

/-- A procedure with a number of parameters without defaults, their names being as many letters
long. -/
def plain (n : Nat) : Procedure :=
  ⟨"plain", none,
    (List.range n).map fun i => Param.named (String.ofList (List.replicate (i + 1) 'p')), none, []⟩

lemma plain_length (n : Nat) : (plain n).params.length = n := by simp [plain]

lemma plain_names (n : Nat) : (plain n).paramNames.Nodup := by
  rw [Procedure.paramNames, plain, List.map_map]
  refine List.nodup_range.map fun i j hij => ?_
  have hlength := congrArg (fun s : String => s.toList.length) hij
  simpa [Param.named] using hlength

/-- As many values as parameters are bound to nothing else. -/
lemma plain_bindings (values : List Value) :
    bindings (plain values.length) values = (plain values.length).paramNames.zip values := by
  rw [bindings, List.drop_of_length_le (plain_length _).le]
  exact List.append_nil _

lemma values_of_members {names : List String} {values : List Value}
    (h : values.length ≤ names.length) : (members (names.zip values)).map (·.2) = values := by
  have hsnd : (members (names.zip values)).map (·.2) = (names.zip values).map Prod.snd := by
    rw [members, List.map_map]
    rfl
  rw [hsnd, List.map_snd_zip h]

lemma apart_of_lt (hv : ofValue v = positional xs) (hw : ofValue w = positional ys)
    (hlt : xs.length < ys.length) :
    ¬(plain xs.length).TakesAlike v w ∧ ¬(plain xs.length).TakesAlike w v := by
  have hbound := arguments_positional hv (plain_names xs.length) (plain_length xs.length).ge
  have hrefused := arguments_exceeding (p := plain xs.length) hw (by rwa [plain_length])
  constructor
  · rintro (⟨bound, -, h⟩ | ⟨message, message', h, -⟩)
    · rw [hrefused] at h
      cases h
    · rw [hbound] at h
      cases h
  · rintro (⟨bound, h, -⟩ | ⟨message, message', -, h⟩)
    · rw [hrefused] at h
      cases h
    · rw [hbound] at h
      cases h

/-- Different values by position are told apart by a procedure. -/
lemma exists_apart (hv : ofValue v = positional xs) (hw : ofValue w = positional ys)
    (hne : xs ≠ ys) : ∃ p : Procedure, ¬p.TakesAlike v w := by
  rcases Nat.lt_trichotomy xs.length ys.length with hlt | heq | hgt
  · exact ⟨_, (apart_of_lt hv hw hlt).1⟩
  · refine ⟨plain xs.length, ?_⟩
    have hx := arguments_positional hv (plain_names xs.length) (plain_length xs.length).ge
    have hy := arguments_positional hw (plain_names ys.length) (plain_length ys.length).ge
    rw [plain_bindings] at hx hy
    rw [← heq] at hy
    rintro (⟨bound, h, h'⟩ | ⟨message, message', h, -⟩)
    · have hsame := (Except.ok.inj (hx.symm.trans h)).trans (Except.ok.inj (h'.symm.trans hy))
      have hnames : (plain xs.length).paramNames.length = xs.length := by
        rw [Procedure.paramNames, List.length_map, plain_length]
      have hvalues := congrArg (List.map (·.2)) hsame
      rw [values_of_members hnames.ge, values_of_members (by rw [hnames, heq])] at hvalues
      exact hne hvalues
    · rw [hx] at h
      cases h
  · exact ⟨_, (apart_of_lt hw hv hgt).2⟩

/-- Values by name and by position are told apart by a procedure without parameters. -/
lemma apart_named {es : List (Value × Value)} (hv : ofValue v = named es)
    (hw : ofValue w = positional ys) (hne : ys ≠ []) : ¬(plain 0).TakesAlike w v := by
  have hlength : (plain 0).params.length < ys.length := List.length_pos_iff.mpr hne
  have hrefused := arguments_exceeding hw hlength
  have hbound : (plain 0).arguments v = .ok es := by
    rw [Procedure.arguments, hv]
    rfl
  rintro (⟨bound, h, -⟩ | ⟨message, message', -, h⟩)
  · rw [hrefused] at h
    cases h
  · rw [hbound] at h
    cases h

/-! ### Blanks that do not matter -/

/-- The blanks around a text do not matter: there is no text, or more than blanks, and these are
blanks of JSON, or the text between them is no JSON, or it is one item and a scalar. -/
inductive Trimmable (t : String) : Prop
  | empty (none : t = "")
  | margins (filled : Text.isBlankText t = false) (margins : Json.Margins t)
  | unread (filled : Text.isBlankText t = false)
    (unread : ∀ v, Json.read (Text.trim t) ≠ .ok v)
  | scalar {v : Value} (read : Json.read (Text.trim t) = .ok v) (list : ∀ xs, v ≠ .list xs)
    (mapping : ∀ es, v ≠ .dict es) (whole : ',' ∉ t.toList)

lemma isBlankText_trim (t : String) : Text.isBlankText (Text.trim t) = Text.isBlankText t := by
  obtain ⟨front, back, h⟩ := Text.exists_framed t.toList
  have hfront : front.all Text.isBlank = true := List.all_eq_true.mpr h.front
  have hback : back.all Text.isBlank = true := List.all_eq_true.mpr h.back
  rw [Text.isBlankText, Text.isBlankText, Text.trim, String.toList_ofList]
  conv_rhs => rw [h.eq, List.all_append, List.all_append, hfront, hback]
  simp

lemma ofValue_blank (hblank : Text.isBlankText t = true) :
    ofValue (.text t) = positional (if t = "" then [] else [.text t]) := by
  rw [ofValue]
  by_cases ht : t = ""
  · rw [if_pos (String.isEmpty_iff.mpr ht), if_pos ht]
  · rw [if_neg (mt String.isEmpty_iff.mp ht), if_pos hblank, if_neg ht]

/-- The items of a text that is no JSON do not depend on the blanks around it. -/
lemma ofValue_items (filled : Text.isBlankText t = false) (unread : ∀ v, Json.read t ≠ .ok v) :
    ofValue (.text t) = positional (items (Text.trim t)) := by
  rw [ofValue_unread filled unread, items_trim]
  rfl

lemma ofValue_trim_items (filled : Text.isBlankText t = false)
    (unread : ∀ v, Json.read (Text.trim t) ≠ .ok v) :
    ofValue (.text t) = ofValue (.text (Text.trim t)) := by
  rw [ofValue_items filled fun v hv => unread v (Json.read_trim hv),
    ofValue_unread (by rw [isBlankText_trim, filled]) unread]
  rfl

/-- Blanks that do not matter may be dropped. -/
lemma Trimmable.ofValue_eq (h : Trimmable t) :
    ofValue (.text t) = ofValue (.text (Text.trim t)) := by
  cases h with
  | empty none =>
    subst none
    rfl
  | unread filled unread => exact ofValue_trim_items filled unread
  | margins filled margins =>
    cases hread : Json.read (Text.trim t) with
    | error e => exact ofValue_trim_items filled (by simp [hread])
    | ok v =>
      rw [ofValue_read ((Json.read_eq_ok_iff_trim filled).mpr ⟨hread, margins⟩),
        ofValue_read hread]
  | @scalar v read list mapping whole =>
    rw [ofValue_read read]
    by_cases hsame : Json.read t = .ok v
    · rw [ofValue_read hsame]
    · have hunread (w : Value) : Json.read t ≠ .ok w := fun hw => by
        rw [Json.read_trim hw] at read
        exact hsame (hw.trans read)
      have hfilled : Text.isBlankText t = false := by
        rw [← isBlankText_trim]
        exact not_blank_of_read read
      have hwhole : ',' ∉ (Text.trim t).toList := by
        rw [Text.trim, String.toList_ofList]
        exact fun hmem => whole ((Text.trimChars_sublist _).subset hmem)
      rw [ofValue_items hfilled hunread, items_of_not_mem hwhole, decodeItem_ok read,
        ofJson_scalar list mapping]

/-- Blanks that do matter make a difference to some procedure. -/
lemma Trimmable.of_takesAlike (h : ∀ p : Procedure, p.TakesAlike (.text t) (.text (Text.trim t))) :
    Trimmable t := by
  have hpositional {xs ys : List Value} (hxs : ofValue (.text t) = positional xs)
      (hys : ofValue (.text (Text.trim t)) = positional ys) : xs = ys := by
    by_contra hne
    obtain ⟨p, hp⟩ := exists_apart hxs hys hne
    exact hp (h p)
  cases hfilled : Text.isBlankText t with
  | true =>
    have htrim : Text.trim t = "" := by
      have hall : ∀ c ∈ t.toList, Text.isBlank c = true := List.all_eq_true.mp hfilled
      rw [Text.trim, (Text.framed_blank hall).trim_eq]
    have hnone : ofValue (.text (Text.trim t)) = positional [] := by
      rw [htrim]
      rfl
    have hsame := hpositional (ofValue_blank hfilled) hnone
    by_cases ht : t = ""
    · exact .empty ht
    · rw [if_neg ht] at hsame
      cases hsame
  | false =>
    by_cases hmargins : Json.Margins t
    · exact .margins hfilled hmargins
    have hunread (v : Value) : Json.read t ≠ .ok v := fun hv =>
      hmargins ((Json.read_eq_ok_iff_trim hfilled).mp hv).2
    have hitems := ofValue_items hfilled hunread
    obtain ⟨front, back, hframed⟩ := Text.exists_framed t.toList
    cases hread : Json.read (Text.trim t) with
    | error e => exact .unread hfilled (by simp [hread])
    | ok v =>
      have hjson := ofValue_read hread
      by_cases hdict : ∃ es, v = .dict es
      · obtain ⟨es, rfl⟩ := hdict
        exact absurd (h (plain 0)) (apart_named hjson hitems (items_ne_nil _))
      by_cases hlist : ∃ xs, v = .list xs
      · obtain ⟨xs, rfl⟩ := hlist
        exact absurd (hpositional hitems hjson) (items_ne hframed.head hread)
      rw [not_exists] at hdict hlist
      refine .scalar hread hlist hdict fun hcomma => ?_
      rw [ofJson_scalar hlist hdict] at hjson
      have hmem : ',' ∈ Text.trimChars t.toList := by
        rw [hframed.eq, List.mem_append, List.mem_append] at hcomma
        have hfront : ',' ∉ front := Json.not_mem_of_blank hframed.front (by decide)
        have hback : ',' ∉ back := Json.not_mem_of_blank hframed.back (by decide)
        exact (hcomma.resolve_left hfront).resolve_right hback
      obtain ⟨before, after, hcore, hbefore⟩ := List.eq_append_cons_of_mem hmem
      obtain ⟨x, more, htwo⟩ := items_append hbefore after
      have hsame := hpositional hitems hjson
      rw [Text.trim, hcore, htwo] at hsame
      cases hsame

/-- **The blanks around the text of a call's arguments may be dropped just if they do not matter.**
A text of blanks alone that is not empty is itself the only argument. -/
theorem blanks_are_dropped_iff (t : String) :
    ((∀ p : Procedure, p.TakesAlike (.text t) (.text (Text.trim t))) ↔ Trimmable t) ∧
    (Text.isBlankText t = true → ∀ p : Procedure,
      p.arguments (.text t) = p.arguments (.list (if t = "" then [] else [.text t]))) := by
  refine ⟨⟨Trimmable.of_takesAlike, fun h => takesAlike_of_eq h.ofValue_eq⟩, fun hblank p => ?_⟩
  rw [Procedure.arguments, ofValue_blank hblank, Procedure.arguments]
  rfl

theorem blanks_are_dropped_iff_padded :
    (∀ p : Procedure, p.TakesAlike (.text "\n[1] ") (.text "[1]")) ∧
    Text.isBlankText "  " = true ∧
    (plain 1).arguments (.text "  ") = (plain 1).arguments (.list [.text "  "]) := by
  have hmargins : Json.Margins "\n[1] " := by
    simp [Json.Margins, Json.Blank, List.takeWhile, Text.isBlank, Json.isSpace]
  exact ⟨(blanks_are_dropped_iff "\n[1] ").1.mpr (.margins (by decide) hmargins), by decide,
    (blanks_are_dropped_iff "  ").2 (by decide) (plain 1)⟩

/-- A text of two blanks is bound where the text without them binds nothing. -/
theorem blanks_are_bound : Text.trim "  " = "" ∧
    sale.arguments (.text "  ") = .ok (members [("item", .text "  "), ("pieces", .int 1)]) ∧
    sale.arguments (.text "") = .ok (members [("pieces", .int 1)]) ∧
    ¬sale.TakesAlike (.text "  ") (.text (Text.trim "  ")) := by
  have htrim : Text.trim "  " = "" := by decide
  have hdistinct : sale.paramNames.Nodup := by decide
  have hblank : sale.arguments (.text "  ") =
      .ok (members [("item", .text "  "), ("pieces", .int 1)]) :=
    arguments_positional (ofValue_blank (by decide)) hdistinct (by decide)
  have hnone : sale.arguments (.text "") = .ok (members [("pieces", .int 1)]) :=
    arguments_positional (ofValue_blank (by decide)) hdistinct (by decide)
  refine ⟨htrim, hblank, hnone, ?_⟩
  rw [htrim, Procedure.TakesAlike, hblank, hnone]
  rintro (⟨bound, h, h'⟩ | ⟨message, message', h, -⟩)
  · have hsame := Except.ok.inj (h.trans h'.symm)
    simp [members] at hsame
  · cases h

end Arguments
end BlockSuite
