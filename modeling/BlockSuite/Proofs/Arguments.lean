import BlockSuite.Proofs.Margin
import BlockSuite.Proofs.Portable

/-!
Spellings of the arguments of a call. A call gives its arguments by position, as a list, as a tuple,
as the JSON text of a list, or as texts of scalars between commas, or it gives them by name, as a
mapping or as its JSON text. All spellings of the same arguments bind the same.
-/

namespace BlockSuite

/-- The scalars of JSON that are written as they are meant: no fraction is rounded. -/
inductive Value.Scalar : Value → Prop
  | null : Scalar .null
  | bool (b : Bool) : Scalar (.bool b)
  | int {i : Int} (short : Number.isShort i = true) : Scalar (.int i)
  | text (s : String) : Scalar (.text s)

namespace Value.Scalar

variable {v : Value}

lemma portable (h : v.Scalar) : v.Portable := by
  cases h with
  | null => exact .null
  | bool b => exact .bool b
  | int short => exact .int short
  | text s => exact .text s

lemma ne_list (h : v.Scalar) (xs : List Value) : v ≠ .list xs := by cases h <;> nofun

lemma ne_dict (h : v.Scalar) (es : List (Value × Value)) : v ≠ .dict es := by cases h <;> nofun

end Value.Scalar

/-- The defaults of parameters that have one. -/
def Param.defaults (params : List Param) : Dict Value :=
  params.filterMap fun p => p.default.given?.map fun v => (p.name, v)

lemma Param.defaults_null {p : Param} (h : p.default = .null) (params : List Param) :
    defaults (p :: params) = defaults params := by
  simp [defaults, h, Value.given?]

lemma Param.defaults_cons {p : Param} (h : p.default ≠ .null) (params : List Param) :
    defaults (p :: params) = (p.name, p.default) :: defaults params := by
  have hgiven : p.default.given? = some p.default := by
    unfold Value.given?
    split
    · next hnull => exact absurd hnull h
    · rfl
  simp [defaults, hgiven]

namespace Arguments

variable {params : List Param} {values : List Value}

/-! ### What is bound -/

lemma member?_members (d : Dict Value) (name : String) :
    (Value.member? (members d) name).isSome = d.has name := by
  induction d with
  | nil => rfl
  | cons e rest ih =>
    have hcons : Value.member? (members (e :: rest)) name =
        if e.1 == name then some e.2 else Value.member? (members rest) name := rfl
    rw [hcons, Dict.has, List.any_cons]
    cases e.1 == name
    · exact ih
    · rfl

lemma name_ne {p q : Param} (distinct : ((p :: params).map (·.name)).Nodup) (hq : q ∈ params) :
    q.name ≠ p.name :=
  fun heq => (List.nodup_cons.mp distinct).1 (List.mem_map.mpr ⟨q, hq, heq⟩)

lemma has_append {d : Dict Value} {name other : String} (h : name ≠ other) (v : Value) :
    Dict.has (d ++ [(other, v)]) name = d.has name := by
  simp [Dict.has, h.symm]

/-- Behind the arguments, names that are not bound yet are bound to their defaults. -/
lemma bindFrom_members_eq (d : Dict Value) (distinct : (params.map (·.name)).Nodup) :
    bindFrom (members d) [] params =
      members (d ++ Param.defaults (params.filter fun p => !d.has p.name)) := by
  induction params generalizing d with
  | nil => simp [bindFrom, Param.defaults]
  | cons p params ih =>
    have hrest := (List.nodup_cons.mp distinct).2
    rw [bindFrom, member?_members]
    split
    · next hnull =>
      rw [ih d hrest, List.filter_cons]
      split
      · rw [Param.defaults_null hnull]
      · rfl
    · next hnull =>
      cases hhas : d.has p.name with
      | true => rw [if_pos rfl, ih d hrest, List.filter_cons_of_neg (by simp [hhas])]
      | false =>
        have hfilter : (params.filter fun q => !Dict.has (d ++ [(p.name, p.default)]) q.name) =
            params.filter fun q => !d.has q.name :=
          List.filter_congr fun q hq => by
            rw [has_append (name_ne distinct hq)]
        rw [if_neg (by simp), bindKey_members, Dict.set_of_not_has hhas, ih _ hrest, hfilter,
          List.filter_cons_of_pos (by simp [hhas]), Param.defaults_cons hnull, List.append_assoc]
        rfl

/-- Values are bound to names by position, and the names behind them to their defaults. -/
lemma bindFrom_values (d : Dict Value) (distinct : (params.map (·.name)).Nodup)
    (fresh : ∀ p ∈ params, d.has p.name = false) (h : values.length ≤ params.length) :
    bindFrom (members d) values params =
      members (d ++ ((params.map (·.name)).zip values ++
        Param.defaults (params.drop values.length))) := by
  induction params generalizing d values with
  | nil =>
    obtain rfl : values = [] := List.length_eq_zero_iff.mp (Nat.le_zero.mp h)
    simp [bindFrom, Param.defaults]
  | cons p params ih =>
    cases values with
    | nil =>
      have hall : ((p :: params).filter fun q => !d.has q.name) = p :: params :=
        List.filter_eq_self.mpr fun q hq => by simp [fresh q hq]
      rw [bindFrom_members_eq d distinct, hall]
      rfl
    | cons v values =>
      have hrest := (List.nodup_cons.mp distinct).2
      have hfresh : ∀ q ∈ params, Dict.has (d ++ [(p.name, v)]) q.name = false := fun q hq => by
        rw [has_append (name_ne distinct hq)]
        exact fresh q (List.mem_cons_of_mem _ hq)
      rw [bindFrom, bindKey_members, Dict.set_of_not_has (fresh p List.mem_cons_self),
        ih _ hrest hfresh (Nat.le_of_succ_le_succ h), List.append_assoc]
      rfl

/-- Values under the first names are bound as values by position are. -/
lemma bindFrom_named (d : Dict Value) (distinct : (params.map (·.name)).Nodup)
    (fresh : ∀ p ∈ params, d.has p.name = false) (h : values.length ≤ params.length) :
    bindFrom (members (d ++ (params.map (·.name)).zip values)) [] params =
      bindFrom (members d) values params := by
  induction params generalizing d values with
  | nil =>
    obtain rfl : values = [] := List.length_eq_zero_iff.mp (Nat.le_zero.mp h)
    rw [List.zip_nil_right, List.append_nil]
  | cons p params ih =>
    cases values with
    | nil => rw [List.zip_nil_right, List.append_nil]
    | cons v values =>
      have hrest := (List.nodup_cons.mp distinct).2
      have hfresh : ∀ q ∈ params, Dict.has (d ++ [(p.name, v)]) q.name = false := fun q hq => by
        rw [has_append (name_ne distinct hq)]
        exact fresh q (List.mem_cons_of_mem _ hq)
      have hskip (e : Dict Value) (he : e.has p.name = true) :
          bindFrom (members e) [] (p :: params) = bindFrom (members e) [] params := by
        rw [bindFrom, member?_members, he]
        split <;> rfl
      have hzip : d ++ ((p :: params).map (·.name)).zip (v :: values) =
          (d ++ [(p.name, v)]) ++ (params.map (·.name)).zip values := by
        rw [List.append_assoc]
        rfl
      rw [hzip, hskip _ (by simp [Dict.has]), ih _ hrest hfresh (Nat.le_of_succ_le_succ h),
        bindFrom, bindKey_members, Dict.set_of_not_has (fresh p List.mem_cons_self)]

/-! ### Spellings -/

/-- The JSON text of a value, if there is no comma in it. -/
structure Item (s : String) (v : Value) : Prop where
  read : Json.read s = .ok v
  whole : ',' ∉ s.toList

/-- What spells values by position: a list, a tuple, the JSON text of the list, or the JSON texts of
the values between commas. -/
inductive Positional (values : List Value) : Value → Prop
  | list : Positional values (.list values)
  | tuple : Positional values (.tuple values)
  | array {t : String} (read : Json.read t = .ok (.list values)) : Positional values (.text t)
  | joined {items : List String} (written : List.Forall₂ Item items values) :
    Positional values (.text (", ".intercalate items))

/-- What spells values under names: a mapping, or its JSON text. -/
inductive Named (d : Dict Value) : Value → Prop
  | mapping : Named d (.record d)
  | object {t : String} (read : Json.read t = .ok (.record d)) : Named d (.text t)

/-- A text of blanks is no JSON. -/
lemma not_blank_of_read {t : String} {v : Value} (h : Json.read t = .ok v) :
    Text.isBlankText t = false := by
  by_contra hblank
  have hall : ∀ c ∈ t.toList, Text.isBlank c = true :=
    List.all_eq_true.mp (Bool.of_not_eq_false hblank)
  cases ((Json.read_framed (Text.framed_blank hall)).mp h).1

lemma isEmpty_of_not_blank {t : String} (h : Text.isBlankText t = false) : t.isEmpty = false := by
  rw [← Bool.not_eq_true, String.isEmpty_iff]
  rintro rfl
  cases h

/-- The arguments that a JSON text gives: by name in a mapping, one by position else, but for a list
as many as it has items. -/
def ofJson : Value → Arguments
  | .dict es => named es
  | .list xs => positional xs
  | v => positional [v]

lemma ofJson_scalar {v : Value} (hlist : ∀ xs, v ≠ .list xs) (hdict : ∀ es, v ≠ .dict es) :
    ofJson v = positional [v] := by
  cases v with
  | list xs => exact absurd rfl (hlist xs)
  | dict es => exact absurd rfl (hdict es)
  | _ => rfl

lemma ofValue_read {t : String} {v : Value} (h : Json.read t = .ok v) :
    ofValue (.text t) = ofJson v := by
  have hblank := not_blank_of_read h
  rw [ofValue, isEmpty_of_not_blank hblank, hblank, h]
  cases v <;> rfl

/-- A text that is no JSON is cut at its commas. -/
lemma ofValue_unread {t : String} (hblank : Text.isBlankText t = false)
    (h : ∀ v, Json.read t ≠ .ok v) :
    ofValue (.text t) = positional ((Text.splitAt ',' t).map decodeItem) := by
  rw [ofValue, isEmpty_of_not_blank hblank, hblank]
  cases hread : Json.read t with
  | ok v => exact absurd hread (h v)
  | error e => rfl

/-- An item that is JSON is read. -/
lemma decodeItem_ok {s : String} {v : Value} (h : Json.read s = .ok v) : decodeItem s = v := by
  rw [decodeItem, Json.read_trim h]

lemma decodeItem_space {s : String} {v : Value} (h : Json.read s = .ok v) :
    decodeItem (String.ofList (' ' :: s.toList)) = v := by
  have hspace : ∀ c ∈ [' '], Text.isBlank c = true := List.forall_mem_singleton.mpr rfl
  have hnone : ∀ c ∈ ([] : List Char), Text.isBlank c = true := nofun
  have htrim := Text.trimChars_margins hspace hnone s.toList
  rw [List.append_nil, List.singleton_append] at htrim
  rw [decodeItem, Text.trim, String.toList_ofList, htrim, ← Text.trim, Json.read_trim h]

lemma decodeItem_all {items : List String} (h : List.Forall₂ Item items values) :
    (items.map fun s => String.ofList (' ' :: s.toList)).map decodeItem = values := by
  induction h with
  | nil => rfl
  | cons hs _ ih => rw [List.map_cons, List.map_cons, ih, decodeItem_space hs.read]

lemma whole_all {items : List String} (h : List.Forall₂ Item items values) :
    ∀ s ∈ items, ',' ∉ s.toList := by
  induction h with
  | nil => nofun
  | cons hs _ ih => exact List.forall_mem_cons.mpr ⟨hs.whole, ih⟩

/-- Scalars between commas are no JSON if there are several, and are read one by one. -/
lemma ofValue_joined {items : List String} (scalars : ∀ v ∈ values, v.Scalar)
    (h : List.Forall₂ Item items values) :
    ofValue (.text (", ".intercalate items)) = positional values := by
  cases h with
  | nil => rfl
  | @cons s v items values hs hitems =>
    have hscalar := scalars v List.mem_cons_self
    cases items with
    | nil =>
      cases hitems
      have hone : ", ".intercalate [s] = s := by simp
      rw [hone, ofValue_read hs.read, ofJson_scalar hscalar.ne_list hscalar.ne_dict]
    | cons s' items =>
      have hjoined : (", ".intercalate (s :: s' :: items)).toList =
          s.toList ++ ',' :: (' ' :: (", ".intercalate (s' :: items)).toList) := by
        simp [String.toList_intercalate]
      have hblank : Text.isBlankText (", ".intercalate (s :: s' :: items)) = false := by
        rw [Text.isBlankText, hjoined, List.all_append, List.all_cons]
        simp [Text.isBlank]
      have hunread (w : Value) : Json.read (", ".intercalate (s :: s' :: items)) ≠ .ok w := by
        have hmore := Json.not_read_comma hs.read hscalar.ne_list hscalar.ne_dict
          (' ' :: (", ".intercalate (s' :: items)).toList) w
        rwa [← hjoined, String.ofList_toList] at hmore
      rw [ofValue_unread hblank hunread, Text.splitAt_intercalate hs.whole (whole_all hitems),
        List.map_cons, decodeItem_ok hs.read, decodeItem_all hitems]

lemma Positional.ofValue_eq {v : Value} (h : Positional values v)
    (scalars : ∀ v ∈ values, v.Scalar) : ofValue v = positional values := by
  cases h with
  | list | tuple => rfl
  | array read => exact ofValue_read read
  | joined written => exact ofValue_joined scalars written

lemma Named.ofValue_eq {d : Dict Value} {v : Value} (h : Named d v) :
    ofValue v = named (members d) := by
  cases h with
  | mapping => rfl
  | object read => exact ofValue_read read

/-- The values that a call gives by position are bound to the first names, and the other names that
have a default to it. -/
def bindings (p : Procedure) (values : List Value) : Dict Value :=
  p.paramNames.zip values ++ Param.defaults (p.params.drop values.length)

variable {p : Procedure} {v : Value}

lemma arguments_positional (h : ofValue v = positional values) (distinct : p.paramNames.Nodup)
    (fits : values.length ≤ p.params.length) :
    p.arguments v = .ok (members (bindings p values)) := by
  have hbound : bindFrom (members []) values p.params = members (bindings p values) :=
    bindFrom_values [] distinct (fun _ _ => rfl) fits
  rw [Procedure.arguments, h, bind, if_neg (Nat.not_lt.mpr fits)]
  exact congrArg Except.ok hbound

lemma Named.arguments_eq (h : Named (p.paramNames.zip values) v) (distinct : p.paramNames.Nodup)
    (fits : values.length ≤ p.params.length) :
    p.arguments v = .ok (members (bindings p values)) := by
  have hnamed : bindFrom (members ([] ++ p.paramNames.zip values)) [] p.params =
      bindFrom (members []) values p.params :=
    bindFrom_named [] distinct (fun _ _ => rfl) fits
  have hbound : bindFrom (members []) values p.params = members (bindings p values) :=
    bindFrom_values [] distinct (fun _ _ => rfl) fits
  rw [Procedure.arguments, h.ofValue_eq]
  exact congrArg Except.ok (hnamed.trans hbound)

/-- What is said of a call with too many arguments. -/
def tooMany (p : Procedure) (given : Nat) : String :=
  "Procedure " ++ Quoted.ofText p.name ++ " takes " ++ Nat.repr p.params.length ++
    " argument(s) but " ++ Nat.repr given ++ " were given"

lemma arguments_exceeding (h : ofValue v = positional values)
    (exceeds : p.params.length < values.length) :
    p.arguments v = .error (.of .unresolved (tooMany p values.length)) := by
  rw [Procedure.arguments, h, bind, if_pos exceeds]
  rfl

/-- The written values of a list are its items. -/
lemma items_of_writes {layout : Json.Layout} (hlayout : layout.Blank)
    (scalars : ∀ v ∈ values, v.Scalar) : ∃ items, Json.writeAll layout 0 values = .ok items ∧
      ((∀ s ∈ items, ',' ∉ s.toList) → List.Forall₂ Item items values) := by
  induction values with
  | nil => exact ⟨[], rfl, fun _ => .nil⟩
  | cons v values ih =>
    obtain ⟨s, hs, hspells⟩ :=
      Json.writes_portable (scalars v List.mem_cons_self).portable layout hlayout 0
    obtain ⟨items, hitems, hall⟩ := ih fun w hw => scalars w (List.mem_cons_of_mem _ hw)
    refine ⟨s :: items, by rw [Json.writeAll, hs, hitems]; rfl, fun h => ?_⟩
    obtain ⟨hwhole, hrest⟩ := List.forall_mem_cons.mp h
    exact .cons ⟨hspells.read, hwhole⟩ (hall hrest)

lemma keys_zip (names : List String) (values : List Value) :
    (Dict.keys (names.zip values)).Sublist names := by
  induction names generalizing values with
  | nil => exact .slnil
  | cons name names ih =>
    cases values with
    | nil => exact List.nil_sublist _
    | cons v values => exact (ih values).cons_cons name

/-- **All spellings of the arguments of a call bind the same.** Scalars that are given by position
or under the first names of a procedure, as values or as any JSON text that is read as these, are
bound to the first names in order, and the names behind them to their defaults; too many by position
are refused, however they are spelled. The texts that are written for the list, for the mapping and
for each value, whatever the layout, are such spellings. -/
theorem spellings_agree (p : Procedure) (distinct : p.paramNames.Nodup) (values : List Value)
    (scalars : ∀ v ∈ values, v.Scalar) :
    (values.length ≤ p.params.length → ∀ v,
      Positional values v ∨ Named (p.paramNames.zip values) v →
        p.arguments v = .ok (members (bindings p values))) ∧
    (p.params.length < values.length → ∀ v, Positional values v →
      p.arguments v = .error (.of .unresolved (tooMany p values.length))) ∧
    ∀ layout : Json.Layout, layout.Blank →
      (∃ t, Json.write layout 0 (.list values) = .ok t ∧ Positional values (.text t)) ∧
      (∃ t, Json.write layout 0 (.record (p.paramNames.zip values)) = .ok t ∧
        Named (p.paramNames.zip values) (.text t)) ∧
      ∃ items, Json.writeAll layout 0 values = .ok items ∧
        ((∀ s ∈ items, ',' ∉ s.toList) →
          Positional values (.text (", ".intercalate items))) := by
  refine ⟨fun fits v h => ?_, fun exceeds v h => arguments_exceeding (h.ofValue_eq scalars) exceeds,
    fun layout hlayout => ⟨?_, ?_, ?_⟩⟩
  · rcases h with h | h
    · exact arguments_positional (h.ofValue_eq scalars) distinct fits
    · exact h.arguments_eq distinct fits
  · have hlist : Value.Portable (.list values) := .list fun v hv => (scalars v hv).portable
    obtain ⟨t, ht, hspells⟩ := Json.writes_portable hlist layout hlayout 0
    exact ⟨t, ht, .array hspells.read⟩
  · have hdict : Value.Portable (.record (p.paramNames.zip values)) :=
      .dict (distinct.sublist (keys_zip _ _)) fun e he =>
        (scalars e.2 (List.of_mem_zip he).2).portable
    obtain ⟨t, ht, hspells⟩ := Json.writes_portable hdict layout hlayout 0
    exact ⟨t, ht, .object hspells.read⟩
  · obtain ⟨items, hitems, hall⟩ := items_of_writes hlayout scalars
    exact ⟨items, hitems, fun h => .joined (hall h)⟩

/-- A sale of one piece, if nothing else is said. -/
def sale : Procedure :=
  ⟨"sell", none,
    [Param.named "item", Param.named "gift", ⟨"pieces", "int", .int 1, none⟩], none, []⟩

theorem spellings_agree_sale :
    sale.paramNames.Nodup ∧ (∀ v ∈ [Value.text "lamp", .bool true], v.Scalar) ∧
    sale.arguments (.text (", ".intercalate [Json.ofText "lamp", "true"])) =
      .ok (members [("item", .text "lamp"), ("gift", .bool true), ("pieces", .int 1)]) ∧
    (∃ t, Json.write .spaced 0 (.record [("item", .text "lamp"), ("gift", .bool true)]) = .ok t ∧
      sale.arguments (.text t) =
        .ok (members [("item", .text "lamp"), ("gift", .bool true), ("pieces", .int 1)])) ∧
    sale.arguments (.tuple (List.replicate 4 .null)) =
      .error (.of .unresolved (tooMany sale 4)) := by
  have hdistinct : sale.paramNames.Nodup := by decide
  have hscalars : ∀ v ∈ [Value.text "lamp", .bool true], v.Scalar :=
    List.forall_mem_cons.mpr ⟨.text _, List.forall_mem_singleton.mpr (.bool true)⟩
  have hnulls : ∀ v ∈ List.replicate 4 Value.null, v.Scalar :=
    fun v hv => List.eq_of_mem_replicate hv ▸ .null
  obtain ⟨hfits, -, hwritten⟩ := spellings_agree sale hdistinct _ hscalars
  obtain ⟨-, ⟨t, ht, hobject⟩, items, hitems, hjoined⟩ := hwritten .spaced trivial
  have hall := hfits (by decide)
  obtain rfl : items = [Json.ofText "lamp", "true"] := Except.ok.inj (hitems.symm.trans rfl)
  exact ⟨hdistinct, hscalars, hall _ (.inl (hjoined (by decide))), ⟨t, ht, hall _ (.inr hobject)⟩,
    (spellings_agree sale hdistinct _ hnulls).2.1 (by decide) _ .tuple⟩

end Arguments
end BlockSuite
