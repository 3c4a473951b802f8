import BlockSuite.Proofs.Report

/-!
What has no text. A value is shown unless a whole number in it is too long to be written. As JSON it
is written unless a number is too long, a key has no text, or a set is to be put in the order of the
texts of its members and one of them cannot be shown.
-/

namespace BlockSuite

/-! ### Computations one behind the other -/

section Except

variable {ε α β γ : Type} {x : Except ε α} {y : Except ε β}

/-- A result is computed from another one just if that one is. -/
lemma except_map_iff {f : α → β} {Q : β → Prop} :
    (∃ b, (do return f (← x)) = Except.ok b ∧ Q b) ↔ ∃ a, x = .ok a ∧ Q (f a) := by
  cases x with
  | error e => exact iff_of_false (by rintro ⟨_, ⟨⟩, _⟩) (by rintro ⟨_, ⟨⟩, _⟩)
  | ok a =>
    constructor
    · rintro ⟨_, ⟨⟩, hQ⟩
      exact ⟨a, rfl, hQ⟩
    · rintro ⟨_, ⟨⟩, hQ⟩
      exact ⟨f a, rfl, hQ⟩

lemma except_map_ok {f : α → β} : (∃ b, (do return f (← x)) = Except.ok b) ↔ ∃ a, x = .ok a := by
  simpa using except_map_iff (x := x) (f := f) (Q := fun _ => True)

lemma except_bind_ok_iff {f : α → Except ε β} :
    (∃ b, x >>= f = .ok b) ↔ ∃ a, x = .ok a ∧ ∃ b, f a = .ok b := by
  cases x with
  | error e => exact iff_of_false (by rintro ⟨_, ⟨⟩⟩) (by rintro ⟨_, ⟨⟩, _⟩)
  | ok a =>
    constructor
    · exact fun h => ⟨a, rfl, h⟩
    · rintro ⟨_, ⟨⟩, h⟩
      exact h

lemma except_map₂_ok {f : α → β → γ} :
    (∃ c, (do
      let a ← x
      let b ← y
      return f a b) = Except.ok c) ↔ (∃ a, x = .ok a) ∧ ∃ b, y = .ok b := by
  rw [except_bind_ok_iff]
  simp only [except_map_ok, exists_and_right]

end Except

lemma Number.isShort_iff {i : Int} : isShort i = true ↔ i.natAbs < 10 ^ maxDigits := by
  rw [isShort, decide_eq_true_iff, digits]
  exact Nat.length_toDigits_le_iff (by decide) (by decide)

lemma intText_ok_iff {i : Int} : (∃ s, intText i = .ok s) ↔ ¬Number.isShort i = false := by
  rw [Number.intText_eq]
  cases Number.isShort i with
  | true => exact iff_of_true ⟨_, rfl⟩ (by simp)
  | false => exact iff_of_false (by rintro ⟨_, ⟨⟩⟩) (by simp)

namespace Value

variable {v : Value} {xs : List Value} {es : List (Value × Value)}

/-! ### Values that cannot be shown -/

/-- A whole number that is too long to be written stands in a value. -/
inductive HoldsLong : Value → Prop
  | number {i : Int} (long : Number.isShort i = false) : HoldsLong (.int i)
  | item {xs : List Value} {x : Value} (member : x ∈ xs) (holds : HoldsLong x) :
    HoldsLong (.list xs)
  | part {xs : List Value} {x : Value} (member : x ∈ xs) (holds : HoldsLong x) :
    HoldsLong (.tuple xs)
  | element {xs : List Value} {x : Value} (member : x ∈ xs) (holds : HoldsLong x) :
    HoldsLong (.set xs)
  | key {es : List (Value × Value)} {e : Value × Value} (member : e ∈ es)
    (holds : HoldsLong e.1) : HoldsLong (.dict es)
  | value {es : List (Value × Value)} {e : Value × Value} (member : e ∈ es)
    (holds : HoldsLong e.2) : HoldsLong (.dict es)

lemma holdsLong_int {i : Int} : HoldsLong (.int i) ↔ Number.isShort i = false :=
  ⟨fun h => by cases h with | number long => exact long, .number⟩

lemma holdsLong_list : HoldsLong (.list xs) ↔ ∃ x ∈ xs, HoldsLong x :=
  ⟨fun h => by cases h with | item member holds => exact ⟨_, member, holds⟩,
    fun ⟨_, member, holds⟩ => .item member holds⟩

lemma holdsLong_tuple : HoldsLong (.tuple xs) ↔ ∃ x ∈ xs, HoldsLong x :=
  ⟨fun h => by cases h with | part member holds => exact ⟨_, member, holds⟩,
    fun ⟨_, member, holds⟩ => .part member holds⟩

lemma holdsLong_set : HoldsLong (.set xs) ↔ ∃ x ∈ xs, HoldsLong x :=
  ⟨fun h => by cases h with | element member holds => exact ⟨_, member, holds⟩,
    fun ⟨_, member, holds⟩ => .element member holds⟩

lemma holdsLong_dict : HoldsLong (.dict es) ↔ ∃ e ∈ es, HoldsLong e.1 ∨ HoldsLong e.2 := by
  constructor
  · intro h
    cases h with
    | key member holds => exact ⟨_, member, .inl holds⟩
    | value member holds => exact ⟨_, member, .inr holds⟩
  · rintro ⟨e, member, holds | holds⟩
    · exact .key member holds
    · exact .value member holds

/-! ### Values that are shown -/

/-- A key is smaller than its mapping. -/
lemma sizeOf_key {e : Value × Value} (h : e ∈ es) : sizeOf e.1 < 1 + sizeOf es := by
  have hlt := List.sizeOf_lt_of_mem h
  obtain ⟨k, v⟩ := e
  rw [Prod.mk.sizeOf_spec] at hlt
  change sizeOf k < 1 + sizeOf es
  omega

lemma quotedAll_eq (xs : List Value) : quotedAll xs = xs.mapM quoted := by
  induction xs with
  | nil => rfl
  | cons x rest ih => rw [quotedAll, ih, List.mapM_cons]

lemma quotedEntries_eq (es : List (Value × Value)) :
    quotedEntries es = es.mapM fun e => do
      let key ← e.1.quoted
      let value ← e.2.quoted
      return key ++ ": " ++ value := by
  induction es with
  | nil => rfl
  | cons e rest ih =>
    rw [quotedEntries, ih, List.mapM_cons]
    simp only [bind_assoc, pure_bind]

lemma quoted_items_ok : (∃ ss, quotedAll xs = .ok ss) ↔ ∀ x ∈ xs, ∃ s, x.quoted = .ok s := by
  rw [quotedAll_eq, exists_mapM_ok]

lemma quoted_list_ok : (∃ s, quoted (.list xs) = .ok s) ↔ ∀ x ∈ xs, ∃ s, x.quoted = .ok s := by
  rw [quoted, except_map_ok, quoted_items_ok]

lemma quoted_tuple_ok : (∃ s, quoted (.tuple xs) = .ok s) ↔ ∀ x ∈ xs, ∃ s, x.quoted = .ok s := by
  match xs with
  | [x] => rw [quoted, except_map_ok, List.forall_mem_singleton]
  | [] => rw [quoted, except_map_ok, quoted_items_ok]; simp
  | x :: y :: rest => rw [quoted, except_map_ok, quoted_items_ok]; simp

lemma quoted_set_ok : (∃ s, quoted (.set xs) = .ok s) ↔ ∀ x ∈ xs, ∃ s, x.quoted = .ok s := by
  cases xs with
  | nil => exact iff_of_true ⟨_, rfl⟩ nofun
  | cons x rest => rw [quoted, except_map_ok, quoted_items_ok]; simp

lemma quoted_dict_ok : (∃ s, quoted (.dict es) = .ok s) ↔
    ∀ e ∈ es, (∃ s, e.1.quoted = .ok s) ∧ ∃ s, e.2.quoted = .ok s := by
  rw [quoted, except_map_ok, quotedEntries_eq, exists_mapM_ok]
  exact forall₂_congr fun e _ => except_map₂_ok

/-- **A value is shown just if no whole number in it is too long.** -/
theorem quoted_ok_iff : ∀ v : Value, (∃ s, v.quoted = .ok s) ↔ ¬v.HoldsLong
  | .list xs => by
    rw [quoted_list_ok, holdsLong_list]
    push Not
    exact forall₂_congr fun x _ => quoted_ok_iff x
  | .tuple xs => by
    rw [quoted_tuple_ok, holdsLong_tuple]
    push Not
    exact forall₂_congr fun x _ => quoted_ok_iff x
  | .set xs => by
    rw [quoted_set_ok, holdsLong_set]
    push Not
    exact forall₂_congr fun x _ => quoted_ok_iff x
  | .dict es => by
    rw [quoted_dict_ok, holdsLong_dict]
    push Not
    exact forall₂_congr fun e _ => and_congr (quoted_ok_iff e.1) (quoted_ok_iff e.2)
  | .int i => by rw [quoted, intText_ok_iff, holdsLong_int]
  | .null | .bool _ | .float _ | .text _ | .bytes _ | .date _ | .moment _ | .duration _
  | .handle _ | .inner .. => iff_of_true ⟨_, rfl⟩ nofun
termination_by v => sizeOf v
decreasing_by
  all_goals
    simp only [Value.list.sizeOf_spec, Value.tuple.sizeOf_spec, Value.set.sizeOf_spec,
      Value.dict.sizeOf_spec]
    first
    | exact Json.sizeOf_item ‹_ ∈ xs›
    | exact Json.sizeOf_member ‹_ ∈ es›
    | exact sizeOf_key ‹_ ∈ es›

/-- Plain texts are texts in messages, but that some values have a text that is not quoted. -/
lemma plainText_ok_iff : (∃ s, v.plainText = .ok s) ↔ ¬v.HoldsLong := by
  rw [← quoted_ok_iff]
  cases v with
  | text _ | date _ | moment _ | duration _ | inner _ _ _ _ => exact iff_of_true ⟨_, rfl⟩ ⟨_, rfl⟩
  | _ => rfl

/-! ### Values that cannot be written as JSON -/

/-- JSON has no text for a value, whose numbers without a fraction become whole numbers if this is
asked for. The members of a set are put in order by their plain texts, and keep their numbers. -/
inductive Refused : Bool → Value → Prop
  | number {whole : Bool} {i : Int} (long : Number.isShort i = false) : Refused whole (.int i)
  | integral {d : Double} {i : Int} (integral : d.toInt? = some i)
    (long : Number.isShort i = false) : Refused true (.float d)
  | item {whole : Bool} {xs : List Value} {x : Value} (member : x ∈ xs)
    (refused : Refused whole x) : Refused whole (.list xs)
  | part {whole : Bool} {xs : List Value} {x : Value} (member : x ∈ xs)
    (refused : Refused whole x) : Refused whole (.tuple xs)
  | unsorted {whole : Bool} {xs : List Value} {x : Value} (member : x ∈ xs)
    (long : x.HoldsLong) : Refused whole (.set xs)
  | element {whole : Bool} {xs : List Value} {x : Value} (member : x ∈ xs)
    (refused : Refused false x) : Refused whole (.set xs)
  | key {whole : Bool} {es : List (Value × Value)} {e : Value × Value} (member : e ∈ es)
    (wordless : ∀ key, ¬IsKey e.1 key) : Refused whole (.dict es)
  | value {whole : Bool} {es : List (Value × Value)} {e : Value × Value} (member : e ∈ es)
    (refused : Refused whole e.2) : Refused whole (.dict es)

variable {whole : Bool}

lemma refused_int {i : Int} : Refused whole (.int i) ↔ Number.isShort i = false :=
  ⟨fun h => by cases h with | number long => exact long, .number⟩

lemma refused_float {d : Double} : Refused whole (.float d) ↔
    whole = true ∧ ∃ i, d.toInt? = some i ∧ Number.isShort i = false := by
  constructor
  · intro h
    cases h with
    | integral integral long => exact ⟨rfl, _, integral, long⟩
  · rintro ⟨rfl, i, integral, long⟩
    exact .integral integral long

/-- A number of 64 bits is never too long to be written. -/
lemma not_refused_float {d : Double} (h : d.Proper) (whole : Bool) : ¬Refused whole (.float d) := by
  rw [refused_float]
  rintro ⟨-, i, integral, long⟩
  cases d with
  | nan => cases integral
  | infinite negative => cases integral
  | finite negative units =>
    rw [Double.toInt?] at integral
    split at integral
    · have habs : i.natAbs = units / Double.perOne := by
        rw [← Option.some.inj integral]
        split
        · exact Int.natAbs_neg _
        · rfl
      have hbound : Double.bound < Double.perOne * 10 ^ Number.maxDigits := by decide +kernel
      have hshort : Number.isShort i = true := by
        rw [Number.isShort_iff, habs]
        exact Nat.div_lt_of_lt_mul (h.2.trans hbound)
      rw [hshort] at long
      cases long
    · cases integral

lemma refused_list : Refused whole (.list xs) ↔ ∃ x ∈ xs, Refused whole x :=
  ⟨fun h => by cases h with | item member refused => exact ⟨_, member, refused⟩,
    fun ⟨_, member, refused⟩ => .item member refused⟩

lemma refused_tuple : Refused whole (.tuple xs) ↔ ∃ x ∈ xs, Refused whole x :=
  ⟨fun h => by cases h with | part member refused => exact ⟨_, member, refused⟩,
    fun ⟨_, member, refused⟩ => .part member refused⟩

lemma refused_set : Refused whole (.set xs) ↔ ∃ x ∈ xs, x.HoldsLong ∨ Refused false x := by
  constructor
  · intro h
    cases h with
    | unsorted member long => exact ⟨_, member, .inl long⟩
    | element member refused => exact ⟨_, member, .inr refused⟩
  · rintro ⟨x, member, long | refused⟩
    · exact .unsorted member long
    · exact .element member refused

lemma refused_dict : Refused whole (.dict es) ↔
    ∃ e ∈ es, (∀ key, ¬IsKey e.1 key) ∨ Refused whole e.2 := by
  constructor
  · intro h
    cases h with
    | key member wordless => exact ⟨_, member, .inl wordless⟩
    | value member refused => exact ⟨_, member, .inr refused⟩
  · rintro ⟨e, member, wordless | refused⟩
    · exact .key member wordless
    · exact .value member refused

/-! ### Values that are written as JSON -/

section Writing

variable {layout : Json.Layout} {depth : Nat}

lemma writeAll_eq : Json.writeAll layout depth xs = xs.mapM (Json.write layout depth) := by
  induction xs with
  | nil => rfl
  | cons x rest ih => rw [Json.writeAll, ih, List.mapM_cons]

lemma writeMembers_eq : Json.writeMembers layout depth es = es.mapM fun e => do
    let key ← Json.keyText layout e.1
    let value ← Json.write layout depth e.2
    return Json.ofText key ++ layout.colon ++ value := by
  induction es with
  | nil => rfl
  | cons e rest ih =>
    rw [Json.writeMembers, ih, List.mapM_cons]
    simp only [bind_assoc, pure_bind]

lemma reduceAll_eq : Json.reduceAll whole xs = xs.mapM (Json.reduce whole) := by
  induction xs with
  | nil => rfl
  | cons x rest ih => rw [Json.reduceAll, ih, List.mapM_cons]

lemma reduceMembers_eq : Json.reduceMembers xs = xs.mapM fun x => do
    let key ← x.plainText
    let y ← Json.reduce false x
    return (key, y) := by
  induction xs with
  | nil => rfl
  | cons x rest ih =>
    rw [Json.reduceMembers, ih, List.mapM_cons]
    simp only [bind_assoc, pure_bind]

lemma reduceEntries_eq : Json.reduceEntries whole es = es.mapM fun e => do
    let y ← Json.reduce whole e.2
    return (e.1, y) := by
  induction es with
  | nil => rfl
  | cons e rest ih =>
    rw [Json.reduceEntries, ih, List.mapM_cons]
    simp only [bind_assoc, pure_bind]

lemma write_items_ok : (∃ s, Json.write layout depth (.list xs) = .ok s) ↔
    ∀ x ∈ xs, ∃ s, Json.write layout (depth + 1) x = .ok s := by
  rw [Json.write, except_map_ok, writeAll_eq, exists_mapM_ok]

lemma write_members_ok : (∃ s, Json.write layout depth (.dict es) = .ok s) ↔
    ∀ e ∈ es, (∃ key, IsKey e.1 key) ∧ ∃ s, Json.write layout (depth + 1) e.2 = .ok s := by
  rw [Json.write, except_map_ok, writeMembers_eq, exists_mapM_ok]
  refine forall₂_congr fun e _ => ?_
  rw [except_map₂_ok]
  simp only [keyText_iff]

/-- A value has a text as JSON when it is reduced and what it is reduced to is written. -/
def Renders (layout : Json.Layout) (depth : Nat) (whole : Bool) (v : Value) : Prop :=
  ∃ u, Json.reduce whole v = .ok u ∧ ∃ s, Json.write layout depth u = .ok s

lemma renders_list : Renders layout depth whole (.list xs) ↔
    ∀ x ∈ xs, Renders layout (depth + 1) whole x := by
  rw [Renders, Json.reduce, except_map_iff]
  simp only [write_items_ok]
  rw [reduceAll_eq, mapM_ok_iff]
  rfl

lemma renders_tuple : Renders layout depth whole (.tuple xs) ↔
    Renders layout depth whole (.list xs) := Iff.rfl

lemma renders_set : Renders layout depth whole (.set xs) ↔
    ∀ x ∈ xs, ¬x.HoldsLong ∧ Renders layout (depth + 1) false x := by
  have hsorted (ps : List (String × Value)) : (∃ s, Json.write layout depth
      (.list (Json.sortByText ps)) = .ok s) ↔
        ∀ p ∈ ps, ∃ s, Json.write layout (depth + 1) p.2 = .ok s := by
    rw [write_items_ok]
    simp only [Json.mem_sortByText, forall_exists_index, and_imp, forall_apply_eq_imp_iff₂]
  rw [Renders, Json.reduce, except_map_iff]
  simp only [hsorted]
  rw [reduceMembers_eq, mapM_ok_iff]
  refine forall₂_congr fun x _ => ?_
  rw [← plainText_ok_iff]
  cases x.plainText with
  | error e => exact iff_of_false (by rintro ⟨_, ⟨⟩, _⟩) (by rintro ⟨⟨_, ⟨⟩⟩, _⟩)
  | ok key =>
    rw [and_iff_right ⟨key, rfl⟩]
    exact except_map_iff

lemma renders_dict : Renders layout depth whole (.dict es) ↔
    ∀ e ∈ es, (∃ key, IsKey e.1 key) ∧ Renders layout (depth + 1) whole e.2 := by
  rw [Renders, Json.reduce, except_map_iff]
  simp only [write_members_ok]
  rw [reduceEntries_eq, mapM_ok_iff]
  refine forall₂_congr fun e _ => ?_
  rw [except_map_iff]
  dsimp only
  constructor
  · rintro ⟨u, hu, hkey, hwrite⟩
    exact ⟨hkey, u, hu, hwrite⟩
  · rintro ⟨hkey, u, hu, hwrite⟩
    exact ⟨u, hu, hkey, hwrite⟩

lemma renders_int {i : Int} :
    Renders layout depth whole (.int i) ↔ ¬Number.isShort i = false := by
  rw [← intText_ok_iff]
  constructor
  · rintro ⟨_, ⟨⟩, hwrite⟩
    exact hwrite
  · exact fun h => ⟨_, rfl, h⟩

lemma renders_float {d : Double} : Renders layout depth whole (.float d) ↔
    ¬(whole = true ∧ ∃ i, d.toInt? = some i ∧ Number.isShort i = false) := by
  rw [Renders, Json.reduce]
  cases whole with
  | false => exact iff_of_true ⟨_, rfl, _, rfl⟩ (by rintro ⟨⟨⟩, _⟩)
  | true =>
    cases hd : d.toInt? with
    | none => exact iff_of_true ⟨_, rfl, _, rfl⟩ (by rintro ⟨_, _, ⟨⟩, _⟩)
    | some i =>
      have hi : Renders layout depth true (.int i) ↔ ¬Number.isShort i = false := renders_int
      simpa [Renders, Json.reduce] using hi

/-- **A value is written as JSON just if nothing in it is refused**, in whatever layout. -/
theorem renders_iff (layout : Json.Layout) : ∀ (v : Value) (depth : Nat) (whole : Bool),
    Renders layout depth whole v ↔ ¬Refused whole v
  | .list xs, depth, whole => by
    rw [renders_list, refused_list]
    push Not
    exact forall₂_congr fun x _ => renders_iff layout x (depth + 1) whole
  | .tuple xs, depth, whole => by
    rw [renders_tuple, renders_list, refused_tuple]
    push Not
    exact forall₂_congr fun x _ => renders_iff layout x (depth + 1) whole
  | .set xs, depth, whole => by
    rw [renders_set, refused_set]
    push Not
    exact forall₂_congr fun x _ => and_congr_right' (renders_iff layout x (depth + 1) false)
  | .dict es, depth, whole => by
    rw [renders_dict, refused_dict]
    push Not
    exact forall₂_congr fun e _ => and_congr_right' (renders_iff layout e.2 (depth + 1) whole)
  | .int i, depth, whole => by rw [renders_int, refused_int]
  | .float d, depth, whole => by rw [renders_float, refused_float]
  | .null, _, _ | .bool _, _, _ | .text _, _, _ | .bytes _, _, _ | .date _, _, _
  | .moment _, _, _ | .duration _, _, _ | .handle _, _, _ | .inner _ _ _ _, _, _ =>
    iff_of_true ⟨_, rfl, _, rfl⟩ nofun
termination_by v => sizeOf v
decreasing_by
  all_goals
    simp only [Value.list.sizeOf_spec, Value.tuple.sizeOf_spec, Value.set.sizeOf_spec,
      Value.dict.sizeOf_spec]
    first
    | exact Json.sizeOf_item ‹_ ∈ xs›
    | exact Json.sizeOf_member ‹_ ∈ es›

end Writing

/-- **A value has a text in place of a placeholder just if nothing in it is refused.** -/
theorem toText_ok_iff : (∃ s, v.toText = .ok s) ↔ ¬Refused true v := by
  have hjson : (∃ s, v.toJson = .ok s) ↔ ¬Refused true v := by
    rw [← renders_iff .compact v 0 true, toJson, except_bind_ok_iff]
    rfl
  cases v with
  | list _ | tuple _ | set _ | dict _ => exact hjson
  | int i =>
    rw [refused_int, ← intText_ok_iff]
    rfl
  | float d =>
    rw [toText, refused_float]
    cases hd : d.toInt? with
    | none => exact iff_of_true ⟨_, rfl⟩ (by rintro ⟨_, _, ⟨⟩, _⟩)
    | some i => simpa using intText_ok_iff (i := i)
  | _ => exact iff_of_true ⟨_, rfl⟩ (by rintro ⟨⟩)

end Value

end BlockSuite
