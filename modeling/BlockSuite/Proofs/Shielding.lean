import BlockSuite.Proofs.Action

/-!
What excerpts show. A value is made safe for an excerpt by replacing the handles in it, and by
writing tuples and sets as lists. That reaches into the values of mappings, but not into their keys,
and it leaves lengths of time as they are, for which there is no tag but one of the runtime.
-/

namespace BlockSuite

/-! ### Standard values -/

namespace Value

/-- Values that are written with standard tags: scalars other than lengths of time, and lists and
mappings of such values, the keys included. -/
inductive Standard : Value → Prop
  | null : Standard .null
  | bool (b : Bool) : Standard (.bool b)
  | int (i : Int) : Standard (.int i)
  | float (d : Double) : Standard (.float d)
  | text (s : String) : Standard (.text s)
  | bytes (bs : List UInt8) : Standard (.bytes bs)
  | date (d : Date) : Standard (.date d)
  | moment (m : Moment) : Standard (.moment m)
  | list {xs : List Value} (items : ∀ x ∈ xs, Standard x) : Standard (.list xs)
  | dict {es : List (Value × Value)} (keys : ∀ e ∈ es, Standard e.1)
    (values : ∀ e ∈ es, Standard e.2) : Standard (.dict es)

/-- Values of which an excerpt shows something that is not standard: a length of time, or a key,
wherever it stands in them. -/
inductive Leaks : Value → Prop
  | duration (d : Duration) : Leaks (.duration d)
  | item {v x : Value} {xs : List Value} (items : v.items? = some xs) (mem : x ∈ xs)
    (leaks : Leaks x) : Leaks v
  | key {es : List (Value × Value)} {e : Value × Value} (mem : e ∈ es) (strange : ¬Standard e.1) :
    Leaks (.dict es)
  | value {es : List (Value × Value)} {e : Value × Value} (mem : e ∈ es) (leaks : Leaks e.2) :
    Leaks (.dict es)

variable {v : Value} {xs : List Value} {es : List (Value × Value)}

lemma standard_list : (list xs).Standard ↔ ∀ x ∈ xs, x.Standard :=
  ⟨fun h => by cases h with | list items => exact items, .list⟩

lemma standard_dict : (dict es).Standard ↔ ∀ e ∈ es, e.1.Standard ∧ e.2.Standard := by
  refine ⟨fun h => ?_, fun h => .dict (fun e he => (h e he).1) fun e he => (h e he).2⟩
  cases h with
  | dict keys values => exact fun e he => ⟨keys e he, values e he⟩

lemma leaks_items (h : v.items? = some xs) : v.Leaks ↔ ∃ x ∈ xs, x.Leaks := by
  refine ⟨fun hv => ?_, fun ⟨x, hx, hleaks⟩ => .item h hx hleaks⟩
  cases hv with
  | item h' hx hleaks =>
    obtain rfl := Option.some.inj (h.symm.trans h')
    exact ⟨_, hx, hleaks⟩
  | duration | key | value => cases h

lemma leaks_dict : (dict es).Leaks ↔ ∃ e ∈ es, ¬e.1.Standard ∨ e.2.Leaks := by
  constructor
  · intro h
    cases h with
    | item h' => cases h'
    | key he hstrange => exact ⟨_, he, .inl hstrange⟩
    | value he hleaks => exact ⟨_, he, .inr hleaks⟩
  · rintro ⟨e, he, hstrange | hleaks⟩
    · exact .key he hstrange
    · exact .value he hleaks

end Value

namespace Excerpt

/-! ### Shielding -/

lemma shieldedAll_eq (xs : List Value) : shieldedAll xs = xs.map shielded := by
  induction xs with
  | nil => rfl
  | cons x xs ih => rw [shieldedAll, ih, List.map_cons]

lemma shieldedEntries_eq (es : List (Value × Value)) :
    shieldedEntries es = es.map fun e => (e.1, shielded e.2) := by
  induction es with
  | nil => rfl
  | cons e es ih => rw [shieldedEntries, ih, List.map_cons]

/-- Every kind of sequence is shown as a list. -/
lemma shielded_items {v : Value} {xs : List Value} (h : v.items? = some xs) :
    shielded v = .list (xs.map shielded) := by
  cases v <;> cases h <;> rw [shielded, shieldedAll_eq]

lemma shielded_dict (es : List (Value × Value)) :
    shielded (.dict es) = .dict (es.map fun e => (e.1, shielded e.2)) := by
  rw [shielded, shieldedEntries_eq]

/-- What holds of sequences and of mappings where it holds of the values in them, and of all that is
neither, holds of every value. Nothing is asked about keys. -/
lemma value_induction {P : Value → Prop}
    (items : ∀ v xs, v.items? = some xs → (∀ x ∈ xs, P x) → P v)
    (dict : ∀ es : List (Value × Value), (∀ e ∈ es, P e.2) → P (.dict es))
    (other : ∀ v, v.items? = none → v.isMapping = false → P v) : (v : Value) → P v
  | .list xs => items _ xs rfl fun x _ => value_induction items dict other x
  | .tuple xs => items _ xs rfl fun x _ => value_induction items dict other x
  | .set xs => items _ xs rfl fun x _ => value_induction items dict other x
  | .dict es => dict es fun e _ => value_induction items dict other e.2
  | .null | .bool _ | .int _ | .float _ | .text _ | .bytes _ | .date _ | .moment _ | .duration _
  | .handle _ | .inner .. => other _ rfl rfl
termination_by v => sizeOf v
decreasing_by
  all_goals simp only [Value.list.sizeOf_spec, Value.tuple.sizeOf_spec, Value.set.sizeOf_spec,
    Value.dict.sizeOf_spec]
  iterate 3
    have hitem := List.sizeOf_lt_of_mem ‹x ∈ xs›
    omega
  have hmember := List.sizeOf_lt_of_mem ‹e ∈ es›
  obtain ⟨k, v⟩ := e
  simp only [Prod.mk.sizeOf_spec] at hmember ⊢
  omega

/-- Of values that hold no others, only lengths of time leak. -/
lemma leaks_other {v : Value} (hv : v.items? = none) (hm : v.isMapping = false) :
    v.Leaks ↔ ∃ d, v = .duration d := by
  constructor
  · intro h
    cases h with
    | duration d => exact ⟨d, rfl⟩
    | item h' =>
      rw [hv] at h'
      cases h'
    | key | value => cases hm
  · rintro ⟨d, rfl⟩
    exact .duration d

/-- An excerpt shows what is standard, unless something leaks. -/
lemma standard_shielded_iff (v : Value) : (shielded v).Standard ↔ ¬v.Leaks := by
  induction v using value_induction with
  | items v xs hv ih =>
    rw [shielded_items hv, Value.standard_list, Value.leaks_items hv]
    simp only [List.forall_mem_map, not_exists, not_and]
    exact forall₂_congr ih
  | dict es ih =>
    rw [shielded_dict, Value.standard_dict, Value.leaks_dict]
    simp only [List.forall_mem_map, not_exists, not_and, not_or, not_not]
    exact forall₂_congr fun e he => and_congr_right' (ih e he)
  | other v hv hm =>
    rw [leaks_other hv hm]
    cases v with
    | duration d => exact iff_of_false nofun fun h => h ⟨d, rfl⟩
    | list | tuple | set => cases hv
    | dict => cases hm
    | _ => exact iff_of_true (by constructor) nofun

/-- What is shown once is shown as it is. -/
lemma shielded_shielded (v : Value) : shielded (shielded v) = shielded v := by
  induction v using value_induction with
  | items v xs hv ih =>
    rw [shielded_items hv, shielded_items rfl, List.map_map]
    exact congrArg Value.list (List.map_congr_left ih)
  | dict es ih =>
    rw [shielded_dict, shielded_dict, List.map_map]
    refine congrArg Value.dict (List.map_congr_left fun e he => ?_)
    exact congrArg (Prod.mk e.1) (ih e he)
  | other v hv hm =>
    cases v with
    | list | tuple | set => cases hv
    | dict => cases hm
    | _ => rfl

/-- A standard value is shown as it is. -/
lemma shielded_standard {v : Value} (h : v.Standard) : shielded v = v := by
  induction h with
  | list items ih =>
    rw [shielded_items rfl, List.map_congr_left ih, List.map_id']
  | dict keys values _ ih =>
    rw [shielded_dict, List.map_congr_left fun e he => congrArg (Prod.mk e.1) (ih e he),
      List.map_id']
  | _ => rfl

end Excerpt

/-! ### Writing -/

namespace Yaml.Written

/-- Nothing in what is written has a tag of its own. -/
inductive Standard : Written → Prop
  | scalar (tag : Tag) (text : List Char) (anchor : Option String) :
    Standard (.scalar tag text anchor)
  | reference (anchor : String) : Standard (.reference anchor)
  | sequence {ns : List Written} (items : ∀ n ∈ ns, Standard n) : Standard (.sequence none ns)
  | mapping {es : List (Written × Written)} (keys : ∀ e ∈ es, Standard e.1)
    (values : ∀ e ∈ es, Standard e.2) : Standard (.mapping es)

/-- All that a computation may give has a property. -/
def Gives {α : Type} (x : Writing α) (P : α → Prop) : Prop :=
  ∀ a n a', x.run a = .ok (n, a') → P n

namespace Gives

variable {α β : Type} {x : Writing α} {f : α → Writing β} {P : α → Prop} {Q : β → Prop}

lemma pure {n : α} (h : P n) : Gives (Pure.pure n) P := by
  intro a n' a' hrun
  cases hrun
  exact h

lemma bind (hx : Gives x P) (hf : ∀ n, P n → Gives (f n) Q) : Gives (x >>= f) Q := by
  intro a n a' h
  rw [StateT.run_bind] at h
  obtain ⟨⟨y, b⟩, hy, hn⟩ := except_bind_ok h
  exact hf y (hx a y b hy) b n a' hn

lemma anything (x : Writing α) : Gives x fun _ => True := fun _ _ _ _ => trivial

end Gives

lemma int_standard (i : Int) : Gives (int i) Standard :=
  (Gives.anything _).bind fun _ _ => .pure (.scalar ..)

lemma stamp_standard (text : String) : Gives (stamp text) Standard := by
  refine (Gives.anything _).bind fun s _ => (Gives.anything _).bind fun _ _ => ?_
  split
  · exact .pure (.scalar ..)
  · split
    · exact .pure (.reference _)
    · exact (Gives.anything _).bind fun _ _ => .pure (.scalar ..)

lemma ofValues_standard {xs : List Value} (h : ∀ x ∈ xs, Gives (ofValue x) Standard) :
    Gives (ofValues xs) fun ns => ∀ n ∈ ns, n.Standard := by
  induction xs with
  | nil => exact .pure nofun
  | cons x xs ih =>
    refine (h x List.mem_cons_self).bind fun n hn => ?_
    refine (ih fun y hy => h y (List.mem_cons_of_mem _ hy)).bind fun ns hns => .pure ?_
    exact List.forall_mem_cons.mpr ⟨hn, hns⟩

lemma ofEntries_standard {es : List (Value × Value)}
    (h : ∀ e ∈ es, Gives (ofValue e.1) Standard ∧ Gives (ofValue e.2) Standard) :
    Gives (ofEntries es) fun ns => ∀ n ∈ ns, n.1.Standard ∧ n.2.Standard := by
  induction es with
  | nil => exact .pure nofun
  | cons e es ih =>
    obtain ⟨hkey, hvalue⟩ := h e List.mem_cons_self
    refine hkey.bind fun k hk => hvalue.bind fun v hv => ?_
    refine (ih fun e' he => h e' (List.mem_cons_of_mem _ he)).bind fun ns hns => .pure ?_
    exact List.forall_mem_cons.mpr ⟨⟨hk, hv⟩, hns⟩

/-- What is standard is written without a tag of its own. -/
lemma ofValue_standard {v : Value} (h : v.Standard) : Gives (ofValue v) Standard := by
  induction h with
  | list items ih => exact (ofValues_standard ih).bind fun ns hns => .pure (.sequence hns)
  | dict keys values ihk ihv =>
    refine (ofEntries_standard fun e he => ⟨ihk e he, ihv e he⟩).bind fun ns hns => .pure ?_
    exact .mapping (fun n hn => (hns n hn).1) fun n hn => (hns n hn).2
  | int i => exact int_standard i
  | date | moment => exact stamp_standard _
  | _ => exact .pure (.scalar ..)

end Yaml.Written

namespace Excerpt

/-- **An excerpt is standard, unless something leaks.** What leaks is a length of time, or something
in a key. Where nothing does, nothing in the excerpt has a tag of its own; what is shown once is
shown as it is, and so is what is standard. -/
theorem excerpts_are_standard_iff (v : Value) :
    ((shielded v).Standard ↔ ¬v.Leaks) ∧
      (¬v.Leaks → ∀ indent origins s, lines indent origins v = .ok s →
        ∃ n : Yaml.Written, n.Standard ∧ s = indented indent (Yaml.document n)) ∧
      shielded (shielded v) = shielded v ∧ (v.Standard → shielded v = v) := by
  refine ⟨standard_shielded_iff v, fun hv indent origins s h => ?_, shielded_shielded v,
    shielded_standard⟩
  obtain ⟨text, hwrite, hs⟩ := except_bind_ok h
  obtain ⟨⟨n, a⟩, hn, hdocument⟩ := except_bind_ok hwrite
  cases hs
  cases hdocument
  exact ⟨n, Yaml.Written.ofValue_standard ((standard_shielded_iff v).mpr hv) _ n a hn, rfl⟩

/-- A page with its size. -/
def page : Value := .dict [(.text "page", .handle []), (.text "size", .tuple [.int 3, .int 4])]

theorem excerpts_are_standard_iff_page : (shielded page).Standard ∧ ¬page.Leaks ∧
    ∃ (s : String) (n : Yaml.Written), lines "" .unknown page = .ok s ∧ n.Standard ∧
      s = indented "" (Yaml.document n) := by
  have hstandard : (shielded page).Standard := by
    refine Value.standard_dict.mpr (List.forall_mem_cons.mpr ⟨⟨.text _, .text _⟩, ?_⟩)
    refine List.forall_mem_singleton.mpr ⟨.text _, Value.standard_list.mpr ?_⟩
    exact List.forall_mem_cons.mpr ⟨.int 3, List.forall_mem_singleton.mpr (.int 4)⟩
  obtain ⟨hiff, hwritten, -⟩ := excerpts_are_standard_iff page
  have hleaks : ¬page.Leaks := hiff.mp hstandard
  obtain ⟨s, hs⟩ : ∃ s, lines "" .unknown page = .ok s := ⟨_, rfl⟩
  obtain ⟨n, hn, hdocument⟩ := hwritten hleaks _ _ s hs
  exact ⟨hstandard, hleaks, s, n, hs, hn, hdocument⟩

/-- A length of time is shown under a tag of the runtime, and so is a key that is a tuple. -/
theorem waits_and_pairs_leak :
    (∃ n a, (Yaml.Written.ofValue (shielded (.dict [(.text "wait", .duration ⟨3000000⟩)]))).run
        (.ofPlaces []) =
          .ok (.mapping [(n, .sequence "!!python/object/apply:datetime.timedelta"
            [.scalar .int ['0'] none, .scalar .int ['3'] none, .scalar .int ['0'] none])], a)) ∧
      (∃ n a, (Yaml.Written.ofValue (shielded (.dict [(.tuple [.int 3, .int 4], .null)]))).run
        (.ofPlaces []) =
          .ok (.mapping [(.sequence "!!python/tuple"
            [.scalar .int ['3'] none, .scalar .int ['4'] none], n)], a)) ∧
      ¬(shielded (.dict [(.text "wait", .duration ⟨3000000⟩)])).Standard ∧
      ¬(shielded (.dict [(.tuple [.int 3, .int 4], .null)])).Standard := by
  refine ⟨⟨_, _, rfl⟩, ⟨_, _, rfl⟩, fun h => ?_, fun h => ?_⟩
  · cases ((Value.standard_dict.mp h) _ List.mem_cons_self).2
  · cases ((Value.standard_dict.mp h) _ List.mem_cons_self).1

end Excerpt

end BlockSuite
