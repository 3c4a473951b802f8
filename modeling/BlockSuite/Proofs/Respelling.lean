import BlockSuite.Proofs.Decimal
import BlockSuite.Proofs.Machine.Comparison

/-!
The spelling of numbers. Before a value is written as compact JSON, the whole numbers among its
floating point numbers become ints, so that it does not matter which of the two they were. Members
of sets, keys and the seconds of durations are left out of this: they are written with a fraction or
an exponent though they are whole.
-/

namespace BlockSuite

/-! ### Texts of floating point numbers -/

namespace Double

/-- A character in the text of a number: a digit, a sign, a point, or the letter of an exponent. -/
def isMark (c : Char) : Bool := c.isDigit || ['-', '+', '.', 'e'].contains c

/-- A text of digits, signs, points and letters of exponents. -/
def Marked (s : String) : Prop := ∀ c ∈ s.toList, isMark c = true

lemma marked_of_all {s : String} (h : s.toList.all isMark = true) : Marked s :=
  List.all_eq_true.mp h

lemma Marked.append {s t : String} (hs : Marked s) (ht : Marked t) : Marked (s ++ t) := by
  intro c hc
  rw [String.toList_append] at hc
  exact (List.mem_append.mp hc).elim (hs c) (ht c)

lemma marked_of_digits {cs : List Char} (h : ∀ c ∈ cs, c.isDigit = true) :
    Marked (String.ofList cs) := by
  intro c hc
  rw [String.toList_ofList] at hc
  rw [isMark, h c hc, Bool.true_or]

lemma marked_repr (n : Nat) : Marked (Nat.repr n) := by
  rw [Nat.repr_eq_ofList_toDigits]
  exact marked_of_digits fun c hc => Nat.isDigit_of_mem_toDigits (by decide) (by decide) hc

lemma marked_zeros (n : Nat) : Marked (Text.repeated '0' n) :=
  marked_of_digits fun _ hc => List.eq_of_mem_replicate hc ▸ rfl

/-- A text that shows that a number is a floating point number: it has a point in it or the letter
of an exponent. -/
structure Pointed (s : String) : Prop where
  marked : Marked s
  point : '.' ∈ s.toList ∨ 'e' ∈ s.toList

/-- Digits are laid out with a point or the letter of an exponent. -/
lemma layout_pointed (n : Nat) (exponent : Int) : Pointed (layout (Nat.repr n) exponent) := by
  have hdigits : ∀ c ∈ (Nat.repr n).toList, c.isDigit = true := by
    intro c hc
    rw [Nat.toList_repr] at hc
    exact Nat.isDigit_of_mem_toDigits (by decide) (by decide) hc
  have htake (k : Nat) : Marked (String.ofList ((Nat.repr n).toList.take k)) :=
    marked_of_digits fun c hc => hdigits c (List.mem_of_mem_take hc)
  have hdrop (k : Nat) : Marked (String.ofList ((Nat.repr n).toList.drop k)) :=
    marked_of_digits fun c hc => hdigits c (List.mem_of_mem_drop hc)
  have hdot : Marked "." := marked_of_all (by decide)
  rw [layout]
  split
  · split
    · have hzero : Marked "0." := marked_of_all (by decide)
      exact ⟨(hzero.append (marked_zeros _)).append (marked_repr n), .inl (by simp)⟩
    · split
      · have htail : Marked ".0" := marked_of_all (by decide)
        exact ⟨((marked_repr n).append (marked_zeros _)).append htail, .inl (by simp)⟩
      · exact ⟨((htake _).append hdot).append (hdrop _), .inl (by simp)⟩
  · have hfraction : Marked (if ((Nat.repr n).toList.drop 1).isEmpty then "" else
        "." ++ String.ofList ((Nat.repr n).toList.drop 1)) := by
      split
      · exact fun c hc => by simp at hc
      · exact hdot.append (hdrop 1)
    have hletter : Marked "e" := marked_of_all (by decide)
    have hsign (b : Prop) [Decidable b] : Marked (if b then "-" else "+") := by
      split <;> exact marked_of_all (by decide)
    have hexponent (k : Nat) : Marked (Text.padLeft '0' 2 (Nat.repr k)) :=
      (marked_zeros _).append (marked_repr k)
    exact ⟨((((htake 1).append hfraction).append hletter).append (hsign _)).append (hexponent _),
      .inr (by simp)⟩

lemma magnitude_pointed (units : Nat) (digits : Nat × Int) :
    Pointed (Json.magnitude units digits) := by
  rw [Json.magnitude]
  split
  · exact ⟨marked_of_all (by decide), .inl (by decide)⟩
  · exact layout_pointed digits.1 digits.2

/-- **A finite number is written with a point or an exponent.** -/
theorem render_pointed (negative : Bool) (units : Nat) :
    Pointed (finite negative units).render := by
  have hmagnitude := magnitude_pointed units (shortest units)
  rw [Json.render_eq]
  split
  · refine ⟨(marked_of_all (by decide)).append hmagnitude.marked, ?_⟩
    rw [String.toList_append]
    exact hmagnitude.point.imp (List.mem_append_right _) (List.mem_append_right _)
  · exact hmagnitude

/-- The number one. -/
def one : Double := .finite false perOne

lemma one_whole : one.toInt? = some 1 := by
  have hpos : 0 < perOne := by decide +kernel
  rw [one, toInt?, if_pos (Nat.mod_self _), Nat.div_self hpos]
  rfl

end Double

namespace Json

variable {v w : Value} {d : Double}

/-! ### Numbers in reduced values -/

/-- A floating point number stands in a value, as a number or as a key. -/
inductive Holds : Value → Double → Prop
  | number (d : Double) : Holds (.float d) d
  | item {xs : List Value} {x : Value} {d : Double} (member : x ∈ xs) (holds : Holds x d) :
    Holds (.list xs) d
  | part {xs : List Value} {x : Value} {d : Double} (member : x ∈ xs) (holds : Holds x d) :
    Holds (.tuple xs) d
  | key {es : List (Value × Value)} {d : Double} {v : Value} (member : (.float d, v) ∈ es) :
    Holds (.dict es) d
  | value {es : List (Value × Value)} {k v : Value} {d : Double} (member : (k, v) ∈ es)
    (holds : Holds v d) : Holds (.dict es) d

/-- A value keeps a floating point number when it is reduced. Whole numbers are replaced, if this is
asked for, but for those in sets, those that are keys, and the seconds of durations. -/
inductive Keeps : Bool → Value → Double → Prop
  | number {whole : Bool} {d : Double} (fraction : whole = true → d.toInt? = none) :
    Keeps whole (.float d) d
  | seconds {whole : Bool} {x : Duration} {d : Double} (total : x.totalSeconds = d) :
    Keeps whole (.duration x) d
  | item {whole : Bool} {xs : List Value} {x : Value} {d : Double} (member : x ∈ xs)
    (keeps : Keeps whole x d) : Keeps whole (.list xs) d
  | part {whole : Bool} {xs : List Value} {x : Value} {d : Double} (member : x ∈ xs)
    (keeps : Keeps whole x d) : Keeps whole (.tuple xs) d
  | element {whole : Bool} {xs : List Value} {x : Value} {d : Double} (member : x ∈ xs)
    (keeps : Keeps false x d) : Keeps whole (.set xs) d
  | key {whole : Bool} {es : List (Value × Value)} {d : Double} {v : Value}
    (member : (.float d, v) ∈ es) : Keeps whole (.dict es) d
  | value {whole : Bool} {es : List (Value × Value)} {k v : Value} {d : Double}
    (member : (k, v) ∈ es) (keeps : Keeps whole v d) : Keeps whole (.dict es) d

/-! ### Reducing, item by item -/

/-- Lists that correspond item by item have items of some kind together. -/
lemma exists_mem_congr {α β : Type} {R : α → β → Prop} {P : α → Prop} {Q : β → Prop} {xs : List α}
    {ys : List β} (h : List.Forall₂ R xs ys) (hPQ : ∀ x ∈ xs, ∀ y, R x y → (P x ↔ Q y)) :
    (∃ x ∈ xs, P x) ↔ ∃ y ∈ ys, Q y := by
  induction h with
  | nil => simp
  | cons hxy _ ih =>
    simp only [List.mem_cons, exists_eq_or_imp]
    rw [hPQ _ List.mem_cons_self _ hxy, ih fun x hx => hPQ x (List.mem_cons_of_mem _ hx)]

lemma forall₂_of_reduceAll {whole : Bool} {xs ys : List Value}
    (h : reduceAll whole xs = .ok ys) : List.Forall₂ (fun x y => reduce whole x = .ok y) xs ys := by
  induction xs generalizing ys with
  | nil => cases h; exact .nil
  | cons x rest ih =>
    obtain ⟨y, hy, h⟩ := except_bind_ok h
    obtain ⟨ys, hys, h⟩ := except_bind_ok h
    cases h
    exact .cons hy (ih hys)

lemma forall₂_of_reduceEntries {whole : Bool} {es fs : List (Value × Value)}
    (h : reduceEntries whole es = .ok fs) :
    List.Forall₂ (fun e f => e.1 = f.1 ∧ reduce whole e.2 = .ok f.2) es fs := by
  induction es generalizing fs with
  | nil => cases h; exact .nil
  | cons e rest ih =>
    obtain ⟨y, hy, h⟩ := except_bind_ok h
    obtain ⟨fs, hfs, h⟩ := except_bind_ok h
    cases h
    exact .cons ⟨rfl, hy⟩ (ih hfs)

lemma forall₂_of_reduceMembers {xs : List Value} {ps : List (String × Value)}
    (h : reduceMembers xs = .ok ps) :
    List.Forall₂ (fun x p => reduce false x = .ok p.2) xs ps := by
  induction xs generalizing ps with
  | nil => cases h; exact .nil
  | cons x rest ih =>
    obtain ⟨key, -, h⟩ := except_bind_ok h
    obtain ⟨y, hy, h⟩ := except_bind_ok h
    obtain ⟨ps, hps, h⟩ := except_bind_ok h
    cases h
    exact .cons hy (ih hps)

lemma mem_sortByText {ps : List (String × Value)} : v ∈ sortByText ps ↔ ∃ p ∈ ps, p.2 = v := by
  simp [sortByText]

lemma holds_number {e : Double} : Holds (.float e) d ↔ d = e :=
  ⟨fun h => by cases h; rfl, fun h => h ▸ .number _⟩

lemma holds_list {xs : List Value} : Holds (.list xs) d ↔ ∃ x ∈ xs, Holds x d :=
  ⟨fun h => by cases h with | item member holds => exact ⟨_, member, holds⟩,
    fun ⟨_, member, holds⟩ => .item member holds⟩

lemma holds_dict {es : List (Value × Value)} :
    Holds (.dict es) d ↔ ∃ e ∈ es, e.1 = .float d ∨ Holds e.2 d := by
  constructor
  · rintro (_ | _ | _ | member | ⟨member, holds⟩)
    · exact ⟨_, member, .inl rfl⟩
    · exact ⟨_, member, .inr holds⟩
  · rintro ⟨⟨k, v⟩, member, rfl | holds⟩
    · exact .key member
    · exact .value member holds

lemma keeps_duration {whole : Bool} {x : Duration} :
    Keeps whole (.duration x) d ↔ d = x.totalSeconds :=
  ⟨fun h => by cases h with | seconds total => exact total.symm, fun h => .seconds h.symm⟩

lemma keeps_list {whole : Bool} {xs : List Value} :
    Keeps whole (.list xs) d ↔ ∃ x ∈ xs, Keeps whole x d :=
  ⟨fun h => by cases h with | item member keeps => exact ⟨_, member, keeps⟩,
    fun ⟨_, member, keeps⟩ => .item member keeps⟩

lemma keeps_tuple {whole : Bool} {xs : List Value} :
    Keeps whole (.tuple xs) d ↔ ∃ x ∈ xs, Keeps whole x d :=
  ⟨fun h => by cases h with | part member keeps => exact ⟨_, member, keeps⟩,
    fun ⟨_, member, keeps⟩ => .part member keeps⟩

lemma keeps_set {whole : Bool} {xs : List Value} :
    Keeps whole (.set xs) d ↔ ∃ x ∈ xs, Keeps false x d :=
  ⟨fun h => by cases h with | element member keeps => exact ⟨_, member, keeps⟩,
    fun ⟨_, member, keeps⟩ => .element member keeps⟩

lemma keeps_dict {whole : Bool} {es : List (Value × Value)} :
    Keeps whole (.dict es) d ↔ ∃ e ∈ es, e.1 = .float d ∨ Keeps whole e.2 d := by
  constructor
  · intro h
    cases h with
    | key member => exact ⟨_, member, .inl rfl⟩
    | value member keeps => exact ⟨_, member, .inr keeps⟩
  · rintro ⟨⟨k, v⟩, member, rfl | keeps⟩
    · exact .key member
    · exact .value member keeps

lemma sizeOf_item {xs : List Value} {x : Value} (h : x ∈ xs) : sizeOf x < 1 + sizeOf xs :=
  Nat.lt_add_left 1 (List.sizeOf_lt_of_mem h)

lemma sizeOf_member {es : List (Value × Value)} {e : Value × Value} (h : e ∈ es) :
    sizeOf e.2 < 1 + sizeOf es := by
  have hlt := List.sizeOf_lt_of_mem h
  obtain ⟨k, v⟩ := e
  rw [Prod.mk.sizeOf_spec] at hlt
  change sizeOf v < 1 + sizeOf es
  omega

/-- **A reduced value holds the floating point numbers that the value keeps**, and no others. -/
theorem holds_iff_keeps {whole : Bool} {v w : Value} (h : reduce whole v = .ok w) (d : Double) :
    Holds w d ↔ Keeps whole v d := by
  cases v with
  | list xs =>
    obtain ⟨ys, hys, h⟩ := except_bind_ok h
    cases h
    rw [holds_list, keeps_list]
    exact (exists_mem_congr (forall₂_of_reduceAll hys) fun x _ y hxy =>
      (holds_iff_keeps hxy d).symm).symm
  | tuple xs =>
    obtain ⟨ys, hys, h⟩ := except_bind_ok h
    cases h
    rw [holds_list, keeps_tuple]
    exact (exists_mem_congr (forall₂_of_reduceAll hys) fun x _ y hxy =>
      (holds_iff_keeps hxy d).symm).symm
  | set xs =>
    obtain ⟨ps, hps, h⟩ := except_bind_ok h
    cases h
    have hsorted : (∃ y ∈ sortByText ps, Holds y d) ↔ ∃ p ∈ ps, Holds p.2 d := by
      simp only [mem_sortByText]
      exact ⟨fun ⟨_, ⟨p, hp, heq⟩, h⟩ => ⟨p, hp, heq ▸ h⟩, fun ⟨p, hp, h⟩ => ⟨_, ⟨p, hp, rfl⟩, h⟩⟩
    rw [holds_list, keeps_set, hsorted]
    exact (exists_mem_congr (forall₂_of_reduceMembers hps) fun x _ p hxp =>
      (holds_iff_keeps hxp d).symm).symm
  | dict es =>
    obtain ⟨fs, hfs, h⟩ := except_bind_ok h
    cases h
    rw [holds_dict, keeps_dict]
    exact (exists_mem_congr (forall₂_of_reduceEntries hfs) fun e he f hef =>
      or_congr (by rw [hef.1]) (holds_iff_keeps hef.2 d).symm).symm
  | float e =>
    rw [reduce] at h
    split at h
    · next i hi =>
      cases h
      refine ⟨fun h => (by cases h), fun h => ?_⟩
      cases h with
      | number fraction =>
        split at hi
        · next hwhole =>
          rw [fraction hwhole] at hi
          cases hi
        · cases hi
    · next hnone =>
      cases h
      refine ⟨fun h => ?_, fun h => ?_⟩
      · cases h
        exact .number fun hwhole => by rwa [if_pos hwhole] at hnone
      · cases h
        exact .number _
  | duration e =>
    cases h
    rw [holds_number, keeps_duration]
  | handle _ | inner _ _ _ =>
    obtain ⟨s, -, h⟩ := except_bind_ok h
    cases h
    exact ⟨fun h => (by cases h), fun h => by cases h⟩
  | null | bool _ | int _ | text _ | bytes _ | date _ | moment _ =>
    cases h
    exact ⟨fun h => (by cases h), fun h => by cases h⟩
termination_by sizeOf v
decreasing_by
  all_goals
    subst_vars
    simp only [Value.list.sizeOf_spec, Value.tuple.sizeOf_spec, Value.set.sizeOf_spec,
      Value.dict.sizeOf_spec]
    first
    | exact sizeOf_item (by assumption)
    | exact sizeOf_member (by assumption)

/-! ### Numbers in written texts -/

lemma writeAll_mem {layout : Layout} {depth : Nat} {xs : List Value} {ss : List String}
    (h : writeAll layout depth xs = .ok ss) {x : Value} (hx : x ∈ xs) :
    ∃ s ∈ ss, write layout depth x = .ok s := by
  induction xs generalizing ss with
  | nil => cases hx
  | cons y rest ih =>
    obtain ⟨s, hs, h⟩ := except_bind_ok h
    obtain ⟨ss, hss, h⟩ := except_bind_ok h
    cases h
    rcases List.mem_cons.mp hx with rfl | hx
    · exact ⟨s, List.mem_cons_self, hs⟩
    · obtain ⟨s', hs', hwrite⟩ := ih hss hx
      exact ⟨s', List.mem_cons_of_mem _ hs', hwrite⟩

lemma writeMembers_mem {layout : Layout} {depth : Nat} {es : List (Value × Value)}
    {ss : List String} (h : writeMembers layout depth es = .ok ss) {e : Value × Value}
    (he : e ∈ es) : ∃ key s, keyText layout e.1 = .ok key ∧ write layout depth e.2 = .ok s ∧
      ofText key ++ layout.colon ++ s ∈ ss := by
  induction es generalizing ss with
  | nil => cases he
  | cons y rest ih =>
    obtain ⟨key, hkey, h⟩ := except_bind_ok h
    obtain ⟨s, hs, h⟩ := except_bind_ok h
    obtain ⟨ss, hss, h⟩ := except_bind_ok h
    cases h
    rcases List.mem_cons.mp he with rfl | he
    · exact ⟨key, s, hkey, hs, List.mem_cons_self⟩
    · obtain ⟨key', s', hkey', hs', hmem⟩ := ih hss he
      exact ⟨key', s', hkey', hs', List.mem_cons_of_mem _ hmem⟩

lemma infix_joined {margin cs : List Char} {css : List (List Char)} (h : cs ∈ css) :
    cs <:+: joined margin css := by
  induction css with
  | nil => cases h
  | cons ds rest ih =>
    cases rest with
    | nil =>
      obtain rfl := List.mem_singleton.mp h
      exact ⟨[], [], by rw [joined_singleton, List.nil_append, List.append_nil]⟩
    | cons es rest =>
      rw [joined_cons]
      rcases List.mem_cons.mp h with rfl | h
      · exact (List.prefix_append _ _).isInfix
      · have hrest : cs <:+: margin ++ joined margin (es :: rest) :=
          (ih h).trans (List.suffix_append _ _).isInfix
        exact (hrest.trans (List.suffix_cons _ _).isInfix).trans (List.suffix_append _ _).isInfix

/-- What is written between brackets stands in the text. -/
lemma infix_wrap {depth : Nat} {opening closing s : String} {ss : List String} (h : s ∈ ss) :
    s.toList <:+: (Layout.compact.wrap depth opening closing ss).toList := by
  have hlayout : Layout.compact.Blank := trivial
  obtain ⟨inner, margin, outer, -, -, -, hwrap⟩ := toList_wrap hlayout depth opening closing ss
  rw [hwrap, ← List.append_assoc, ← List.append_assoc]
  have hpart : s.toList <:+: joined margin (ss.map String.toList) :=
    infix_joined (List.mem_map_of_mem h)
  exact (hpart.trans (List.suffix_append _ _).isInfix).trans (List.prefix_append _ _).isInfix

/-- The text of a finite number needs no escapes. -/
lemma infix_ofText {s : String} (h : Double.Marked s) : s.toList <:+: (ofText s).toList := by
  have hmarks : ∀ c ∈ ['-', '+', '.', 'e'], c ≠ '"' ∧ c ≠ '\\' ∧ 0x20 ≤ c.toNat := by simp
  have hverbatim : Verbatim s.toList := by
    intro c hc
    have hc := h c hc
    simp only [Double.isMark, Bool.or_eq_true, List.contains_eq_mem, decide_eq_true_eq] at hc
    rcases hc with hc | hc
    · have hdigit := Number.toNat_of_isDigit hc
      refine ⟨?_, ?_, by omega⟩ <;> rintro rfl <;> exact absurd hdigit (by decide)
    · exact hmarks c hc
  rw [toList_ofText, flatMap_escape hverbatim]
  exact (List.prefix_append _ _).isInfix.trans (List.suffix_cons _ _).isInfix

/-- **A finite number that a value holds stands in its compact JSON.** -/
theorem infix_of_holds (h : Holds v d) (hd : Double.Marked (ofDouble d)) {depth : Nat} {s : String}
    (hs : write .compact depth v = .ok s) : (ofDouble d).toList <:+: s.toList := by
  induction h generalizing depth s with
  | number d =>
    cases hs
    exact List.infix_rfl
  | item member _ ih | part member _ ih =>
    obtain ⟨ss, hss, hs⟩ := except_bind_ok hs
    cases hs
    obtain ⟨t, ht, hwrite⟩ := writeAll_mem hss member
    exact (ih hd hwrite).trans (infix_wrap ht)
  | key member =>
    obtain ⟨ss, hss, hs⟩ := except_bind_ok hs
    cases hs
    obtain ⟨key, t, hkey, -, ht⟩ := writeMembers_mem hss member
    cases hkey
    refine ((infix_ofText hd).trans ?_).trans (infix_wrap ht)
    rw [String.append_assoc, String.toList_append]
    exact (List.prefix_append _ _).isInfix
  | value member _ ih =>
    obtain ⟨ss, hss, hs⟩ := except_bind_ok hs
    cases hs
    obtain ⟨key, t, -, hwrite, ht⟩ := writeMembers_mem hss member
    refine ((ih hd hwrite).trans ?_).trans (infix_wrap ht)
    rw [String.toList_append]
    exact (List.suffix_append _ _).isInfix

end Json

namespace Value

variable {v v' : Value}

/-- A value is respelled: some of the whole numbers among its floating point numbers have become
ints. They may stand anywhere, or outside of sets and among no keys. -/
inductive Respelled (everywhere : Bool) : Value → Value → Prop
  | same (v : Value) : Respelled everywhere v v
  | number {d : Double} {i : Int} (whole : d.toInt? = some i) :
    Respelled everywhere (.float d) (.int i)
  | list {xs ys : List Value} (length : xs.length = ys.length)
    (items : ∀ i (hi : i < xs.length) (hj : i < ys.length), Respelled everywhere xs[i] ys[i]) :
    Respelled everywhere (.list xs) (.list ys)
  | tuple {xs ys : List Value} (length : xs.length = ys.length)
    (items : ∀ i (hi : i < xs.length) (hj : i < ys.length), Respelled everywhere xs[i] ys[i]) :
    Respelled everywhere (.tuple xs) (.tuple ys)
  | set {xs ys : List Value} (all : everywhere = true) (length : xs.length = ys.length)
    (items : ∀ i (hi : i < xs.length) (hj : i < ys.length), Respelled everywhere xs[i] ys[i]) :
    Respelled everywhere (.set xs) (.set ys)
  | dict {es fs : List (Value × Value)} (length : es.length = fs.length)
    (keys : ∀ i (hi : i < es.length) (hj : i < fs.length), Respelled everywhere es[i].1 fs[i].1)
    (fixed : everywhere = false → ∀ i (hi : i < es.length) (hj : i < fs.length),
      es[i].1 = fs[i].1)
    (values : ∀ i (hi : i < es.length) (hj : i < fs.length), Respelled everywhere es[i].2 fs[i].2) :
    Respelled everywhere (.dict es) (.dict fs)

lemma reduceAll_congr {whole : Bool} {xs ys : List Value} (length : xs.length = ys.length)
    (h : ∀ i (hi : i < xs.length) (hj : i < ys.length),
      Json.reduce whole xs[i] = Json.reduce whole ys[i]) :
    Json.reduceAll whole xs = Json.reduceAll whole ys := by
  induction xs generalizing ys with
  | nil =>
    cases ys with
    | nil => rfl
    | cons y ys => cases length
  | cons x xs ih =>
    cases ys with
    | nil => cases length
    | cons y ys =>
      have hhead : Json.reduce whole x = Json.reduce whole y := h 0 (by simp) (by simp)
      have htail : Json.reduceAll whole xs = Json.reduceAll whole ys :=
        ih (by simpa using length) fun i hi hj => h (i + 1) (by simpa using hi) (by simpa using hj)
      rw [Json.reduceAll, Json.reduceAll, hhead, htail]

lemma reduceEntries_congr {whole : Bool} {es fs : List (Value × Value)}
    (length : es.length = fs.length)
    (h : ∀ i (hi : i < es.length) (hj : i < fs.length),
      es[i].1 = fs[i].1 ∧ Json.reduce whole es[i].2 = Json.reduce whole fs[i].2) :
    Json.reduceEntries whole es = Json.reduceEntries whole fs := by
  induction es generalizing fs with
  | nil =>
    cases fs with
    | nil => rfl
    | cons f fs => cases length
  | cons e es ih =>
    cases fs with
    | nil => cases length
    | cons f fs =>
      obtain ⟨hkey, hvalue⟩ : e.1 = f.1 ∧ Json.reduce whole e.2 = Json.reduce whole f.2 :=
        h 0 (by simp) (by simp)
      have htail : Json.reduceEntries whole es = Json.reduceEntries whole fs :=
        ih (by simpa using length) fun i hi hj => h (i + 1) (by simpa using hi) (by simpa using hj)
      rw [Json.reduceEntries, Json.reduceEntries, hkey, hvalue, htail]

/-- Values that are respelled outside of sets and keys are reduced to the same. -/
lemma Respelled.reduce (h : v.Respelled false v') : Json.reduce true v = Json.reduce true v' := by
  induction h with
  | same => rfl
  | number whole =>
    rw [Json.reduce, if_pos rfl, whole]
    rfl
  | list length _ ih => rw [Json.reduce, Json.reduce, reduceAll_congr length ih]
  | tuple length _ ih => rw [Json.reduce, Json.reduce, reduceAll_congr length ih]
  | set all => cases all
  | dict length _ fixed _ _ ih =>
    rw [Json.reduce, Json.reduce,
      reduceEntries_congr length fun i hi hj => ⟨fixed rfl i hi hj, ih i hi hj⟩]

lemma Respelled.toJson (h : v.Respelled false v') : v.toJson = v'.toJson := by
  rw [Value.toJson, Value.toJson, h.reduce]

lemma Respelled.toText (h : v.Respelled false v') : v.toText = v'.toText := by
  have hjson := h.toJson
  cases h with
  | same => rfl
  | number whole =>
    rw [Value.toText, whole]
    rfl
  | list | tuple | set | dict => exact hjson

/-- **Where a whole number stands among items and members, it does not matter whether it is an int
or a floating point number**: the compact JSON is the same, and so is the text that replaces a
placeholder, and the two values are equal. In the compact JSON of a value just those whole numbers
are floating point numbers, with a point or an exponent, that are in a set, keys, or the seconds of
a duration. -/
theorem whole_numbers_are_spelled_alike (v : Value) :
    (∀ v', v.Respelled false v' →
      v.toJson = v'.toJson ∧ v.toText = v'.toText ∧
        ∀ s, v.toJson = .ok s → Machine.Decides "eq" v v' True) ∧
    ∀ s, v.toJson = .ok s →
      ∃ w, Json.reduce true v = .ok w ∧ Json.write .compact 0 w = .ok s ∧
        ∀ d i, d.toInt? = some i → (Json.Holds w d ↔ Json.Keeps true v d) ∧
          (Json.Keeps true v d →
            Double.Pointed (Json.ofDouble d) ∧ (Json.ofDouble d).toList <:+: s.toList) := by
  constructor
  · intro v' h
    refine ⟨h.toJson, h.toText, fun s hs m layers nested step c hcompares => ⟨true, by simp, ?_⟩⟩
    have hsame : Library.sameJson v v' = .ok true := by
      rw [Library.sameJson, ← h.toJson, hs]
      simp [bind, Except.bind, pure, Except.pure]
    exact hcompares.finds rfl rfl hsame
  · intro s hs
    obtain ⟨w, hw, hwrite⟩ := except_bind_ok hs
    refine ⟨w, hw, hwrite, fun d i hd => ⟨Json.holds_iff_keeps hw d, fun hkeeps => ?_⟩⟩
    have hpointed : Double.Pointed (Json.ofDouble d) := by
      cases d with
      | finite negative units => exact Double.render_pointed negative units
      | _ => cases hd
    exact ⟨hpointed,
      Json.infix_of_holds ((Json.holds_iff_keeps hw d).mpr hkeeps) hpointed.marked hwrite⟩

/-- A measurement with some number in a list and in a tuple. -/
def measured (n : Value) : Value := .record [("at", .list [n, .null]), ("size", .tuple [n])]

lemma measured_respelled : (measured (.float .one)).Respelled false (measured (.int 1)) := by
  have hnumber : (Value.float .one).Respelled false (.int 1) := .number Double.one_whole
  refine .dict rfl ?_ ?_ ?_
  · exact fun i hi hj => match i, hi with
      | 0, _ => .same _
      | 1, _ => .same _
  · exact fun _ i hi hj => match i, hi with
      | 0, _ => rfl
      | 1, _ => rfl
  · exact fun i hi hj => match i, hi with
      | 0, _ => .list rfl fun i hi hj => match i, hi with
        | 0, _ => hnumber
        | 1, _ => .same _
      | 1, _ => .tuple rfl fun i hi hj => match i, hi with
        | 0, _ => hnumber

theorem whole_numbers_are_spelled_alike_measured :
    (measured (.float .one)).Respelled false (measured (.int 1)) ∧
      (measured (.float .one)).toJson = (measured (.int 1)).toJson ∧
      (measured (.float .one)).toText = (measured (.int 1)).toText := by
  obtain ⟨hjson, htext, -⟩ := (whole_numbers_are_spelled_alike _).1 _ measured_respelled
  exact ⟨measured_respelled, hjson, htext⟩

/-- A set with the whole number one has two spellings, and so has a mapping with one as its key. -/
theorem ones_apart_are_spelled_twice :
    ((Value.set [.float .one]).Respelled true (.set [.int 1]) ∧
      (Value.set [.float .one]).toJson ≠ (Value.set [.int 1]).toJson) ∧
    ((Value.dict [(.float .one, .null)]).Respelled true (.dict [(.int 1, .null)]) ∧
      (Value.dict [(.float .one, .null)]).toJson ≠ (Value.dict [(.int 1, .null)]).toJson) := by
  have hnumber : (Value.float .one).Respelled true (.int 1) := .number Double.one_whole
  have hpointed : Double.Pointed (Json.ofDouble .one) := Double.render_pointed false Double.perOne
  -- Where the floating point number is kept, there is a point or an exponent in the text.
  have hspelled {v : Value} {s : String} (hkeeps : Json.Keeps true v .one) (hs : v.toJson = .ok s) :
      '.' ∈ s.toList ∨ 'e' ∈ s.toList := by
    obtain ⟨w, hw, hwrite⟩ := except_bind_ok hs
    have hpart := Json.infix_of_holds ((Json.holds_iff_keeps hw .one).mpr hkeeps) hpointed.marked
      hwrite
    exact hpointed.point.imp (hpart.mem ·) (hpart.mem ·)
  have hset : (Value.set [.int 1]).toJson = .ok "[1]" := by decide +kernel
  have hdict : (Value.dict [(.int 1, .null)]).toJson = .ok "\x7b\"1\":null\x7d" := by decide +kernel
  refine ⟨⟨.set rfl rfl fun i hi hj => match i, hi with | 0, _ => hnumber, fun h => ?_⟩,
    ⟨.dict rfl (fun i hi hj => match i, hi with | 0, _ => hnumber) (fun h => nomatch h)
      (fun i hi hj => match i, hi with | 0, _ => .same _), fun h => ?_⟩⟩
  · rw [hset] at h
    exact absurd (hspelled (.element List.mem_cons_self (.number nofun)) h) (by decide)
  · rw [hdict] at h
    exact absurd (hspelled (.key List.mem_cons_self) h) (by decide)

end Value

end BlockSuite
