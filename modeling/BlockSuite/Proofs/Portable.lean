import BlockSuite.Proofs.Spelling
import BlockSuite.Value.Coerce

/-!
Values that JSON carries: nothing, truth values, whole numbers that are not too long, texts, lists
and mappings from texts. Written as compact JSON and read again, such a value comes back as it was,
with its members in their order.
-/

namespace BlockSuite

namespace Value

/-- Values that JSON carries. -/
inductive Portable : Value → Prop
  | null : Portable .null
  | bool (b : Bool) : Portable (.bool b)
  | int {i : Int} (short : Number.isShort i = true) : Portable (.int i)
  | text (s : String) : Portable (.text s)
  | list {xs : List Value} (items : ∀ x ∈ xs, Portable x) : Portable (.list xs)
  | dict {d : Dict Value} (keys : d.keys.Nodup) (members : ∀ e ∈ d, Portable e.2) :
    Portable (.record d)

/-- Members that stay as they are are reduced to themselves. -/
lemma reduceAll_same {whole : Bool} {xs : List Value} (h : ∀ x ∈ xs, Json.reduce whole x = .ok x) :
    Json.reduceAll whole xs = .ok xs := by
  induction xs with
  | nil => rfl
  | cons x rest ih =>
    rw [Json.reduceAll, h x List.mem_cons_self, ih fun y hy => h y (List.mem_cons_of_mem _ hy)]
    rfl

lemma reduceEntries_same {whole : Bool} {es : List (Value × Value)}
    (h : ∀ e ∈ es, Json.reduce whole e.2 = .ok e.2) : Json.reduceEntries whole es = .ok es := by
  induction es with
  | nil => rfl
  | cons e rest ih =>
    rw [Json.reduceEntries, h e List.mem_cons_self, ih fun y hy => h y (List.mem_cons_of_mem _ hy)]
    rfl

/-- Nothing in a value that JSON carries has to be replaced before it is written. -/
lemma Portable.reduce {v : Value} (h : v.Portable) (whole : Bool) :
    Json.reduce whole v = .ok v := by
  induction h with
  | null | bool | int | text => rfl
  | list items ih =>
    rw [Json.reduce, reduceAll_same ih]
    rfl
  | @dict d keys members ih =>
    have hentries : ∀ e ∈ Arguments.members d, Json.reduce whole e.2 = .ok e.2 := by
      intro e he
      obtain ⟨x, hx, rfl⟩ := List.mem_map.mp he
      exact ih x hx
    change Json.reduce whole (.dict (Arguments.members d)) = .ok (.dict (Arguments.members d))
    rw [Json.reduce, reduceEntries_same hentries]
    rfl

end Value

namespace Json

variable {v : Value}

/-! ### Writing and reading -/

/-- Everything that a layout sets members apart with is blank. -/
def Layout.Blank : Layout → Prop
  | compact | spaced => True
  | indented indent => Json.Blank indent.toList

lemma blank_of_all {cs : List Char} (h : cs.all isSpace = true) : Json.Blank cs :=
  List.all_eq_true.mp h

lemma blank_margin {indent : String} (h : Json.Blank indent.toList) (n : Nat) :
    Json.Blank ("\n" ++ String.join (List.replicate n indent)).toList := by
  intro c hc
  rw [String.toList_append, String.toList_join, List.mem_append] at hc
  rcases hc with hc | hc
  · rw [show "\n".toList = ['\n'] by simp, List.mem_singleton] at hc
    rw [hc]
    rfl
  · obtain ⟨s, hs, hc⟩ := List.mem_flatMap.mp hc
    exact h c (List.eq_of_mem_replicate hs ▸ hc)

/-- Written values between brackets are joined by commas, with blanks around them. -/
lemma toList_wrap {layout : Layout} (hlayout : layout.Blank) (depth : Nat)
    (opening closing : String) (ss : List String) : ∃ inner margin outer,
      Blank inner ∧ Blank margin ∧ Blank outer ∧
        (layout.wrap depth opening closing ss).toList = opening.toList ++
          (inner ++ (joined margin (ss.map String.toList) ++ (outer ++ closing.toList))) := by
  have hnil : Blank [] := nofun
  have hspace : Blank [' '] := blank_of_all rfl
  unfold Layout.wrap
  split
  · next h =>
    rw [List.isEmpty_iff] at h
    subst h
    exact ⟨[], [], [], hnil, hnil, hnil, by simp [joined]⟩
  · cases layout with
    | compact => exact ⟨[], [], [], hnil, hnil, hnil, by simp [joined, String.toList_intercalate]⟩
    | spaced =>
      exact ⟨[], [' '], [], hnil, hspace, hnil, by simp [joined, String.toList_intercalate]⟩
    | indented indent =>
      have hmargin (n : Nat) := blank_margin hlayout n
      exact ⟨_, _, _, hmargin (depth + 1), hmargin (depth + 1), hmargin depth,
        by simp [joined, String.toList_intercalate]⟩

/-- A reduced value is written as a text that spells a value. -/
def Writes (u v : Value) : Prop :=
  ∀ layout : Layout, layout.Blank → ∀ depth, ∃ s,
    write layout depth u = .ok s ∧ Spells s.toList v

lemma writeAll_spells {layout : Layout} (hlayout : layout.Blank) {us vs : List Value}
    (h : List.Forall₂ Writes us vs) (depth : Nat) :
    ∃ ss, writeAll layout depth us = .ok ss ∧ List.Forall₂ Spells (ss.map String.toList) vs := by
  induction h with
  | nil => exact ⟨[], rfl, .nil⟩
  | cons hx _ ih =>
    obtain ⟨s, hwrite, hs⟩ := hx layout hlayout depth
    obtain ⟨ss, hrest, hss⟩ := ih
    refine ⟨s :: ss, ?_, .cons hs hss⟩
    rw [writeAll, hwrite, hrest]
    rfl

/-- A list of values is written as their list. -/
lemma writes_list {us vs : List Value} (h : List.Forall₂ Writes us vs) :
    Writes (.list us) (.list vs) := by
  intro layout hlayout depth
  obtain ⟨ss, hwrite, hss⟩ := writeAll_spells hlayout h (depth + 1)
  obtain ⟨inner, margin, outer, hinner, hmargin, houter, hwrap⟩ :=
    toList_wrap hlayout depth "[" "]" ss
  refine ⟨layout.wrap depth "[" "]" ss, ?_, hwrap ▸ spells_list hinner hmargin houter hss⟩
  rw [write, hwrite]
  rfl

/-- A member is written with a text as its key. -/
def WritesMember (e : Value × Value) (m : String × Value) : Prop :=
  (∀ layout, keyText layout e.1 = .ok m.1) ∧ Writes e.2 m.2

lemma writeMembers_spells {layout : Layout} (hlayout : layout.Blank) {es : List (Value × Value)}
    {d : Dict Value} (h : List.Forall₂ WritesMember es d) (depth : Nat) :
    ∃ ss, writeMembers layout depth es = .ok ss ∧
      List.Forall₂ SpellsMember (ss.map String.toList) d := by
  induction h with
  | nil => exact ⟨[], rfl, .nil⟩
  | @cons e m es d he _ ih =>
    obtain ⟨s, hwrite, hs⟩ := he.2 layout hlayout depth
    obtain ⟨ss, hrest, hss⟩ := ih
    obtain ⟨gap, hgap, hcolon⟩ : ∃ gap, Blank gap ∧ layout.colon.toList = ':' :: gap := by
      cases layout with
      | compact => exact ⟨[], nofun, by simp [Layout.colon]⟩
      | spaced | indented => exact ⟨[' '], blank_of_all rfl, by simp [Layout.colon]⟩
    refine ⟨(ofText m.1 ++ layout.colon ++ s) :: ss, ?_,
      .cons ⟨gap, s.toList, hgap, ?_, hs⟩ hss⟩
    · rw [writeMembers, he.1, hwrite, hrest]
      rfl
    · simp [hcolon]

/-- Members are written as their mapping; of members with one key the last one counts. -/
lemma writes_mapping {es : List (Value × Value)} {d : Dict Value}
    (h : List.Forall₂ WritesMember es d) :
    Writes (.dict es) (Value.mappingOf (Arguments.members d)) := by
  intro layout hlayout depth
  obtain ⟨ss, hwrite, hss⟩ := writeMembers_spells hlayout h (depth + 1)
  obtain ⟨inner, margin, outer, hinner, hmargin, houter, hwrap⟩ :=
    toList_wrap hlayout depth "\x7b" "\x7d" ss
  refine ⟨layout.wrap depth "\x7b" "\x7d" ss, ?_,
    hwrap ▸ spells_mapping hinner hmargin houter hss⟩
  rw [write, hwrite]
  rfl

lemma writes_null : Writes .null .null := fun _ _ _ => ⟨"null", rfl, spells_null⟩

lemma writes_bool (b : Bool) : Writes (.bool b) (.bool b) := fun _ _ _ => ⟨_, rfl, spells_bool b⟩

lemma writes_text (s : String) : Writes (.text s) (.text s) := fun _ _ _ => ⟨_, rfl, spells_text s⟩

lemma writes_int {i : Int} (short : Number.isShort i = true) : Writes (.int i) (.int i) := by
  refine fun _ _ _ => ⟨_, Number.intText_short short, ?_⟩
  rw [String.toList_ofList]
  exact spells_int short

/-- **A value that JSON carries is written as a text that spells it.** -/
theorem writes_portable (h : v.Portable) : Writes v v := by
  induction h with
  | null => exact writes_null
  | bool b => exact writes_bool b
  | int short => exact writes_int short
  | text s => exact writes_text s
  | list _ ih => exact writes_list (List.forall₂_same.mpr ih)
  | @dict d keys _ ih =>
    have hmembers : List.Forall₂ WritesMember (Arguments.members d) d :=
      List.forall₂_map_left_iff.mpr (List.forall₂_same.mpr fun e he => ⟨fun _ => rfl, ih e he⟩)
    have hwrites := writes_mapping hmembers
    rwa [Value.mappingOf_members keys] at hwrites

/-- A text that spells a value is read as the value, blanks behind it aside. -/
lemma Spells.read_blank {s tail : String} (h : Spells s.toList v) (htail : Blank tail.toList) :
    Json.read (s ++ tail) = .ok v := by
  have hfollows : Follows tail.toList := List.append_nil tail.toList ▸ htail.follows nofun
  have hread := h.reads tail.toList hfollows (2 * (s.toList ++ tail.toList).length + 2)
    (by rw [List.length_append]; omega)
  have hskip := (h.starts.append tail.toList).skipSpace
  have hend : skipSpace tail.toList = [] := List.append_nil tail.toList ▸ htail.skipSpace []
  obtain ⟨c, cs, hcs, hopens⟩ := h.starts.append tail.toList
  have hmark : ¬c.toNat = 0xFEFF := by
    simp only [opens, Bool.and_eq_true, bne_iff_ne] at hopens
    exact hopens.2
  rw [hcs] at hread hskip
  rw [Json.read, String.toList_append, hcs]
  dsimp only
  rw [if_neg hmark, hskip, hread]
  simp only [bind, Except.bind, hend]
  rfl

lemma Spells.read {s : String} (h : Spells s.toList v) : Json.read s = .ok v := by
  have hread : Json.read (s ++ "") = .ok v := h.read_blank nofun
  rwa [String.append_empty] at hread

end Json

namespace Value

variable {v w : Value}

/-- **A value that JSON carries comes back** from its compact JSON. -/
theorem Portable.read_toJson (h : v.Portable) : ∃ s, v.toJson = .ok s ∧ Json.read s = .ok v := by
  obtain ⟨s, hwrite, hs⟩ := Json.writes_portable h .compact trivial 0
  refine ⟨s, ?_, hs.read⟩
  rw [toJson, h.reduce]
  exact hwrite

/-- Values that JSON carries have different compact JSON. -/
theorem Portable.toJson_injective (hv : v.Portable) (hw : w.Portable) (h : v.toJson = w.toJson) :
    v = w := by
  obtain ⟨s, hs, hv⟩ := hv.read_toJson
  obtain ⟨t, ht, hw⟩ := hw.read_toJson
  obtain rfl : s = t := Except.ok.inj (hs.symm.trans (h.trans ht))
  exact Except.ok.inj (hv.symm.trans hw)

end Value

end BlockSuite
