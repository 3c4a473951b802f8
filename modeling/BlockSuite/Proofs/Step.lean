import Mathlib.Data.List.Forall2
import BlockSuite.Step
import BlockSuite.Proofs.Dict

/-!
Steps survive being written and read again. Whatever a document has for a step, the step that is
read from it has names that are bound once, and literals that are no steps themselves, however near
they come to it. Such a step is read from what it is written as, and so is every step inside it, by
induction on the tree; what its steps are labelled with has no part in this.
-/

namespace BlockSuite

/-! ### Checks that succeed -/

namespace Checked

variable {α β : Type} {a : Checked α} {b : Checked β} {x : α} {y : β}

lemma both_eq_ok : a.both b = .ok (x, y) ↔ a = .ok x ∧ b = .ok y := by
  cases a <;> cases b <;> simp [both]

lemma map_eq_ok {f : α → β} : a.map f = .ok y ↔ ∃ x, a = .ok x ∧ f x = y := by
  cases a <;> simp [Except.map]

lemma within_eq_ok {key : Key} : a.within key = .ok x ↔ a = .ok x := by
  cases a <;> simp [within, Except.mapError]

lemma applied_eq_ok {f : Checked (α → β)} :
    (f.both a).map (fun p => p.1 p.2) = .ok y ↔ ∃ g x, f = .ok g ∧ a = .ok x ∧ g x = y := by
  rw [map_eq_ok]
  constructor
  · rintro ⟨⟨g, x⟩, h, rfl⟩
    exact ⟨g, x, (both_eq_ok.mp h).1, (both_eq_ok.mp h).2, rfl⟩
  · rintro ⟨g, x, hg, hx, rfl⟩
    exact ⟨(g, x), both_eq_ok.mpr ⟨hg, hx⟩, rfl⟩

lemma consed_eq_ok {as : Checked (List α)} {xs : List α} :
    (a.both as).map (fun p => p.1 :: p.2) = .ok xs ↔ ∃ x rest, a = .ok x ∧ as = .ok rest ∧
      xs = x :: rest := by
  rw [map_eq_ok]
  constructor
  · rintro ⟨⟨x, rest⟩, h, rfl⟩
    exact ⟨x, rest, (both_eq_ok.mp h).1, (both_eq_ok.mp h).2, rfl⟩
  · rintro ⟨x, rest, hx, hrest, rfl⟩
    exact ⟨(x, rest), both_eq_ok.mpr ⟨hx, hrest⟩, rfl⟩

end Checked

namespace Check

variable {v : Value} {s : String}

lemma nonemptyText_ok (h : nonemptyText v = .ok s) : s ≠ "" := by
  unfold nonemptyText at h
  cases ht : text v with
  | error e =>
    rw [ht] at h
    cases h
  | ok t =>
    rw [ht] at h
    rcases Bool.eq_false_or_eq_true t.isEmpty with he | he
    · simp [bind, Except.bind, he, Checked.refuse] at h
    · simp only [bind, Except.bind, he, Bool.false_eq_true, if_false] at h
      cases h
      simpa using he

/-- A text that is taken under a condition meets it. -/
lemma conditional_ok {P : String → Bool} {cause : Cause}
    (h : (do let s ← text v; if P s then return s else Checked.refuse cause v) = Except.ok s) :
    P s = true := by
  cases ht : text v with
  | error e =>
    rw [ht] at h
    cases h
  | ok t =>
    rw [ht] at h
    change (if P t then pure t else Checked.refuse cause v) = Except.ok s at h
    split at h
    · next hP =>
      cases h
      exact hP
    · cases h

lemma blockType_ok (h : blockType v = .ok s) : Name.isBlockType s = true := conditional_ok h

lemma variableName_ok (h : variableName v = .ok s) : Name.isVariable s = true := conditional_ok h

lemma itemsFrom_ok {α : Type} {check : Check α} {xs : List Value} {as : List α} {start : Nat}
    (h : itemsFrom check start xs = .ok as) : ∀ a ∈ as, ∃ v, check v = .ok a := by
  induction xs generalizing start as with
  | nil =>
    cases h
    nofun
  | cons v rest ih =>
    obtain ⟨a, as, ha, has, rfl⟩ := Checked.consed_eq_ok.mp h
    exact List.forall_mem_cons.mpr ⟨⟨v, Checked.within_eq_ok.mp ha⟩, ih has⟩

/-- The items of a list that is read are read one by one. -/
lemma list_ok {α : Type} {check : Check α} {as : List α} (h : list check v = .ok as) :
    ∀ a ∈ as, ∃ v, check v = .ok a := by
  unfold list at h
  split at h
  · exact itemsFrom_ok h
  · cases h

lemma nonemptyText_text (h : s ≠ "") : nonemptyText (.text s) = .ok s := by
  have he : s.isEmpty = false := by simpa using h
  simp [nonemptyText, text, bind, Except.bind, he, pure, Except.pure]

lemma blockType_text (h : Name.isBlockType s = true) : blockType (.text s) = .ok s := by
  simp [blockType, text, bind, Except.bind, h, pure, Except.pure]

end Check

namespace Form

variable {α : Type} {f : Form α} {es : List (Value × Value)} {x : α}

lemma map_eq_ok {β : Type} {g : α → β} {y : β} :
    ((g <$> f) es).result = .ok y ↔ ∃ x, (f es).result = .ok x ∧ g x = y :=
  Checked.map_eq_ok

lemma seq_eq_ok {β : Type} {g : Form (α → β)} {y : β} : ((g <*> f) es).result = .ok y ↔
    ∃ h x, (g es).result = .ok h ∧ (f es).result = .ok x ∧ h x = y :=
  Checked.applied_eq_ok

lemma map_ok {β : Type} (g : α → β) (hx : (f es).result = .ok x) :
    ((g <$> f) es).result = .ok (g x) := map_eq_ok.mpr ⟨x, hx, rfl⟩

lemma seq_ok {β : Type} {g : Form (α → β)} {h : α → β} (hg : (g es).result = .ok h)
    (hx : (f es).result = .ok x) : ((g <*> f) es).result = .ok (h x) :=
  seq_eq_ok.mpr ⟨h, x, hg, hx, rfl⟩

lemma field_ok {names : List String} {check : Check α} {default : α}
    (h : (field names check default es).result = .ok x) : x = default ∨ ∃ v, check v = .ok x := by
  unfold field at h
  split at h
  · exact .inr ⟨_, Checked.within_eq_ok.mp h⟩
  · cases h
    exact .inl rfl

lemma required_ok {name : String} {check : Check α}
    (h : (required name check es).result = .ok x) : ∃ v, check v = .ok x := by
  unfold required at h
  split at h
  · exact ⟨_, Checked.within_eq_ok.mp h⟩
  · cases h

lemma required_of_member {name : String} {check : Check α} {v : Value}
    (hv : Value.member? es name = some v) (hx : check v = .ok x) :
    (required name check es).result = .ok x := by
  simp [required, hv, hx]

lemma known_eq_ok {name : String} {result : Option (Checked α)} {default : α} :
    (known name result default es).result = .ok x ↔
      result = none ∧ x = default ∨ result = some (.ok x) := by
  cases result with
  | none => simp [known, eq_comm]
  | some r => simp [known, Checked.within_eq_ok]

lemma close_eq_ok : f.close es = .ok x ↔ (f es).result = .ok x ∧ extras (f es).used es = [] := by
  unfold close
  dsimp only
  cases (f es).result with
  | error e => cases extras (f es).used es <;> simp
  | ok y => cases extras (f es).used es <;> simp

end Form

namespace Step

variable {s n : Step} {v : Value}

/-! ### Trees of steps -/

lemma mem_walkInputs {params : List (String × Input)} :
    s ∈ walkInputs params ↔ ∃ name x, (name, .nested x) ∈ params ∧ s ∈ x.walk := by
  induction params with
  | nil => simp [walkInputs]
  | cons e rest ih =>
    obtain ⟨name, i⟩ := e
    rw [walkInputs, List.mem_append, ih]
    constructor
    · rintro (h | ⟨name', x, hx, h⟩)
      · cases i with
        | nested x => exact ⟨name, x, List.mem_cons_self, h⟩
        | literal v => cases h
      · exact ⟨name', x, List.mem_cons_of_mem _ hx, h⟩
    · rintro ⟨name', x, hx, h⟩
      rcases List.mem_cons.mp hx with heq | hx
      · cases heq
        exact .inl h
      · exact .inr ⟨name', x, hx, h⟩

lemma mem_walkSteps {steps : List Step} : s ∈ walkSteps steps ↔ ∃ x ∈ steps, s ∈ x.walk := by
  induction steps with
  | nil => simp [walkSteps]
  | cons x rest ih => simp [walkSteps, ih]

lemma mem_walkSlots {slots : List (String × List Step)} :
    s ∈ walkSlots slots ↔ ∃ e ∈ slots, ∃ x ∈ e.2, s ∈ x.walk := by
  induction slots with
  | nil => simp [walkSlots]
  | cons e rest ih => simp [walkSlots, mem_walkSteps, ih]

/-- The steps right inside a step: those that give its inputs, and those in its slots. -/
def Inner (n x : Step) : Prop :=
  (∃ name, (name, .nested x) ∈ n.params) ∨ ∃ e ∈ n.slots, x ∈ e.2

lemma mem_walk : s ∈ n.walk ↔ s = n ∨ ∃ x, n.Inner x ∧ s ∈ x.walk := by
  obtain ⟨id, type, params, slots⟩ := n
  rw [walk, List.mem_cons, List.mem_append, mem_walkInputs, mem_walkSlots]
  constructor
  · rintro (rfl | ⟨name, x, hx, h⟩ | ⟨e, he, x, hx, h⟩)
    · exact .inl rfl
    · exact .inr ⟨x, .inl ⟨name, hx⟩, h⟩
    · exact .inr ⟨x, .inr ⟨e, he, hx⟩, h⟩
  · rintro (rfl | ⟨x, ⟨name, hx⟩ | ⟨e, he, hx⟩, h⟩)
    · exact .inl rfl
    · exact .inr (.inl ⟨name, x, hx, h⟩)
    · exact .inr (.inr ⟨e, he, x, hx, h⟩)

lemma Inner.sizeOf_lt {x : Step} (h : n.Inner x) : sizeOf x < sizeOf n := by
  obtain ⟨id, type, params, slots⟩ := n
  rw [Step.mk.sizeOf_spec]
  rcases h with ⟨name, hx⟩ | ⟨⟨name, steps⟩, he, hx⟩
  · have hlt := List.sizeOf_lt_of_mem hx
    rw [Prod.mk.sizeOf_spec, Input.nested.sizeOf_spec] at hlt
    dsimp only at hlt
    omega
  · have hlt := List.sizeOf_lt_of_mem he
    have hlt' := List.sizeOf_lt_of_mem hx
    rw [Prod.mk.sizeOf_spec] at hlt
    dsimp only at hlt hlt'
    omega

/-- What holds of a step as soon as it holds of those right inside it holds of all. -/
@[elab_as_elim]
lemma inner_induction {P : Step → Prop} (outer : ∀ n : Step, (∀ x, n.Inner x → P x) → P n)
    (n : Step) : P n := by
  induction hk : sizeOf n using Nat.strongRecOn generalizing n with
  | _ k ih => exact outer n fun x hx => ih (sizeOf x) (hk ▸ hx.sizeOf_lt) x rfl

lemma mem_walk_trans {x : Step} (hs : s ∈ n.walk) (hx : x ∈ s.walk) : x ∈ n.walk := by
  induction n using inner_induction with
  | outer n ih =>
    rcases mem_walk.mp hs with rfl | ⟨y, hy, hs⟩
    · exact hx
    · exact mem_walk.mpr (.inr ⟨y, hy, ih y hy hs⟩)

/-! ### What is read -/

/-- What an input is bound to that is read from a value: a step if the value is one in full. -/
inductive Reads : Value → Input → Prop
  | nested {v : Value} {x : Step} (h : check v = .ok x) : Reads v (.nested x)
  | literal {v : Value} (h : ∀ x, check v ≠ .ok x) : Reads v (.literal v)

lemma reads_iff {i : Input} : Reads v i ↔
    (match check v with
      | .ok x => .nested x
      | .error _ => .literal v) = i := by
  cases h : check v with
  | ok x =>
    constructor
    · rintro (h' | h')
      · rw [h] at h'
        cases h'
        rfl
      · exact absurd h (h' x)
    · rintro rfl
      exact .nested h
  | error e =>
    constructor
    · rintro (h' | h')
      · rw [h] at h'
        cases h'
      · rfl
    · rintro rfl
      exact .literal (by simp [h])

/-- A mapping is one of inputs if its keys are texts. -/
lemma checkInputs_iff {es : List (Value × Value)} {ps : List (String × Input)} :
    checkInputs es = .ok ps ↔
      List.Forall₂ (fun e p => Check.text e.1 = .ok p.1 ∧ Reads e.2 p.2) es ps := by
  induction es generalizing ps with
  | nil => simp [checkInputs, eq_comm]
  | cons e es ih =>
    obtain ⟨k, v⟩ := e
    rw [checkInputs, Checked.consed_eq_ok, List.forall₂_cons_left_iff]
    refine exists_congr fun p => exists_congr fun rest => ?_
    rw [ih, ← and_assoc, ← and_assoc, Checked.both_eq_ok, Checked.within_eq_ok,
      Checked.within_eq_ok, reads_iff]
    cases check v <;> simp

lemma checkItems_iff {start : Nat} {vs : List Value} {xs : List Step} :
    checkItems start vs = .ok xs ↔ List.Forall₂ (fun v x => check v = .ok x) vs xs := by
  induction vs generalizing start xs with
  | nil => simp [checkItems, eq_comm]
  | cons v vs ih =>
    rw [checkItems, Checked.consed_eq_ok, List.forall₂_cons_left_iff]
    simp only [Checked.within_eq_ok, ih]

/-- A mapping is one of slots if its keys are texts and there are lists of steps under them. -/
lemma checkSlotEntries_iff {es : List (Value × Value)} {ps : List (String × List Step)} :
    checkSlotEntries es = .ok ps ↔
      List.Forall₂ (fun e p => Check.text e.1 = .ok p.1 ∧ checkSteps e.2 = .ok p.2) es ps := by
  induction es generalizing ps with
  | nil => simp [checkSlotEntries, eq_comm]
  | cons e es ih =>
    obtain ⟨k, v⟩ := e
    rw [checkSlotEntries, Checked.consed_eq_ok, List.forall₂_cons_left_iff]
    refine exists_congr fun p => exists_congr fun rest => ?_
    rw [ih, ← and_assoc, ← and_assoc, Checked.both_eq_ok]
    simp only [Checked.within_eq_ok]

/-- A document has a step in full: each field can be read, where it is there, and there is nothing
else. -/
lemma check_dict {es : List (Value × Value)} : check (.dict es) = .ok n ↔
    (Form.field ["id"] Check.nonemptyText unnamed es).result = .ok n.id ∧
    (Form.required "type" Check.blockType es).result = .ok n.type ∧
    (Form.known "params" (paramsIn es) [] es).result = .ok n.params ∧
    (Form.known "slots" (slotsIn es) [] es).result = .ok n.slots ∧
    Form.extras (form (paramsIn es) (slotsIn es) es).used es = [] := by
  obtain ⟨id, type, params, slots⟩ := n
  rw [check, Form.close_eq_ok]
  have hresult : (form (paramsIn es) (slotsIn es) es).result = .ok ⟨id, type, params, slots⟩ ↔ _ :=
    Form.seq_eq_ok
  rw [hresult]
  simp only [Form.seq_eq_ok, Form.map_eq_ok]
  constructor
  · rintro ⟨⟨_, _, ⟨_, _, ⟨_, _, ⟨_, hid, rfl⟩, htype, rfl⟩, hparams, rfl⟩, hslots, heq⟩, hextras⟩
    cases heq
    exact ⟨hid, htype, hparams, hslots, hextras⟩
  · rintro ⟨hid, htype, hparams, hslots, hextras⟩
    exact ⟨⟨_, _, ⟨_, _, ⟨_, _, ⟨_, hid, rfl⟩, htype, rfl⟩, hparams, rfl⟩, hslots, rfl⟩, hextras⟩

/-! ### What a step is read from -/

/-- A step whose names are bound once, and whose literals are no steps. -/
structure Proper (s : Step) : Prop where
  type : Name.isBlockType s.type = true
  params : (Dict.keys s.params).Nodup
  slots : (Dict.keys s.slots).Nodup
  literals : ∀ name v, (name, .literal v) ∈ s.params → ∀ x, check v ≠ .ok x

/-- What is read from a list is read item by item. -/
lemma exists_of_forall₂ {α β : Type} {R : α → β → Prop} {as : List α} {bs : List β}
    (h : List.Forall₂ R as bs) : ∀ b ∈ bs, ∃ a ∈ as, R a b := by
  induction h with
  | nil => nofun
  | @cons a b as bs hab _ ih =>
    intro b' hb
    rcases List.mem_cons.mp hb with rfl | hb
    · exact ⟨a, List.mem_cons_self, hab⟩
    · obtain ⟨a', ha, hr⟩ := ih b' hb
      exact ⟨a', List.mem_cons_of_mem _ ha, hr⟩

lemma checkSteps_ok {xs : List Step} (h : checkSteps v = .ok xs) :
    ∀ x ∈ xs, ∃ w, sizeOf w < sizeOf v ∧ check w = .ok x := by
  have hitems {vs : List Value} (h : checkItems 0 vs = .ok xs) (hsize : sizeOf vs < sizeOf v) :
      ∀ x ∈ xs, ∃ w, sizeOf w < sizeOf v ∧ check w = .ok x := by
    intro x hx
    obtain ⟨w, hw, hx⟩ := exists_of_forall₂ (checkItems_iff.mp h) x hx
    exact ⟨w, Nat.lt_trans (List.sizeOf_lt_of_mem hw) hsize, hx⟩
  cases v with
  | list vs | tuple vs | set vs => exact hitems h (by simp)
  | _ => cases h

/-- What looks for an entry of a mapping and reads its value reads the value of some entry. -/
lemma exists_entry {α : Type} {find : List (Value × Value) → Option (Checked α)}
    {read : Value → Checked α} (hnil : find [] = none)
    (hcons : ∀ e es, find (e :: es) = some (read e.2) ∨ find (e :: es) = find es)
    {es : List (Value × Value)} {r : Checked α} (h : find es = some r) :
    ∃ e ∈ es, r = read e.2 := by
  induction es with
  | nil =>
    rw [hnil] at h
    cases h
  | cons e es ih =>
    rcases hcons e es with heq | heq
    · rw [heq] at h
      exact ⟨e, List.mem_cons_self, (Option.some.inj h).symm⟩
    · rw [heq] at h
      obtain ⟨e', he, hr⟩ := ih h
      exact ⟨e', List.mem_cons_of_mem _ he, hr⟩

lemma paramsIn_some {es : List (Value × Value)} {r : Checked (List (String × Input))}
    (h : paramsIn es = some r) : ∃ e ∈ es, r = checkParams e.2 := by
  refine exists_entry rfl (fun e es => ?_) h
  rw [paramsIn.eq_def]
  split <;> simp_all

lemma slotsIn_some {es : List (Value × Value)} {r : Checked (List (String × List Step))}
    (h : slotsIn es = some r) : ∃ e ∈ es, r = checkSlots e.2 := by
  refine exists_entry rfl (fun e es => ?_) h
  rw [slotsIn.eq_def]
  split <;> simp_all

/-- A value that is a part of another one, with its key, is smaller. -/
lemma sizeOf_entry {es : List (Value × Value)} {e : Value × Value} (h : e ∈ es) :
    sizeOf e.2 < sizeOf (Value.dict es) := by
  have hlt := List.sizeOf_lt_of_mem h
  obtain ⟨k, w⟩ := e
  rw [Prod.mk.sizeOf_spec] at hlt
  rw [Value.dict.sizeOf_spec]
  dsimp only
  omega

lemma checkParams_ok {ps : List (String × Input)} (h : checkParams v = .ok ps) :
    (Dict.keys ps).Nodup ∧ ∀ p ∈ ps, ∃ w, sizeOf w < sizeOf v ∧ Reads w p.2 := by
  cases v with
  | dict es =>
    obtain ⟨pairs, hpairs, rfl⟩ := Checked.map_eq_ok.mp h
    refine ⟨Dict.nodup_keys_ofPairs pairs, fun p hp => ?_⟩
    obtain ⟨e, he, -, hreads⟩ := exists_of_forall₂ (checkInputs_iff.mp hpairs) p
      ((Dict.mem_update hp).resolve_left List.not_mem_nil)
    exact ⟨e.2, sizeOf_entry he, hreads⟩
  | _ => cases h

lemma checkSlots_ok {ps : List (String × List Step)} (h : checkSlots v = .ok ps) :
    (Dict.keys ps).Nodup ∧ ∀ p ∈ ps, ∀ x ∈ p.2, ∃ w, sizeOf w < sizeOf v ∧ check w = .ok x := by
  cases v with
  | dict es =>
    obtain ⟨pairs, hpairs, rfl⟩ := Checked.map_eq_ok.mp h
    refine ⟨Dict.nodup_keys_ofPairs pairs, fun p hp x hx => ?_⟩
    obtain ⟨e, he, -, hsteps⟩ := exists_of_forall₂ (checkSlotEntries_iff.mp hpairs) p
      ((Dict.mem_update hp).resolve_left List.not_mem_nil)
    obtain ⟨w, hw, hx⟩ := checkSteps_ok hsteps x hx
    exact ⟨w, Nat.lt_trans hw (sizeOf_entry he), hx⟩
  | _ => cases h

/-- The inputs of a step and the steps in its slots are read from parts of what the step is read
from. -/
structure ReadFrom (v : Value) (n : Step) : Prop where
  id : n.id ≠ ""
  type : Name.isBlockType n.type = true
  params : (Dict.keys n.params).Nodup
  slots : (Dict.keys n.slots).Nodup
  inputs : ∀ p ∈ n.params, ∃ w, sizeOf w < sizeOf v ∧ Reads w p.2
  steps : ∀ p ∈ n.slots, ∀ x ∈ p.2, ∃ w, sizeOf w < sizeOf v ∧ check w = .ok x

lemma readFrom (h : check v = .ok n) : ReadFrom v n := by
  cases v with
  | dict es =>
    obtain ⟨hid, htype, hparams, hslots, -⟩ := check_dict.mp h
    have hp : (Dict.keys n.params).Nodup ∧
        ∀ p ∈ n.params, ∃ w, sizeOf w < sizeOf (Value.dict es) ∧ Reads w p.2 := by
      rcases Form.known_eq_ok.mp hparams with ⟨-, hnil⟩ | hsome
      · simp [hnil, Dict.keys]
      · obtain ⟨e, he, hr⟩ := paramsIn_some hsome
        obtain ⟨hnodup, hreads⟩ := checkParams_ok hr.symm
        refine ⟨hnodup, fun p hp => ?_⟩
        obtain ⟨w, hw, hreads⟩ := hreads p hp
        exact ⟨w, Nat.lt_trans hw (sizeOf_entry he), hreads⟩
    have hs : (Dict.keys n.slots).Nodup ∧ ∀ p ∈ n.slots, ∀ x ∈ p.2,
        ∃ w, sizeOf w < sizeOf (Value.dict es) ∧ check w = .ok x := by
      rcases Form.known_eq_ok.mp hslots with ⟨-, hnil⟩ | hsome
      · simp [hnil, Dict.keys]
      · obtain ⟨e, he, hr⟩ := slotsIn_some hsome
        obtain ⟨hnodup, hsteps⟩ := checkSlots_ok hr.symm
        refine ⟨hnodup, fun p hp x hx => ?_⟩
        obtain ⟨w, hw, hx⟩ := hsteps p hp x hx
        exact ⟨w, Nat.lt_trans hw (sizeOf_entry he), hx⟩
    refine ⟨?_, ?_, hp.1, hs.1, hp.2, hs.2⟩
    · rcases Form.field_ok hid with h | ⟨w, hw⟩
      · rw [h]
        decide
      · exact Check.nonemptyText_ok hw
    · obtain ⟨w, hw⟩ := Form.required_ok htype
      exact Check.blockType_ok hw
  | _ => cases h

/-- **A step that is read from a document is proper, and so is every step inside it.** -/
theorem proper_of_check (h : check v = .ok n) : ∀ s ∈ n.walk, s.id ≠ "" ∧ s.Proper := by
  induction hk : sizeOf v using Nat.strongRecOn generalizing v n with
  | _ k ih =>
    have hn := readFrom h
    intro s hs
    rcases mem_walk.mp hs with rfl | ⟨x, hx, hs⟩
    · refine ⟨hn.id, hn.type, hn.params, hn.slots, fun name w hw => ?_⟩
      obtain ⟨w', -, hreads⟩ := hn.inputs _ hw
      cases hreads with
      | literal h => exact h
    · have hpart : ∃ w, sizeOf w < sizeOf v ∧ check w = .ok x := by
        rcases hx with ⟨name, hx⟩ | ⟨e, he, hx⟩
        · obtain ⟨w, hw, hreads⟩ := hn.inputs _ hx
          cases hreads with
          | nested h => exact ⟨w, hw, h⟩
        · exact hn.steps e he x hx
      obtain ⟨w, hw, hx⟩ := hpart
      exact ih (sizeOf w) (hk ▸ hw) hx rfl s hs

/-! ### Steps that are read from what they are written as -/

lemma paramValues_eq (ps : List (String × Input)) :
    paramValues ps = ps.map fun p => (.text p.1, inputValue p.2) := by
  induction ps with
  | nil => rfl
  | cons p ps ih => rw [paramValues, ih, List.map_cons]

lemma stepValues_eq (xs : List Step) : stepValues xs = xs.map toValue := by
  induction xs with
  | nil => rfl
  | cons x xs ih => rw [stepValues, ih, List.map_cons]

lemma slotValues_eq (ps : List (String × List Step)) :
    slotValues ps = ps.map fun p => (.text p.1, .list (p.2.map toValue)) := by
  induction ps with
  | nil => rfl
  | cons p ps ih => rw [slotValues, ih, stepValues_eq, List.map_cons]

lemma checkInputs_paramValues {ps : List (String × Input)}
    (h : ∀ p ∈ ps, Reads (inputValue p.2) p.2) : checkInputs (paramValues ps) = .ok ps := by
  rw [checkInputs_iff, paramValues_eq, List.forall₂_map_left_iff, List.forall₂_same]
  exact fun p hp => ⟨rfl, h p hp⟩

lemma checkSlotEntries_slotValues {ps : List (String × List Step)}
    (h : ∀ p ∈ ps, ∀ x ∈ p.2, check x.toValue = .ok x) :
    checkSlotEntries (slotValues ps) = .ok ps := by
  rw [checkSlotEntries_iff, slotValues_eq, List.forall₂_map_left_iff, List.forall₂_same]
  refine fun p hp => ⟨rfl, checkItems_iff.mpr ?_⟩
  rw [List.forall₂_map_left_iff, List.forall₂_same]
  exact h p hp

/-- What is written for an input is read as it, if a nested step is read from what is written for
the step and a literal is no step. -/
lemma reads_inputValue {i : Input} (hnested : ∀ x, i = .nested x → check x.toValue = .ok x)
    (hliteral : ∀ v, i = .literal v → ∀ x, check v ≠ .ok x) : Reads (inputValue i) i := by
  cases i with
  | nested x => exact .nested (hnested x rfl)
  | literal v => exact .literal (hliteral v rfl)

lemma toValue_eq (n : Step) : n.toValue = .dict [(.text "id", .text n.id),
    (.text "type", .text n.type), (.text "params", .dict (paramValues n.params)),
    (.text "slots", .dict (slotValues n.slots))] := by
  obtain ⟨id, type, params, slots⟩ := n
  rfl

/-- **A proper step is read from what it is written as.** -/
theorem check_toValue_of_proper (h : ∀ s ∈ n.walk, s.id ≠ "" ∧ s.Proper) :
    check n.toValue = .ok n := by
  induction n using inner_induction with
  | outer n ih =>
    have hinner (x : Step) (hx : n.Inner x) : check x.toValue = .ok x :=
      ih x hx fun s hs => h s (mem_walk.mpr (.inr ⟨x, hx, hs⟩))
    obtain ⟨hid, hn⟩ := h n (mem_walk.mpr (.inl rfl))
    have hparams : checkParams (.dict (paramValues n.params)) = .ok n.params := by
      refine Checked.map_eq_ok.mpr ⟨n.params, ?_, Dict.ofPairs_of_nodup hn.params⟩
      refine checkInputs_paramValues fun p hp => reads_inputValue (fun x hx => ?_) fun v hv => ?_
      · exact hinner x (.inl ⟨p.1, hx ▸ hp⟩)
      · exact hn.literals p.1 v (hv ▸ hp)
    have hslots : checkSlots (.dict (slotValues n.slots)) = .ok n.slots := by
      refine Checked.map_eq_ok.mpr ⟨n.slots, ?_, Dict.ofPairs_of_nodup hn.slots⟩
      exact checkSlotEntries_slotValues fun p hp x hx => hinner x (.inr ⟨p, hp, hx⟩)
    rw [toValue_eq]
    refine check_dict.mpr ⟨?_, ?_, ?_, ?_, rfl⟩
    · exact Checked.within_eq_ok.mpr (Check.nonemptyText_text hid)
    · exact Checked.within_eq_ok.mpr (Check.blockType_text hn.type)
    · exact Form.known_eq_ok.mpr (.inr (congrArg some hparams))
    · exact Form.known_eq_ok.mpr (.inr (congrArg some hslots))

/-! ### Labels -/

mutual

/-- A step without the labels of its own and of the steps inside it. -/
def anonymous : Step → Step
  | ⟨_, type, params, slots⟩ => ⟨"", type, anonymousInputs params, anonymousSlots slots⟩

def anonymousInput : Input → Input
  | .nested s => .nested (anonymous s)
  | .literal v => .literal v

def anonymousInputs : List (String × Input) → List (String × Input)
  | [] => []
  | (name, i) :: rest => (name, anonymousInput i) :: anonymousInputs rest

def anonymousSlots : List (String × List Step) → List (String × List Step)
  | [] => []
  | (name, steps) :: rest => (name, anonymousSteps steps) :: anonymousSlots rest

def anonymousSteps : List Step → List Step
  | [] => []
  | s :: rest => anonymous s :: anonymousSteps rest

end

lemma anonymousInputs_eq (ps : List (String × Input)) :
    anonymousInputs ps = ps.map fun p => (p.1, anonymousInput p.2) := by
  induction ps with
  | nil => rfl
  | cons p ps ih => rw [anonymousInputs, ih, List.map_cons]

lemma anonymousSteps_eq (xs : List Step) : anonymousSteps xs = xs.map anonymous := by
  induction xs with
  | nil => rfl
  | cons x xs ih => rw [anonymousSteps, ih, List.map_cons]

lemma anonymousSlots_eq (ps : List (String × List Step)) :
    anonymousSlots ps = ps.map fun p => (p.1, p.2.map anonymous) := by
  induction ps with
  | nil => rfl
  | cons p ps ih => rw [anonymousSlots, ih, anonymousSteps_eq, List.map_cons]

lemma anonymous_eq (n : Step) : n.anonymous =
    ⟨"", n.type, n.params.map fun p => (p.1, anonymousInput p.2),
      n.slots.map fun p => (p.1, p.2.map anonymous)⟩ := by
  obtain ⟨id, type, params, slots⟩ := n
  rw [anonymous, anonymousInputs_eq, anonymousSlots_eq]

lemma anonymousInput_literal {i : Input} : anonymousInput i = .literal v ↔ i = .literal v := by
  cases i <;> simp [anonymousInput]

lemma anonymousInput_nested {i : Input} {y : Step} :
    anonymousInput i = .nested y ↔ ∃ x, i = .nested x ∧ x.anonymous = y := by
  cases i <;> simp [anonymousInput]

/-- Whether a step is proper does not depend on its labels. -/
lemma proper_anonymous : s.anonymous.Proper ↔ s.Proper := by
  have hkeys {α : Type} (g : α → α) (d : Dict α) :
      Dict.keys (d.map fun p => (p.1, g p.2)) = Dict.keys d := by
    simp [Dict.keys]
  have hliteral (name : String) (v : Value) :
      (name, .literal v) ∈ s.params.map (fun p => (p.1, anonymousInput p.2)) ↔
        (name, .literal v) ∈ s.params := by
    simp [anonymousInput_literal]
  rw [anonymous_eq]
  constructor
  · rintro ⟨htype, hparams, hslots, hliterals⟩
    refine ⟨htype, ?_, ?_, fun name v hv => hliterals name v ((hliteral name v).mpr hv)⟩
    · rwa [hkeys] at hparams
    · rwa [hkeys] at hslots
  · rintro ⟨htype, hparams, hslots, hliterals⟩
    refine ⟨htype, ?_, ?_, fun name v hv => hliterals name v ((hliteral name v).mp hv)⟩
    · rwa [hkeys]
    · rwa [hkeys]

lemma inner_anonymous {y : Step} : n.anonymous.Inner y ↔ ∃ x, n.Inner x ∧ x.anonymous = y := by
  rw [anonymous_eq]
  constructor
  · rintro (⟨name, hy⟩ | ⟨e, he, hy⟩)
    · obtain ⟨p, hp, heq⟩ := List.mem_map.mp hy
      obtain ⟨rfl, hi⟩ := Prod.mk.inj heq
      obtain ⟨x, hx, rfl⟩ := anonymousInput_nested.mp hi
      exact ⟨x, .inl ⟨p.1, hx ▸ hp⟩, rfl⟩
    · obtain ⟨p, hp, rfl⟩ := List.mem_map.mp he
      obtain ⟨x, hx, rfl⟩ := List.mem_map.mp hy
      exact ⟨x, .inr ⟨p, hp, hx⟩, rfl⟩
  · rintro ⟨x, ⟨name, hx⟩ | ⟨e, he, hx⟩, rfl⟩
    · exact .inl ⟨name, List.mem_map.mpr ⟨_, hx, rfl⟩⟩
    · exact .inr ⟨_, List.mem_map.mpr ⟨e, he, rfl⟩, List.mem_map_of_mem hx⟩

/-- Steps that differ in labels only have the same steps inside, but for labels. -/
lemma exists_mem_walk {n' s' : Step} (h : n'.anonymous = n.anonymous) (hs : s' ∈ n'.walk) :
    ∃ s ∈ n.walk, s'.anonymous = s.anonymous := by
  induction n' using inner_induction generalizing n with
  | outer n' ih =>
    rcases mem_walk.mp hs with rfl | ⟨x', hx', hs⟩
    · exact ⟨n, mem_walk.mpr (.inl rfl), h⟩
    · have hinner : n.anonymous.Inner x'.anonymous := h ▸ inner_anonymous.mpr ⟨x', hx', rfl⟩
      obtain ⟨x, hx, heq⟩ := inner_anonymous.mp hinner
      obtain ⟨s, hs, hss⟩ := ih x' hx' heq.symm hs
      exact ⟨s, mem_walk.mpr (.inr ⟨x, hx, hs⟩), hss⟩

/-! ### Reading what was written -/

/-- A step survives being written and read. -/
structure Survives (n : Step) : Prop where
  /-- It is read from what it is written as. -/
  same : check n.toValue = .ok n
  /-- And so is every step inside it by itself. -/
  inside : ∀ s ∈ n.walk, check s.toValue = .ok s
  /-- At every depth, what an input is written as is a step only if the input was a nested one. -/
  inputs : ∀ s ∈ n.walk, ∀ name i, (name, i) ∈ s.params →
    ∀ x, check (inputValue i) = .ok x ↔ i = .nested x

lemma survives_of_proper (h : ∀ s ∈ n.walk, s.id ≠ "" ∧ s.Proper) : n.Survives := by
  have hinside (s : Step) (hs : s ∈ n.walk) : check s.toValue = .ok s :=
    check_toValue_of_proper fun x hx => h x (mem_walk_trans hs hx)
  refine ⟨hinside n (mem_walk.mpr (.inl rfl)), hinside, fun s hs name i hi x => ?_⟩
  cases i with
  | nested y =>
    have hy : check y.toValue = .ok y :=
      hinside y (mem_walk_trans hs
        (mem_walk.mpr (.inr ⟨y, .inl ⟨name, hi⟩, mem_walk.mpr (.inl rfl)⟩)))
    rw [inputValue, hy]
    simp
  | literal v =>
    constructor
    · exact fun hv => absurd hv ((h s hs).2.literals name v hi x)
    · nofun

/-- **Steps survive being written and read.** A step that is read from any value, whatever is inside
it, is read from what it is written as: the tree is the same, with its labels and its order, and the
inputs that were literals are literals again, however near they come to a step. This does not depend
on the labels that steps without one were given. -/
theorem steps_survive (v : Value) (n : Step) (h : check v = .ok n) :
    n.Survives ∧ ∀ n' : Step, n'.anonymous = n.anonymous → (∀ s ∈ n'.walk, s.id ≠ "") →
      n'.Survives := by
  have hproper := proper_of_check h
  refine ⟨survives_of_proper hproper, fun n' hn' hid => survives_of_proper fun s' hs' => ?_⟩
  obtain ⟨s, hs, heq⟩ := exists_mem_walk hn' hs'
  refine ⟨hid s' hs', ?_⟩
  rw [← proper_anonymous, heq, proper_anonymous]
  exact (hproper s hs).2

/-- A step of a type with its parameters and slots, as a document has it. -/
def plainly (type : String) (rest : Dict Value) : Value := .record (("type", .text type) :: rest)

/-- What comes near to a step: it has a member too many, its label is empty, its type is none, or it
has such a thing among its steps. A list with a step is none either. -/
def nearSteps : Dict Value :=
  [("NOTE", plainly "pick" [("note", .text "ripe")]), ("LABEL", plainly "pick" [("id", .text "")]),
    ("TYPE", plainly "to pick" []),
    ("DEEP", plainly "pick" [("slots", .record [("DO", .list [plainly "9" []])])]),
    ("LIST", .list [plainly "pick" []])]

/-- A step with a nested step, some literals and a step in a slot. -/
def recipe : Value :=
  plainly "kitchen.cook" [("params", .record (("POT", plainly "pick" []) :: nearSteps)),
    ("slots", .record [("DO", .list [plainly "stir" []])])]

/-- The step of the recipe, with labels for its steps. -/
def cooked (first second third : String) : Step :=
  ⟨first, "kitchen.cook",
    ("POT", .nested ⟨second, "pick", [], []⟩) :: nearSteps.map fun e => (e.1, .literal e.2),
    [("DO", [⟨third, "stir", [], []⟩])]⟩

/-- The near steps are literals, in the recipe and in what is written for it. -/
theorem steps_survive_recipe :
    check recipe = .ok (cooked unnamed unnamed unnamed) ∧
      (cooked unnamed unnamed unnamed).Survives ∧ (cooked "a" "b" "c").Survives := by
  have h : check recipe = .ok (cooked unnamed unnamed unnamed) := rfl
  obtain ⟨hsame, hlabels⟩ := steps_survive _ _ h
  refine ⟨h, hsame, hlabels _ rfl ?_⟩
  simp [cooked, walk, walkInputs, nearSteps, walkInput, walkSlots, walkSteps]

end Step

end BlockSuite
