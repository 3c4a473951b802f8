import Mathlib.Data.List.Perm.Basic
import Mathlib.Logic.Relation
import BlockSuite.Environment
import BlockSuite.Proofs.Dict

/-!
Layered registries are overlays. What a registry shows is told by the history of the forest it
stands in: the entry of a name is the last one written into the own layer and not removed since, and
where there is none it is that of the registry below. All ways to look at a registry show the same
entries, and a change of one registry is only seen in those that were opened on it.
-/

namespace BlockSuite

/-! ### Layers -/

namespace Layers

variable {α : Type} {l : Layers α} {name : String}

lemma get?_filter_not_has (d below : Dict α) (name : String) :
    Dict.get? (below.filter fun e => !d.has e.1) name =
      if d.has name then none else below.get? name := by
  induction below with
  | nil => simp
  | cons e rest ih =>
    obtain ⟨k, v⟩ := e
    by_cases hk : k = name
    · subst hk
      cases hd : d.has k <;> simp [hd, ih, Dict.get?_cons]
    · cases hd : d.has k <;> simp [hd, ih, Dict.get?_cons, hk]

/-- An entry that is visible is the one that is found. -/
lemma get?_visible (l : Layers α) (name : String) : l.visible.get? name = l.lookup name := by
  induction l with
  | nil => rfl
  | cons d below ih =>
    have happend (d e : Dict α) : Dict.get? (d ++ e) name = (d.get? name).or (e.get? name) := by
      simp [Dict.get?, List.find?_append, Option.map_or]
    rw [visible, happend, get?_filter_not_has, ih, lookup_cons, Dict.has_iff_get?_isSome]
    cases d.get? name <;> rfl

lemma nodup_visible (h : ∀ d ∈ l, d.keys.Nodup) : l.visible.keys.Nodup := by
  induction l with
  | nil => exact List.nodup_nil
  | cons d below ih =>
    have hbelow := ih fun d hd => h d (List.mem_cons_of_mem _ hd)
    simp only [visible, Dict.keys, List.map_append] at hbelow ⊢
    refine List.Nodup.append (h d List.mem_cons_self) (hbelow.sublist ?_) ?_
    · exact List.filter_sublist.map _
    · intro name hd hv
      obtain ⟨e, he, rfl⟩ := List.mem_map.mp hv
      have hnot : d.has e.1 = false := by simpa using (List.mem_filter.mp he).2
      rw [Dict.has_iff_get?_isSome, Option.isSome_eq_false_iff, Option.isNone_iff_eq_none,
        Dict.get?_eq_none_iff] at hnot
      exact hnot hd

/-- The name of a visible entry is one that is found. -/
lemma mem_keys_visible : name ∈ l.visible.keys ↔ ∃ a, l.lookup name = some a := by
  rw [← Option.isSome_iff_exists, ← get?_visible, ← Dict.has_iff_get?_isSome, Dict.has,
    List.any_eq_true]
  simp [Dict.keys]

lemma defineAll_cons (d : Dict α) (below : Layers α) (entries : List (String × α)) :
    Layers.defineAll (d :: below) entries = d.update entries :: below := by
  induction entries generalizing d with
  | nil => rfl
  | cons e rest ih => exact ih _

/-- The ways to look at a registry describe one set of names: whether it has an entry, what it
finds, what it gives where there has to be an entry, what there is to see, and the names in some
order, none of them twice. -/
structure ShownBy (l : Layers α) (require : String → Except Failure α)
    (unknown : String → BlockError) (names : List String) : Prop where
  nodup : names.Nodup
  has : ∀ name, l.has name = true ↔ name ∈ names
  lookup : ∀ name, (∃ a, l.lookup name = some a) ↔ name ∈ names
  visible : ∀ name a, (name, a) ∈ l.visible ↔ l.lookup name = some a
  length : names.length = l.visible.length
  found : ∀ name a, require name = .ok a ↔ l.lookup name = some a
  missing : ∀ name, require name = .error (.raised (unknown name)) ↔ name ∉ names

lemma shownBy {require : String → Except Failure α} {unknown : String → BlockError}
    {names : List String} (h : ∀ d ∈ l, d.keys.Nodup) (hnames : names.Perm l.visible.keys)
    (hrequire : ∀ name, require name =
      (l.lookup name).elim (.error (.raised (unknown name))) .ok) :
    l.ShownBy require unknown names where
  nodup := hnames.nodup_iff.mpr (nodup_visible h)
  has name := by
    rw [hnames.mem_iff, mem_keys_visible, Layers.has, Option.isSome_iff_exists]
  lookup name := by rw [hnames.mem_iff, mem_keys_visible]
  visible name a := by
    rw [← get?_visible]
    exact ⟨Dict.get?_of_mem (nodup_visible h), Dict.mem_of_get?⟩
  length := by rw [hnames.length_eq, Dict.keys, List.length_map]
  found name a := by
    rw [hrequire]
    cases l.lookup name <;> simp
  missing name := by
    rw [hrequire, hnames.mem_iff, mem_keys_visible]
    cases l.lookup name <;> simp

end Layers

/-! ### Categories -/

/-- The categories of the blocks that are shown divide their types: a type stands under the category
of its block and under no other, and no category is empty. -/
structure Environment.Divided (e : Environment) : Prop where
  nodup : e.categories.Nodup
  mem : ∀ category, category ∈ e.categories ↔ e.typesOf category ≠ []
  typesOf : ∀ category type, type ∈ e.typesOf category ↔
    ∃ b, e.blocks.lookup type = some b ∧ b.category = category
  whole : (e.categories.flatMap e.typesOf).Perm e.types

lemma nodup_eraseDups (xs : List String) : xs.eraseDups.Nodup := by
  have hkeys := Dict.nodup_keys_ofPairs (xs.map fun x => (x, ()))
  rw [Dict.keys_ofPairs, List.map_map] at hkeys
  simpa only [Function.comp_def, List.map_id'] using hkeys

lemma Environment.divided {e : Environment} (h : ∀ d ∈ e.blocks, d.keys.Nodup) : e.Divided := by
  have hvisible := Layers.nodup_visible h
  have htypes (category type : String) : type ∈ e.typesOf category ↔
      ∃ b, e.blocks.lookup type = some b ∧ b.category = category := by
    simp only [Environment.typesOf, Dict.keys, List.mem_map, List.mem_filter, beq_iff_eq]
    constructor
    · rintro ⟨⟨k, b⟩, ⟨hb, hc⟩, rfl⟩
      exact ⟨b, by rw [← Layers.get?_visible, Dict.get?_of_mem hvisible hb], hc⟩
    · rintro ⟨b, hb, hc⟩
      rw [← Layers.get?_visible] at hb
      exact ⟨(type, b), ⟨Dict.mem_of_get? hb, hc⟩, rfl⟩
  have hcategories (category : String) : category ∈ e.categories ↔
      ∃ type b, e.blocks.lookup type = some b ∧ b.category = category := by
    simp only [Environment.categories, List.mem_mergeSort, List.mem_eraseDups, List.mem_map]
    constructor
    · rintro ⟨⟨k, b⟩, hb, hc⟩
      exact ⟨k, b, by rw [← Layers.get?_visible, Dict.get?_of_mem hvisible hb], hc⟩
    · rintro ⟨type, b, hb, hc⟩
      rw [← Layers.get?_visible] at hb
      exact ⟨(type, b), Dict.mem_of_get? hb, hc⟩
  have hnodup : e.categories.Nodup :=
    (List.mergeSort_perm _ _).nodup_iff.mpr (nodup_eraseDups _)
  refine ⟨hnodup, fun category => ?_, htypes, ?_⟩
  · simp only [hcategories, ← htypes]
    constructor
    · rintro ⟨type, h⟩
      exact List.ne_nil_of_mem h
    · exact List.exists_mem_of_ne_nil _
  · refine (List.perm_ext_iff_of_nodup ?_ hvisible).mpr fun type => ?_
    · refine List.nodup_flatMap.mpr ⟨fun category _ => ?_, hnodup.imp fun hne type h₁ h₂ => ?_⟩
      · exact hvisible.sublist (List.filter_sublist.map _)
      · obtain ⟨b, hb, rfl⟩ := (htypes _ _).mp h₁
        obtain ⟨b', hb', hc⟩ := (htypes _ _).mp h₂
        rw [hb] at hb'
        cases hb'
        exact hne hc
    · rw [List.mem_flatMap, Layers.mem_keys_visible]
      constructor
      · rintro ⟨category, -, h⟩
        obtain ⟨b, hb, -⟩ := (htypes _ _).mp h
        exact ⟨b, hb⟩
      · rintro ⟨b, hb⟩
        exact ⟨b.category, (hcategories _).mpr ⟨type, b, hb, rfl⟩, (htypes _ _).mpr ⟨b, hb, rfl⟩⟩

/-! ### What stands below a registry -/

namespace Forest

variable {α : Type} {f g : Forest α} {i j : Nat} {p : Option Nat} {d : Dict α}

lemma layers_of_none (h : f[i]? = none) : f.layers i = [] := by
  rw [layers, h]

/-- The layers below a registry are those of the earlier one it was opened on. -/
lemma layers_of_some (h : f[i]? = some ⟨p, d⟩) :
    f.layers i = d :: ((p.filter (· < i)).elim [] f.layers) := by
  rw [layers, h]
  cases p with
  | none => rfl
  | some q => by_cases hq : q < i <;> simp [Option.filter, hq]

/-- Only what is no registry has no layers. -/
lemma layers_ne_nil (h : i < f.length) : f.layers i ≠ [] := by
  rw [layers_of_some (p := f[i].parent) (d := f[i].entries) (List.getElem?_eq_getElem h)]
  exact List.cons_ne_nil _ _

/-- Two forests show the same where they have the same registries, down to the lowest. -/
lemma layers_congr {P : Nat → Prop} (heq : ∀ k, P k → f[k]? = g[k]?)
    (hdown : ∀ k q d, P k → f[k]? = some ⟨some q, d⟩ → q < k → P q) (hj : P j) :
    f.layers j = g.layers j := by
  induction j using Nat.strongRecOn with
  | _ j ih =>
    have hfg := heq j hj
    cases hf : f[j]? with
    | none => rw [layers_of_none hf, layers_of_none (hfg ▸ hf)]
    | some n =>
      obtain ⟨p, d⟩ := n
      rw [layers_of_some hf, layers_of_some (hfg ▸ hf)]
      cases p with
      | none => rfl
      | some q =>
        by_cases hq : q < j
        · simp [Option.filter, hq, ih q hq (hdown j q d hj hf hq)]
        · simp [Option.filter, hq]

/-- A change of the own layer is written into the registry itself. -/
lemma put_own (h : f[i]? = some ⟨p, d⟩) (d' : Dict α) :
    f.put i (d' :: (f.layers i).tail) = f.set i ⟨p.filter (· < i), d'⟩ := by
  have hi : i < f.length := (List.getElem?_eq_some_iff.mp h).1
  have hmodify (change : Node α → Node α) : f.modify i change = f.set i (change ⟨p, d⟩) := by
    rw [List.modify_eq_set_getElem?, h]
    rfl
  rw [layers_of_some h]
  cases p with
  | none => exact hmodify _
  | some q =>
    by_cases hq : q < i
    · obtain ⟨e, below, hbelow⟩ :=
        List.exists_cons_of_ne_nil (layers_ne_nil (Nat.lt_trans hq hi))
      simp only [Option.filter, hq, decide_true, if_true, Option.elim_some, List.tail_cons, hbelow]
      exact hmodify _
    · simp only [Option.filter, hq, decide_false, Bool.false_eq_true, if_false, Option.elim_none,
        List.tail_cons]
      exact hmodify _

/-! ### Histories -/

namespace Edit

/-- The registry whose own layer an edit changes. -/
def changes : Edit α → Option Nat
  | plant | child _ => none
  | define i _ | drop i _ | clear i => some i

/-- An edit is one of a registry that is there. -/
def Fits (size : Nat) : Edit α → Prop
  | plant => True
  | child i | define i _ | drop i _ | clear i => i < size

/-- What an edit makes of the registry that it changes. -/
def change : Edit α → Node α → Node α
  | define _ entries, n => { n with entries := n.entries.update entries }
  | drop _ name, n => { n with entries := n.entries.erase name }
  | clear _, _ => ⟨none, []⟩
  | _, n => n

end Edit

/-- A history of a forest: what was done to it, newest first. -/
abbrev History (α : Type) := List (Edit α)

namespace History

/-- The forest that a history leads to. -/
def forest : History α → Forest α
  | [] => []
  | e :: h => (forest h).apply e

/-- How many registries a history has opened. They are numbered in this order. -/
def size : History α → Nat
  | [] => 0
  | .plant :: h | .child _ :: h => size h + 1
  | _ :: h => size h

/-- Every edit is one of a registry that was there. -/
def Valid : History α → Prop
  | [] => True
  | e :: h => e.Fits (size h) ∧ Valid h

/-- The registry that another one was opened on, unless that one was emptied since. -/
def parent : History α → Nat → Option Nat
  | [], _ => none
  | .child p :: h, i => if i = size h then some p else parent h i
  | .clear j :: h, i => if i = j then none else parent h i
  | _ :: h, i => parent h i

/-- The entry that was last written for a name into a registry itself and not removed since. -/
def latest : History α → Nat → String → Option α
  | [], _, _ => none
  | .define j entries :: h, i, name =>
    if i = j then ((Dict.ofPairs entries).get? name).or (latest h i name) else latest h i name
  | .drop j dropped :: h, i, name => if i = j ∧ name = dropped then none else latest h i name
  | .clear j :: h, i, name => if i = j then none else latest h i name
  | _ :: h, i, name => latest h i name

/-- A registry is another one, or was opened on it, or on one that was opened on it, and so on. -/
def Descends (h : History α) : Nat → Nat → Prop :=
  Relation.ReflTransGen fun i p => h.parent i = some p

variable {h : History α} {e : Edit α}

lemma parent_lt (valid : h.Valid) {q : Nat} (hp : h.parent i = some q) : q < i ∧ i < h.size := by
  induction h with
  | nil => cases hp
  | cons e h ih =>
    obtain ⟨fits, valid⟩ := valid
    cases e with
    | plant => exact (ih valid hp).imp_right Nat.lt_succ_of_lt
    | child r =>
      simp only [parent] at hp
      split at hp
      · next heq =>
        cases hp
        exact ⟨heq ▸ fits, heq ▸ Nat.lt_succ_self _⟩
      · exact (ih valid hp).imp_right Nat.lt_succ_of_lt
    | define j entries => exact ih valid hp
    | drop j dropped => exact ih valid hp
    | clear j =>
      simp only [parent] at hp
      split at hp
      · cases hp
      · exact ih valid hp

/-- A registry descends from earlier ones only. -/
lemma Descends.le (valid : h.Valid) (hd : h.Descends j i) : i ≤ j := by
  induction hd with
  | refl => exact Nat.le_refl _
  | tail _ hp ih => exact Nat.le_trans (Nat.le_of_lt (parent_lt valid hp).1) ih

lemma parent_of_le (valid : h.Valid) (hi : h.size ≤ i) : h.parent i = none := by
  cases hp : h.parent i with
  | none => rfl
  | some q => exact absurd (parent_lt valid hp).2 (Nat.not_lt.mpr hi)

/-- Nothing was written into what is no registry yet. -/
lemma latest_of_le (valid : h.Valid) (hi : h.size ≤ i) (name : String) :
    h.latest i name = none := by
  induction h with
  | nil => rfl
  | cons e h ih =>
    obtain ⟨fits, valid⟩ := valid
    cases e with
    | plant | child q => exact ih valid (Nat.le_of_succ_le hi)
    | define j entries =>
      have hne : i ≠ j := fun heq => Nat.not_lt.mpr hi (heq ▸ fits)
      simpa only [latest, hne, if_false] using ih valid hi
    | drop j dropped =>
      have hne : i ≠ j := fun heq => Nat.not_lt.mpr hi (heq ▸ fits)
      simpa only [latest, hne, false_and, if_false] using ih valid hi
    | clear j =>
      have hne : i ≠ j := fun heq => Nat.not_lt.mpr hi (heq ▸ fits)
      simpa only [latest, hne, if_false] using ih valid hi

end History

/-! ### The forest of a history -/

lemma apply_of_changes {e : Edit α} (he : e.changes = some i) (h : f[i]? = some ⟨p, d⟩)
    (hp : ∀ q, p = some q → q < i) : f.apply e = f.set i (e.change ⟨p, d⟩) := by
  have hlayers : f.layers i = d :: (f.layers i).tail := by rw [layers_of_some h]; rfl
  have hput (d' : Dict α) : f.put i (d' :: (f.layers i).tail) = f.set i ⟨p, d'⟩ := by
    rw [put_own h]
    cases p with
    | none => rfl
    | some q => simp only [Option.filter, hp q rfl, decide_true, if_true]
  cases e with
  | plant | child j => cases he
  | define j entries =>
    cases he
    rw [apply, hlayers, Layers.defineAll_cons]
    exact hput _
  | drop j name =>
    cases he
    rw [apply, hlayers]
    exact hput _
  | clear j =>
    cases he
    rfl

namespace History

variable {h : History α} {e : Edit α}

/-- A registry as its history tells it. -/
structure Told (h : History α) (i : Nat) (n : Node α) : Prop where
  parent : n.parent = h.parent i
  nodup : n.entries.keys.Nodup
  entries : ∀ name, n.entries.get? name = h.latest i name

/-- A registry that was just opened has no entries. -/
lemma told_opened (valid : Valid (e :: h)) (he : e.changes = none) :
    ∃ n, h.forest.apply e = h.forest ++ [n] ∧ Told (e :: h) h.size n := by
  have hlatest := latest_of_le valid.2 (Nat.le_refl h.size)
  cases e with
  | plant =>
    refine ⟨⟨none, []⟩, rfl, ?_, List.nodup_nil, fun name => (hlatest name).symm⟩
    exact (parent_of_le valid.2 (Nat.le_refl _)).symm
  | child j =>
    refine ⟨⟨some j, []⟩, rfl, ?_, List.nodup_nil, fun name => (hlatest name).symm⟩
    exact (if_pos rfl).symm
  | define j entries | drop j name | clear j => cases he

/-- A registry that was there is still told by its history when another one is opened. -/
lemma Told.opened {n : Node α} (ht : h.Told i n) (hi : i < h.size) (he : e.changes = none) :
    Told (e :: h) i n := by
  cases e with
  | plant => exact ⟨ht.parent, ht.nodup, ht.entries⟩
  | child j => exact ⟨ht.parent.trans (if_neg (Nat.ne_of_lt hi)).symm, ht.nodup, ht.entries⟩
  | define j entries | drop j name | clear j => cases he

/-- What an edit makes of a registry is what its history tells then. -/
lemma Told.changed {n : Node α} (ht : h.Told i n) (he : e.changes = some i) :
    Told (e :: h) i (e.change n) := by
  cases e with
  | plant | child j => cases he
  | define j entries =>
    cases he
    refine ⟨ht.parent, Dict.nodup_keys_update _ ht.nodup, fun name => ?_⟩
    simp only [Edit.change, Dict.get?_update_ofPairs, ht.entries, latest, if_true]
  | drop j dropped =>
    cases he
    refine ⟨ht.parent, ht.nodup.sublist (List.filter_sublist.map _), fun name => ?_⟩
    by_cases hname : name = dropped
    · subst hname
      simp only [Edit.change, Dict.get?_erase_self, latest, and_self, if_true]
    · simp only [Edit.change, Dict.get?_erase_ne _ (Ne.symm hname), ht.entries, latest, hname,
        and_false, if_false]
  | clear j =>
    cases he
    exact ⟨(if_pos rfl).symm, List.nodup_nil, fun name => (if_pos rfl).symm⟩

/-- Other registries are told as before. -/
lemma Told.kept {n : Node α} (ht : h.Told i n) (he : e.changes = some j) (hne : i ≠ j) :
    Told (e :: h) i n := by
  cases e with
  | plant | child k => cases he
  | define k entries =>
    cases he
    exact ⟨ht.parent, ht.nodup, fun name => (ht.entries name).trans (if_neg hne).symm⟩
  | drop k dropped =>
    cases he
    exact ⟨ht.parent, ht.nodup, fun name =>
      (ht.entries name).trans (if_neg fun h => hne h.1).symm⟩
  | clear k =>
    cases he
    exact ⟨ht.parent.trans (if_neg hne).symm, ht.nodup, fun name =>
      (ht.entries name).trans (if_neg hne).symm⟩

lemma size_of_opens (he : e.changes = none) : size (e :: h) = h.size + 1 := by
  cases e with
  | plant | child j => rfl
  | define j entries | drop j name | clear j => cases he

lemma size_of_changes (he : e.changes = some i) : size (e :: h) = h.size := by
  cases e with
  | plant | child j => cases he
  | define j entries | drop j name | clear j => rfl

lemma lt_of_changes {n : Nat} (fits : e.Fits n) (he : e.changes = some i) : i < n := by
  cases e with
  | plant | child j => cases he
  | define j entries | drop j name | clear j =>
    cases he
    exact fits

/-- An edit sets the registry that it changes, and nothing else. -/
lemma forest_of_changes (valid : Valid (e :: h)) (he : e.changes = some i)
    (hn : ∃ n, h.forest[i]? = some n ∧ h.Told i n) :
    ∃ n, forest (e :: h) = h.forest.set i n ∧ Told (e :: h) i n := by
  obtain ⟨⟨p, d⟩, hi, ht⟩ := hn
  refine ⟨e.change ⟨p, d⟩, apply_of_changes he hi fun q hq => ?_, ht.changed he⟩
  exact (parent_lt valid.2 (ht.parent.symm.trans hq)).1

/-- **The registries of a forest are as its history tells them.** -/
theorem forest_told (valid : h.Valid) : h.forest.length = h.size ∧
    ∀ i < h.size, ∃ n, h.forest[i]? = some n ∧ h.Told i n := by
  induction h with
  | nil => exact ⟨rfl, fun i hi => absurd hi (Nat.not_lt_zero i)⟩
  | cons e h ih =>
    obtain ⟨hlength, htold⟩ := ih valid.2
    cases he : e.changes with
    | none =>
      obtain ⟨n, hforest, hn⟩ := told_opened valid he
      rw [forest, hforest, size_of_opens he, List.length_append, hlength]
      refine ⟨rfl, fun i hi => ?_⟩
      rcases Nat.lt_succ_iff_lt_or_eq.mp hi with hi | rfl
      · obtain ⟨n', hget, ht⟩ := htold i hi
        exact ⟨n', by rw [List.getElem?_append_left (hlength ▸ hi), hget], ht.opened hi he⟩
      · exact ⟨n, by rw [← hlength, List.getElem?_concat_length], hn⟩
    | some j =>
      have hj := lt_of_changes valid.1 he
      obtain ⟨n, hforest, hn⟩ := forest_of_changes valid he (htold j hj)
      rw [hforest, size_of_changes he, List.length_set]
      refine ⟨hlength, fun i hi => ?_⟩
      by_cases hij : i = j
      · subst hij
        exact ⟨n, by rw [List.getElem?_set_self (hlength ▸ hi)], hn⟩
      · obtain ⟨n', hget, ht⟩ := htold i hi
        exact ⟨n', by rw [List.getElem?_set_ne (Ne.symm hij), hget], ht.kept he hij⟩

/-! ### What a registry shows -/

lemma layers_of_size_le (valid : h.Valid) (hi : h.size ≤ i) : h.forest.layers i = [] :=
  layers_of_none (List.getElem?_eq_none ((forest_told valid).1 ▸ hi))

/-- A registry shows its own layer on top of what its parent shows. -/
lemma layers_eq (valid : h.Valid) (hi : i < h.size) : ∃ d : Dict α, d.keys.Nodup ∧
    (∀ name, d.get? name = h.latest i name) ∧
    h.forest.layers i = d :: (h.parent i).elim [] h.forest.layers := by
  obtain ⟨⟨p, d⟩, hget, ht⟩ := (forest_told valid).2 i hi
  refine ⟨d, ht.nodup, ht.entries, ?_⟩
  have hp : p = h.parent i := ht.parent
  rw [layers_of_some hget, hp]
  cases hparent : h.parent i with
  | none => rfl
  | some q => simp [Option.filter, (parent_lt valid hparent).1]

lemma nodup_layers (valid : h.Valid) (i : Nat) : ∀ d ∈ h.forest.layers i, d.keys.Nodup := by
  induction i using Nat.strongRecOn with
  | _ i ih =>
    intro d hd
    rcases Nat.lt_or_ge i h.size with hi | hi
    · obtain ⟨d', hnodup, -, hlayers⟩ := layers_eq valid hi
      rw [hlayers] at hd
      rcases List.mem_cons.mp hd with rfl | hd
      · exact hnodup
      · cases hparent : h.parent i with
        | none =>
          rw [hparent] at hd
          cases hd
        | some q =>
          rw [hparent] at hd
          exact ih q (parent_lt valid hparent).1 d hd
    · rw [layers_of_size_le valid hi] at hd
      cases hd

lemma lookup_eq (valid : h.Valid) (i : Nat) (name : String) :
    (h.forest.layers i).lookup name =
      (h.latest i name).or ((h.parent i).bind fun p => (h.forest.layers p).lookup name) := by
  rcases Nat.lt_or_ge i h.size with hi | hi
  · obtain ⟨d, -, hget, hlayers⟩ := layers_eq valid hi
    rw [hlayers, Layers.lookup_cons, hget]
    cases h.parent i <;> cases h.latest i name <;> rfl
  · rw [layers_of_size_le valid hi, latest_of_le valid hi, parent_of_le valid hi]
    rfl

/-- What does not descend from the registry that an edit changes shows what it showed before. -/
lemma layers_kept (valid : Valid (e :: h)) (hj : j < h.size)
    (hd : ∀ i, e.changes = some i → ¬h.Descends j i) :
    (forest (e :: h)).layers j = h.forest.layers j := by
  obtain ⟨hlength, htold⟩ := forest_told valid.2
  have hsame (k : Nat) (hk : k < h.size) (hd : ∀ i, e.changes = some i → ¬h.Descends k i) :
      h.forest[k]? = (forest (e :: h))[k]? := by
    cases he : e.changes with
    | none =>
      obtain ⟨n, hforest, -⟩ := told_opened valid he
      rw [forest, hforest, List.getElem?_append_left (hlength ▸ hk)]
    | some i =>
      have hne : i ≠ k := by
        rintro rfl
        exact hd i he .refl
      obtain ⟨n, hforest, -⟩ := forest_of_changes valid he (htold i (lt_of_changes valid.1 he))
      rw [hforest, List.getElem?_set_ne hne]
  refine (layers_congr (P := fun k => k < h.size ∧ ∀ i, e.changes = some i → ¬h.Descends k i)
    (fun k hk => hsame k hk.1 hk.2) (fun k q d hk hget hq => ?_) ⟨hj, hd⟩).symm
  obtain ⟨n, hget', ht⟩ := htold k hk.1
  rw [hget] at hget'
  cases hget'
  refine ⟨Nat.lt_trans hq hk.1, fun i he hdq => hk.2 i he ?_⟩
  exact hdq.head ht.parent.symm

/-! ### Emptied registries -/

lemma latest_behind_clear (later : History α) (i : Nat) (name : String) :
    latest (later ++ .clear i :: h) i name = later.latest i name := by
  induction later with
  | nil => exact if_pos rfl
  | cons e later ih =>
    cases e with
    | plant | child j => exact ih
    | define j entries | drop j dropped | clear j =>
      simp only [List.cons_append, latest, ih]

lemma parent_behind_clear {later : History α} (valid : Valid (later ++ .clear i :: h)) :
    parent (later ++ .clear i :: h) i = none ∧ i < size (later ++ .clear i :: h) := by
  induction later with
  | nil => exact ⟨if_pos rfl, valid.1⟩
  | cons e later ih =>
    obtain ⟨hnone, hlt⟩ := ih valid.2
    cases e with
    | plant => exact ⟨hnone, Nat.lt_succ_of_lt hlt⟩
    | child j => exact ⟨(if_neg (Nat.ne_of_lt hlt)).trans hnone, Nat.lt_succ_of_lt hlt⟩
    | define j entries | drop j dropped => exact ⟨hnone, hlt⟩
    | clear j =>
      refine ⟨?_, hlt⟩
      simp only [List.cons_append, parent, hnone, ite_self]

/-! ### Forests of overlays -/

/-- The registries of a forest are consistent overlays of each other. -/
structure Overlaid (h : History α) : Prop where
  /-- What is found is what was last registered and not removed since, or else what the parent
  finds. -/
  lookup : ∀ i name, (h.forest.layers i).lookup name =
    (h.latest i name).or ((h.parent i).bind fun p => (h.forest.layers p).lookup name)
  /-- An edit of a registry is only seen in it and in what descends from it, and a new registry is
  seen in no other one. -/
  kept : ∀ e : Edit α, e.Fits h.size → ∀ j < h.size,
    (∀ i, e.changes = some i → ¬h.Descends j i) →
      (forest (e :: h)).layers j = h.forest.layers j
  /-- What a registry descends from does not descend from it. -/
  acyclic : ∀ i j, h.Descends i j → h.Descends j i → i = j
  /-- An emptied registry shows nothing. -/
  cleared : ∀ i < h.size, (forest (.clear i :: h)).layers i = [[]]
  /-- And whatever is done later, it shows only what was registered in it since. -/
  detached : ∀ i (later : History α), Valid (later ++ .clear i :: h) → ∀ name,
    ((forest (later ++ .clear i :: h)).layers i).lookup name = later.latest i name

lemma overlaid (valid : h.Valid) : h.Overlaid where
  lookup := lookup_eq valid
  kept e fits j hj hd := layers_kept ⟨fits, valid⟩ hj hd
  acyclic i j hij hji := Nat.le_antisymm (hji.le valid) (hij.le valid)
  cleared i hi := by
    rw [← (forest_told valid).1] at hi
    exact layers_of_some (p := none) (List.getElem?_set_self hi)
  detached i later hvalid name := by
    rw [lookup_eq hvalid, latest_behind_clear, (parent_behind_clear hvalid).1]
    exact Option.or_none

end History

end Forest

/-- **Registries are consistent overlays.** For every history of a forest of block registries, and
of one of procedure registries: each registry finds what was last registered in it and not removed
since, or else what its parent finds; an edit of one is only seen in it and in those that descend
from it; one that is emptied shows nothing, and what was below it never shows again; all ways to
look at one describe the same names; and the categories of blocks divide them. -/
theorem registries_are_overlays :
    (∀ h : Forest.History Block, h.Valid → h.Overlaid ∧
      ∀ i (e : Environment), e.blocks = h.forest.layers i →
        e.blocks.ShownBy e.require .unknownBlock e.types ∧ e.Divided) ∧
    ∀ h : Forest.History Procedure, h.Valid → h.Overlaid ∧
      ∀ i (c : Context), c.shared.procedures = h.forest.layers i →
        c.shared.procedures.ShownBy (fun name => (Context.procedure name c).1.ended)
          .unknownProcedure c.shared.procedures.names := by
  refine ⟨fun h valid => ⟨h.overlaid valid, fun i e he => ?_⟩,
    fun h valid => ⟨h.overlaid valid, fun i c hc => ?_⟩⟩
  · have hnodup : ∀ d ∈ e.blocks, d.keys.Nodup := he ▸ h.nodup_layers valid i
    refine ⟨Layers.shownBy hnodup (List.Perm.refl _) fun type => ?_, Environment.divided hnodup⟩
    rw [Environment.require]
    cases e.blocks.lookup type <;> rfl
  · have hnodup : ∀ d ∈ c.shared.procedures, d.keys.Nodup := hc ▸ h.nodup_layers valid i
    refine Layers.shownBy hnodup (List.mergeSort_perm _ _) fun name => ?_
    rw [Context.procedure, Action.bind_run, Action.get_run]
    dsimp only
    cases c.shared.procedures.lookup name <;> rfl

/-- A block of a category that does nothing. -/
def stocked (type category : String) : Block :=
  { type, category, executor := fun _ => return .value .null }

/-- A procedure without steps. -/
def scripted (name : String) : Procedure := ⟨name, none, [], none, []⟩

/-- A lamp in the shop. The cellar below had one of its own, which is gone, and has a rug; what was
opened on the cellar was emptied. -/
def shelf : Forest.History Block :=
  [.clear 2, .drop 1 "lamp",
    .define 1 [("lamp", stocked "lamp" "Cellar"), ("rug", stocked "rug" "Cellar")],
    .child 1, .child 0, .define 0 [("lamp", stocked "lamp" "Shop")], .plant]

/-- A script of a shop, and one of a clerk who has forgotten all scripts. -/
def scripts : Forest.History Procedure :=
  [.define 1 [("leave", scripted "leave")], .clear 1, .child 0,
    .define 0 [("greet", scripted "greet")], .plant]

/-- The lamp that is seen in the cellar is that of the shop, and the clerk does not greet. -/
theorem registries_are_overlays_shelf :
    shelf.Valid ∧ shelf.Overlaid ∧
      (shelf.forest.layers 1).lookup "lamp" = some (stocked "lamp" "Shop") ∧
      (∀ e : Environment, e.blocks = shelf.forest.layers 1 →
        e.types.Nodup ∧ "lamp" ∈ e.types ∧ "lamp" ∈ e.typesOf "Shop") ∧
      scripts.Valid ∧ (scripts.forest.layers 1).lookup "greet" = none ∧
      (scripts.forest.layers 1).names.Nodup := by
  have hshelf : shelf.Valid := by
    simp [shelf, Forest.History.Valid, Forest.Edit.Fits, Forest.History.size]
  have hscripts : scripts.Valid := by
    simp [scripts, Forest.History.Valid, Forest.Edit.Fits, Forest.History.size]
  obtain ⟨hover, hshown⟩ := registries_are_overlays.1 shelf hshelf
  obtain ⟨hover', hshown'⟩ := registries_are_overlays.2 scripts hscripts
  have hlamp : (shelf.forest.layers 1).lookup "lamp" = some (stocked "lamp" "Shop") := by
    rw [hover.lookup 1, show shelf.latest 1 "lamp" = none from rfl,
      show shelf.parent 1 = some 0 from rfl, Option.none_or, Option.bind_some, hover.lookup 0]
    rfl
  refine ⟨hshelf, hover, hlamp, fun e he => ?_, hscripts, ?_, ?_⟩
  · obtain ⟨hshows, hdivided⟩ := hshown 1 e he
    refine ⟨hshows.nodup, (hshows.lookup "lamp").mp ⟨_, he ▸ hlamp⟩, ?_⟩
    exact (hdivided.typesOf _ _).mpr ⟨_, he ▸ hlamp, rfl⟩
  · rw [hover'.lookup 1]
    rfl
  · exact (hshown' 1 { shared := { procedures := scripts.forest.layers 1 } } rfl).nodup

end BlockSuite
