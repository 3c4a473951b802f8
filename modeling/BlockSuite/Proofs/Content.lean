import BlockSuite.Proofs.Portable

/-!
The content of values that JSON carries. Scalars have the same content if they are the same, lists
if their items have, one by one, and mappings if they bind the same keys to the same content. What
order the members of a mapping come in is no content; compact JSON tells it nevertheless.
-/

namespace BlockSuite

namespace Value

variable {d e : Dict Value} {xs : List Value} {v w : Value}

lemma record_injective (h : record d = record e) : d = e := by
  have hpair : Function.Injective fun x : String × Value => (text x.1, x.2) := by
    rintro ⟨k, v⟩ ⟨k', v'⟩ heq
    obtain ⟨hk, hv⟩ := Prod.mk.injEq .. ▸ heq
    exact Prod.ext (Value.text.inj hk) hv
  exact hpair.list_map (Value.dict.inj h)

lemma Portable.items (h : (Value.list xs).Portable) : ∀ x ∈ xs, x.Portable := by
  cases h with
  | list items => exact items

lemma Portable.keys_members (h : (record d).Portable) :
    d.keys.Nodup ∧ ∀ x ∈ d, x.2.Portable := by
  generalize hv : record d = v at h
  cases h with
  | dict keys members =>
    obtain rfl := record_injective hv
    exact ⟨keys, members⟩
  | _ => cases hv

/-- Two values match: they are the same scalar, or lists of matching items, or mappings whose keys
are in some relation and that bind matching values to the keys they have in common. -/
inductive Matches (R : List String → List String → Prop) : Value → Value → Prop
  | null : Matches R .null .null
  | bool (b : Bool) : Matches R (.bool b) (.bool b)
  | int (i : Int) : Matches R (.int i) (.int i)
  | text (s : String) : Matches R (.text s) (.text s)
  | list {xs ys : List Value} (length : xs.length = ys.length)
    (items : ∀ i (hi : i < xs.length) (hj : i < ys.length), Matches R xs[i] ys[i]) :
    Matches R (.list xs) (.list ys)
  | record {d e : Dict Value} (keys : R d.keys e.keys)
    (members : ∀ x ∈ d, ∀ y ∈ e, x.1 = y.1 → Matches R x.2 y.2) :
    Matches R (.record d) (.record e)

/-- Two values have the same content: the members of mappings may come in any order. -/
def SameContent (v w : Value) : Prop := v.Matches List.Perm w

/-- Two values have the same content in the same order. -/
def InOrder (v w : Value) : Prop := v.Matches Eq w

variable {R S : List String → List String → Prop}

lemma Matches.mono (h : v.Matches R w) (hRS : ∀ ks ls, R ks ls → S ks ls) : v.Matches S w := by
  induction h with
  | null => exact .null
  | bool b => exact .bool b
  | int i => exact .int i
  | text s => exact .text s
  | list length _ ih => exact .list length ih
  | record keys _ ih => exact .record (hRS _ _ keys) ih

lemma InOrder.sameContent (h : v.InOrder w) : v.SameContent w :=
  h.mono fun ks _ heq => heq ▸ List.Perm.refl ks

/-- In a value the members of all mappings come in the order of their keys. -/
inductive Sorted : Value → Prop
  | null : Sorted .null
  | bool (b : Bool) : Sorted (.bool b)
  | int (i : Int) : Sorted (.int i)
  | text (s : String) : Sorted (.text s)
  | list {xs : List Value} (items : ∀ x ∈ xs, Sorted x) : Sorted (.list xs)
  | record {d : Dict Value} (keys : d.keys.Pairwise (· < ·)) (members : ∀ x ∈ d, Sorted x.2) :
    Sorted (.record d)

lemma Sorted.items (h : (Value.list xs).Sorted) : ∀ x ∈ xs, x.Sorted := by
  cases h with
  | list items => exact items

lemma Sorted.keys_members (h : (Value.record d).Sorted) :
    d.keys.Pairwise (· < ·) ∧ ∀ x ∈ d, x.2.Sorted := by
  generalize hv : Value.record d = v at h
  cases h with
  | record keys members =>
    obtain rfl := record_injective hv
    exact ⟨keys, members⟩
  | _ => cases hv

/-- Where all members come in the order of their keys, there is one order for a content. -/
lemma SameContent.inOrder (h : v.SameContent w) (hv : v.Sorted) (hw : w.Sorted) : v.InOrder w := by
  induction h with
  | null => exact .null
  | bool b => exact .bool b
  | int i => exact .int i
  | text s => exact .text s
  | list length _ ih =>
    exact .list length fun i hi hj =>
      ih i hi hj (hv.items _ (List.getElem_mem hi)) (hw.items _ (List.getElem_mem hj))
  | record keys _ ih =>
    obtain ⟨hd, hvalues⟩ := hv.keys_members
    obtain ⟨he, hothers⟩ := hw.keys_members
    have hkeys := keys.eq_of_pairwise
      (fun _ _ _ _ hlt hgt => absurd hgt (String.lt_asymm hlt)) hd he
    exact .record hkeys fun x hx y hy heq => ih x hx y hy heq (hvalues x hx) (hothers y hy)

/-! ### Content in order -/

/-- A value that JSON carries has its own content. -/
lemma Portable.inOrder_self (h : v.Portable) : v.InOrder v := by
  induction h with
  | null => exact .null
  | bool b => exact .bool b
  | int => exact .int _
  | text s => exact .text s
  | list _ ih => exact .list rfl fun i hi _ => ih _ (List.getElem_mem hi)
  | @dict d keys _ ih =>
    refine .record rfl ?_
    rintro ⟨k, x⟩ hx ⟨_, y⟩ hy rfl
    obtain rfl := Dict.eq_of_mem_of_nodup keys hx hy
    exact ih _ hx

/-- Among the values that JSON carries, only a value itself has its content in the same order. -/
lemma InOrder.eq (h : v.InOrder w) (hv : v.Portable) (hw : w.Portable) : v = w := by
  induction h with
  | null | bool | int | text => rfl
  | @list xs ys length _ ih =>
    refine congrArg Value.list (List.ext_getElem length fun i hi hj => ?_)
    exact ih i hi hj (hv.items _ (List.getElem_mem hi)) (hw.items _ (List.getElem_mem hj))
  | @record d e keys _ ih =>
    have hlength : d.length = e.length := by simpa [Dict.keys] using congrArg List.length keys
    refine congrArg Value.record (List.ext_getElem hlength fun i hi hj => ?_)
    have hkey : d[i].1 = e[i].1 := by
      simpa [Dict.keys, hi, hj] using congrArg (fun ks : List String => ks[i]?) keys
    have hvalue := ih _ (List.getElem_mem hi) _ (List.getElem_mem hj) hkey
      (hv.keys_members.2 _ (List.getElem_mem hi)) (hw.keys_members.2 _ (List.getElem_mem hj))
    exact Prod.ext hkey hvalue

/-- **Compact JSON tells content in order.** Values that JSON carries have the same compact JSON if
and only if they have the same content in the same order. -/
theorem toJson_eq_iff_inOrder (hv : v.Portable) (hw : w.Portable) :
    v.toJson = w.toJson ↔ v.InOrder w :=
  ⟨fun h => hv.toJson_injective hw h ▸ hv.inOrder_self, fun h => h.eq hv hw ▸ rfl⟩

end Value

end BlockSuite
