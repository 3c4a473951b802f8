import Mathlib.Data.List.Nodup
import BlockSuite.Registry

/-!
What binding a key does to a dictionary: nothing is lost but the value that is replaced, a new key
comes last, and no key is bound twice. What a registry sees is an entry of one of its layers.
-/

namespace BlockSuite

namespace Dict

variable {α : Type} {d : Dict α} {key : String} {v : α}

lemma mem_set {e : String × α} (h : e ∈ d.set key v) : e = (key, v) ∨ e ∈ d := by
  induction d with
  | nil => exact .inl (List.mem_singleton.mp h)
  | cons e' rest ih =>
    obtain ⟨k, w⟩ := e'
    rw [set] at h
    split at h
    · rcases List.mem_cons.mp h with h | h
      · exact .inl h
      · exact .inr (List.mem_cons_of_mem _ h)
    · rcases List.mem_cons.mp h with h | h
      · exact .inr (h ▸ List.mem_cons_self)
      · exact (ih h).imp id (List.mem_cons_of_mem _)

lemma mem_update {e : String × α} {other : Dict α} (h : e ∈ d.update other) :
    e ∈ d ∨ e ∈ other := by
  induction other generalizing d with
  | nil => exact .inl h
  | cons e' rest ih =>
    rcases ih h with h | h
    · rcases mem_set h with rfl | h
      · exact .inr List.mem_cons_self
      · exact .inl h
    · exact .inr (List.mem_cons_of_mem _ h)

lemma mem_of_get? (h : d.get? key = some v) : (key, v) ∈ d := by
  obtain ⟨⟨k, w⟩, hentry, rfl⟩ := Option.map_eq_some_iff.mp h
  obtain rfl : k = key := by simpa using List.find?_some hentry
  exact List.mem_of_find?_eq_some hentry

lemma mem_set_self (d : Dict α) (key : String) (v : α) : (key, v) ∈ d.set key v := by
  induction d with
  | nil => simp
  | cons e rest ih =>
    by_cases h : e.1 == key
    · simp [set, h]
    · simp [set, h, ih]

/-- A key that is not bound yet comes last. -/
lemma set_of_not_has (h : d.has key = false) (v : α) : d.set key v = d ++ [(key, v)] := by
  induction d with
  | nil => rfl
  | cons e rest ih =>
    obtain ⟨k, w⟩ := e
    obtain ⟨hk, hrest⟩ : (k == key) = false ∧ Dict.has rest key = false := by
      simpa [has] using h
    rw [set, hk, if_neg (by simp), ih hrest]
    rfl

lemma has_set_of_ne {other : String} (h : key ≠ other) (v : α) :
    (d.set key v).has other = d.has other := by
  rw [has_iff_get?_isSome, has_iff_get?_isSome, get?_set_ne d v h]

lemma nodup_keys_set (h : d.keys.Nodup) (key : String) (v : α) : (d.set key v).keys.Nodup := by
  induction d with
  | nil => simp [keys]
  | cons e rest ih =>
    obtain ⟨k, w⟩ := e
    obtain ⟨hk, hrest⟩ := List.nodup_cons.mp h
    rw [set]
    split
    · next heq =>
      have heq : k = key := by simpa using heq
      subst heq
      exact h
    · next hne =>
      refine List.nodup_cons.mpr ⟨fun hmem => hk ?_, ih hrest⟩
      obtain ⟨e, he, heq⟩ := List.mem_map.mp hmem
      rcases mem_set he with rfl | he
      · exact absurd heq.symm (by simpa using hne)
      · exact List.mem_map.mpr ⟨e, he, heq⟩

lemma nodup_keys_update (pairs : Dict α) (h : d.keys.Nodup) : (d.update pairs).keys.Nodup := by
  induction pairs generalizing d with
  | nil => exact h
  | cons e rest ih => exact ih (nodup_keys_set h e.1 e.2)

lemma nodup_keys_ofPairs (pairs : List (String × α)) : (ofPairs pairs).keys.Nodup :=
  nodup_keys_update pairs List.nodup_nil

/-- A dictionary whose keys are distinct is that of its own pairs. -/
lemma ofPairs_of_nodup {d : Dict α} (h : d.keys.Nodup) : ofPairs d = d := by
  have hupdate (d e : Dict α) (h : Dict.keys (d ++ e) |>.Nodup) : d.update e = d ++ e := by
    induction e generalizing d with
    | nil => simp [update]
    | cons x rest ih =>
      have hx : d.has x.1 = false := by
        simp only [keys, List.map_append, List.map_cons, List.nodup_append] at h
        simp only [has, ← Bool.not_eq_true, List.any_eq_true, beq_iff_eq, not_exists, not_and]
        exact fun y hy => h.2.2 y.1 (List.mem_map_of_mem hy) x.1 List.mem_cons_self
      have hset : d.update (x :: rest) = (d.set x.1 x.2).update rest := rfl
      rw [hset, set_of_not_has hx, ih _ (by simpa using h), List.append_assoc]
      rfl
  exact hupdate [] d h

lemma keys_set (d : Dict α) (key : String) (v : α) :
    (d.set key v).keys = if key ∈ d.keys then d.keys else d.keys ++ [key] := by
  induction d with
  | nil => rfl
  | cons e rest ih =>
    obtain ⟨k, w⟩ := e
    by_cases hk : k = key
    · subst hk
      simp [set, keys]
    · have hs : set ((k, w) :: rest) key v = (k, w) :: set rest key v := by simp [set, hk]
      have hkeys : key ∈ k :: keys rest ↔ key ∈ keys rest := by
        simp [show ¬key = k from fun h => hk h.symm]
      rw [hs]
      change k :: keys (set rest key v) = if key ∈ k :: keys rest then k :: keys rest else _
      rw [ih, if_congr hkeys rfl rfl]
      split <;> rfl

lemma keys_update (d : Dict α) (pairs : List (String × α)) :
    (d.update pairs).keys =
      d.keys ++ ((pairs.map (·.1)).filter fun key => key ∉ d.keys).eraseDups := by
  induction pairs generalizing d with
  | nil => simp [update]
  | cons e rest ih =>
    change ((d.set e.1 e.2).update rest).keys = _
    rw [ih, keys_set]
    by_cases h : e.1 ∈ d.keys
    · simp [h]
    · rw [if_neg h, List.map_cons, List.filter_cons_of_pos (by simpa using h),
        List.eraseDups_cons, List.filter_filter, List.append_assoc, List.singleton_append]
      congr 4
      funext key
      simp [and_comm, beq_eq_decide]

lemma get?_update_of_not_mem {d other : Dict α} (h : key ∉ other.keys) :
    (d.update other).get? key = d.get? key := by
  induction other generalizing d with
  | nil => rfl
  | cons e rest ih =>
    obtain ⟨hne, hrest⟩ : ¬key = e.1 ∧ key ∉ Dict.keys rest := by
      simpa [keys] using h
    exact (ih hrest).trans (get?_set_ne d e.2 (Ne.symm hne))

/-- A key that is bound to one value only is bound to that. -/
lemma get?_update_of_mem {d other : Dict α} (h : (key, v) ∈ other)
    (unique : ∀ w, (key, w) ∈ other → w = v) : (d.update other).get? key = some v := by
  induction other generalizing d with
  | nil => simp at h
  | cons e rest ih =>
    change ((d.set e.1 e.2).update rest).get? key = some v
    by_cases hrest : key ∈ Dict.keys rest
    · obtain ⟨⟨k, w⟩, hmem, rfl⟩ := List.mem_map.mp hrest
      obtain rfl := unique w (List.mem_cons_of_mem _ hmem)
      exact ih hmem fun w hw => unique w (List.mem_cons_of_mem _ hw)
    · rw [get?_update_of_not_mem hrest]
      rcases List.mem_cons.mp h with rfl | h
      · exact get?_set_self d key v
      · exact absurd (List.mem_map.mpr ⟨_, h, rfl⟩) hrest

lemma get?_eq_none_iff {d : Dict α} : d.get? key = none ↔ key ∉ d.keys := by
  rw [← Option.not_isSome_iff_eq_none, ← has_iff_get?_isSome]
  simp [has, keys]

lemma eq_of_mem_of_nodup {d : Dict α} (h : d.keys.Nodup) (hv : (key, v) ∈ d) {w : α}
    (hw : (key, w) ∈ d) : w = v := by
  induction d with
  | nil => simp at hv
  | cons e rest ih =>
    obtain ⟨hnot, hrest⟩ := List.nodup_cons.mp h
    have hkey {u : α} (hu : (key, u) ∈ rest) : key ∈ Dict.keys rest := List.mem_map.mpr ⟨_, hu, rfl⟩
    rcases List.mem_cons.mp hv with rfl | hv'
    · rcases List.mem_cons.mp hw with hw | hw
      · exact (Prod.mk.inj hw).2
      · exact absurd (hkey hw) hnot
    · rcases List.mem_cons.mp hw with rfl | hw'
      · exact absurd (hkey hv') hnot
      · exact ih hrest hv' hw'

lemma get?_of_mem {d : Dict α} (h : d.keys.Nodup) (hv : (key, v) ∈ d) : d.get? key = some v := by
  cases hget : d.get? key with
  | none => exact absurd (List.mem_map.mpr ⟨_, hv, rfl⟩) (get?_eq_none_iff.mp hget)
  | some w => rw [eq_of_mem_of_nodup h hv (mem_of_get? hget)]

/-- What a second dictionary binds last comes before what was there. -/
lemma get?_update_ofPairs (d other : Dict α) :
    (d.update other).get? key = ((ofPairs other).get? key).or (d.get? key) := by
  induction other generalizing d with
  | nil => rfl
  | cons e rest ih =>
    have hset (d : Dict α) : d.update (e :: rest) = (d.set e.1 e.2).update rest := rfl
    rw [ofPairs, hset, hset, ih, ih (set [] e.1 e.2), Option.or_assoc]
    by_cases h : e.1 = key
    · subst h
      simp only [get?_set_self, Option.some_or]
    · simp only [get?_set_ne _ _ h, get?_nil, Option.none_or]

/-- Where no key is bound twice, the values of a second dictionary come before those that were
there. -/
lemma get?_update {d other : Dict α} (h : other.keys.Nodup) :
    (d.update other).get? key = (other.get? key).or (d.get? key) := by
  cases hget : other.get? key with
  | none => exact get?_update_of_not_mem (get?_eq_none_iff.mp hget)
  | some v =>
    have hv := mem_of_get? hget
    exact get?_update_of_mem hv fun w hw => eq_of_mem_of_nodup h hv hw

/-- Pairs with distinct keys bind them as they stand. -/
lemma get?_ofPairs {d : Dict α} (h : d.keys.Nodup) : (ofPairs d).get? key = d.get? key := by
  rw [ofPairs, get?_update h, get?_nil, Option.or_none]

/-- The pair that counts for a key is the last one that has it. -/
lemma get?_ofPairs_reverse (pairs : List (String × α)) (key : String) :
    (ofPairs pairs).get? key = get? pairs.reverse key := by
  induction pairs with
  | nil => rfl
  | cons e rest ih =>
    have hcons : ofPairs (e :: rest) = update [e] rest := rfl
    rw [hcons, get?_update_ofPairs, ih, List.reverse_cons]
    simp only [get?, List.find?_append, Option.map_or]

/-- Keys stand where they were bound first. -/
lemma keys_ofPairs (pairs : List (String × α)) :
    (ofPairs pairs).keys = (pairs.map (·.1)).eraseDups := by
  rw [ofPairs, keys_update]
  simp [keys]

/-- To bind a key and to change the values are independent of each other. -/
lemma map_set {β : Type} (g : α → β) (d : Dict α) (key : String) (v : α) :
    (d.set key v).map (fun e => (e.1, g e.2)) = set (d.map fun e => (e.1, g e.2)) key (g v) := by
  induction d with
  | nil => rfl
  | cons e rest ih =>
    obtain ⟨k, w⟩ := e
    rw [set, List.map_cons, set]
    split
    · rfl
    · rw [List.map_cons, ih]

end Dict

lemma Layers.mem_of_lookup {α : Type} {l : Layers α} {name : String} {a : α}
    (h : l.lookup name = some a) : ∃ d ∈ l, (name, a) ∈ d := by
  obtain ⟨d, hd, h⟩ := List.exists_of_findSome?_eq_some h
  exact ⟨d, hd, Dict.mem_of_get? h⟩

end BlockSuite
