/-!
Dictionaries that remember the order in which their keys were first bound. Binding a key again
replaces its value in place; removing and binding it again moves it to the end.
-/

namespace BlockSuite

/-- Values by text key, in order of first binding. -/
abbrev Dict (α : Type u) := List (String × α)

namespace Dict

variable {α : Type u}

/-- The value bound to a key. -/
def get? (d : Dict α) (key : String) : Option α := (d.find? (·.1 == key)).map (·.2)

/-- Whether a key is bound. -/
def has (d : Dict α) (key : String) : Bool := d.any (·.1 == key)

/-- Binds a key. -/
def set : Dict α → String → α → Dict α
  | [], key, value => [(key, value)]
  | (k, v) :: rest, key, value =>
    if k == key then (key, value) :: rest else (k, v) :: set rest key value

/-- Unbinds a key. -/
def erase (d : Dict α) (key : String) : Dict α := d.filter (·.1 != key)

/-- Binds every key of a second dictionary, in its order. -/
def update (d other : Dict α) : Dict α := other.foldl (fun d e => d.set e.1 e.2) d

/-- The bound keys in order. -/
def keys (d : Dict α) : List String := d.map (·.1)

/-- A dictionary from pairs; a later pair replaces the value of an earlier one. -/
def ofPairs (pairs : List (String × α)) : Dict α := update [] pairs

@[simp] theorem get?_nil (key : String) : get? ([] : Dict α) key = none := rfl

@[simp] theorem has_nil (key : String) : has ([] : Dict α) key = false := rfl

@[simp] theorem set_nil (key : String) (v : α) : set ([] : Dict α) key v = [(key, v)] := rfl

theorem get?_cons (k : String) (v : α) (d : Dict α) (key : String) :
    get? ((k, v) :: d) key = if k = key then some v else get? d key := by
  by_cases h : k = key <;> simp [get?, h]

theorem get?_set_self (d : Dict α) (key : String) (v : α) : (d.set key v).get? key = some v := by
  induction d with
  | nil => simp [set, get?_cons]
  | cons e rest ih =>
    obtain ⟨k, w⟩ := e
    by_cases h : k = key <;> simp [set, get?_cons, h, ih]

theorem get?_set_ne (d : Dict α) {key other : String} (v : α) (h : key ≠ other) :
    (d.set key v).get? other = d.get? other := by
  induction d with
  | nil => simp [set, get?_cons, h]
  | cons e rest ih =>
    obtain ⟨k, w⟩ := e
    by_cases hk : k = key
    · subst hk; simp [set, get?_cons, h]
    · have hs : set ((k, w) :: rest) key v = (k, w) :: set rest key v := by simp [set, hk]
      rw [hs, get?_cons, get?_cons, ih]

theorem has_iff_get?_isSome (d : Dict α) (key : String) : d.has key = (d.get? key).isSome := by
  induction d with
  | nil => rfl
  | cons e rest ih =>
    obtain ⟨k, w⟩ := e
    by_cases h : k = key
    · simp [has, get?_cons, h]
    · rw [get?_cons, if_neg h, ← ih]
      simp [has, h]

theorem get?_erase_self (d : Dict α) (key : String) : (d.erase key).get? key = none := by
  induction d with
  | nil => rfl
  | cons e rest ih =>
    obtain ⟨k, w⟩ := e
    by_cases h : k = key
    · simpa [erase, h] using ih
    · simp only [erase] at ih ⊢
      simp [get?_cons, h, ih]

theorem get?_erase_ne (d : Dict α) {key other : String} (h : key ≠ other) :
    (d.erase key).get? other = d.get? other := by
  induction d with
  | nil => rfl
  | cons e rest ih =>
    obtain ⟨k, w⟩ := e
    simp only [erase] at ih ⊢
    by_cases hk : k = key
    · subst hk
      simp [get?_cons, h, ih]
    · simp [get?_cons, hk, ih]

end Dict

end BlockSuite
