import BlockSuite.Dict
import BlockSuite.Value.Equal

/-!
Layered registries. A registry sees its own entries and, where it has no entry of its own, those
of the registries below it; writing changes its own layer only. Registries that grow out of each
other form a forest, in which a change of one is seen by all that were opened on top of it.
-/

namespace BlockSuite

/-- What a registry sees: its own layer first, then the layers below. -/
abbrev Layers (α : Type u) := List (Dict α)

namespace Layers

variable {α : Type u}

/-- A registry without entries. -/
def empty : Layers α := [[]]

/-- The visible entry of a name. -/
def lookup (l : Layers α) (name : String) : Option α := l.findSome? (Dict.get? · name)

/-- The visible entry under a value. Only texts are names, and what cannot be a key is a fault. -/
def lookupValue (l : Layers α) (v : Value) : Except Fault (Option α) :=
  match v with
  | .text name => .ok (l.lookup name)
  | v => v.keyFault?.elim (.ok none) .error

def has (l : Layers α) (name : String) : Bool := (l.lookup name).isSome

/-- The visible entries: those of the own layer first, then what it does not hide. -/
def visible : Layers α → Dict α
  | [] => []
  | d :: below => d ++ (visible below).filter fun e => !d.has e.1

/-- The visible names, sorted. -/
def names (l : Layers α) : List String := l.visible.keys.mergeSort fun a b => decide (a ≤ b)

/-- Writes an entry into the own layer. -/
def define : Layers α → String → α → Layers α
  | [], name, a => [Dict.set [] name a]
  | d :: below, name, a => d.set name a :: below

/-- Removes an entry from the own layer. -/
def drop : Layers α → String → Layers α
  | [], _ => []
  | d :: below, name => d.erase name :: below

/-- Writes entries into the own layer, one after the other. -/
def defineAll (l : Layers α) (entries : List (String × α)) : Layers α :=
  entries.foldl (fun l e => l.define e.1 e.2) l

/-- A registry on top. -/
def child (l : Layers α) : Layers α := [] :: l

@[simp] theorem lookup_nil (name : String) : lookup ([] : Layers α) name = none := rfl

theorem lookup_cons (d : Dict α) (below : Layers α) (name : String) :
    lookup (d :: below) name = (d.get? name <|> lookup below name) := by
  simp only [lookup, List.findSome?_cons]
  cases d.get? name <;> rfl

@[simp] theorem lookup_child (l : Layers α) (name : String) :
    l.child.lookup name = l.lookup name := by
  simp [child, lookup_cons]

@[simp] theorem visible_child (l : Layers α) : l.child.visible = l.visible := by
  simp [child, visible]

theorem lookup_define_self (l : Layers α) (name : String) (a : α) :
    (l.define name a).lookup name = some a := by
  cases l with
  | nil => simp [define, lookup_cons, Dict.get?_cons]
  | cons d below => simp [define, lookup_cons, Dict.get?_set_self]

theorem lookup_define_ne (l : Layers α) {name other : String} (a : α) (h : name ≠ other) :
    (l.define name a).lookup other = l.lookup other := by
  cases l with
  | nil => simp [define, lookup_cons, Dict.get?_cons, h]
  | cons d below => simp [define, lookup_cons, Dict.get?_set_ne d a h]

end Layers

/-- A registry of a forest: its own entries and the registry it was opened on. -/
structure Node (α : Type u) where
  parent : Option Nat
  entries : Dict α
deriving Repr, Inhabited

/-- Registries by number. Each was opened on an earlier one, if on any. -/
abbrev Forest (α : Type u) := List (Node α)

namespace Forest

variable {α : Type u}

/-- A forest of one registry without entries. -/
def root : Forest α := [⟨none, []⟩]

/-- What a registry sees. -/
def layers (f : Forest α) (i : Nat) : Layers α :=
  match f[i]? with
  | none => []
  | some node =>
    match node.parent with
    | none => [node.entries]
    | some p => if p < i then node.entries :: layers f p else [node.entries]
termination_by i

/-- Opens a registry on another one and gives its number. -/
def openOn (f : Forest α) (i : Nat) : Nat × Forest α := (f.length, f ++ [⟨some i, []⟩])

/-- Changes the own layer of a registry. -/
def update (f : Forest α) (i : Nat) (change : Dict α → Dict α) : Forest α :=
  f.modify i fun node => { node with entries := change node.entries }

/-- Empties a registry and closes what is below to it. -/
def clear (f : Forest α) (i : Nat) : Forest α := f.set i ⟨none, []⟩

/-- Writes back what a registry sees after a change of its own layer. -/
def put (f : Forest α) (i : Nat) (l : Layers α) : Forest α :=
  match l with
  | [] => f.clear i
  | [d] => f.modify i fun _ => ⟨none, d⟩
  | d :: _ => f.update i fun _ => d

/-- What may be done to a forest: a new registry stands alone or is opened on another one, entries
are written into a registry, one is removed from its own layer, or all of it is emptied. -/
inductive Edit (α : Type u) where
  | plant
  | child (i : Nat)
  | define (i : Nat) (entries : List (String × α))
  | drop (i : Nat) (name : String)
  | clear (i : Nat)
deriving Repr

/-- The forest after an edit. -/
def apply (f : Forest α) : Edit α → Forest α
  | .plant => f ++ [⟨none, []⟩]
  | .child i => (f.openOn i).2
  | .define i entries => f.put i ((f.layers i).defineAll entries)
  | .drop i name => f.put i ((f.layers i).drop name)
  | .clear i => f.clear i

end Forest

end BlockSuite
