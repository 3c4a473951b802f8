import BlockSuite.Yaml.Spelled
import BlockSuite.Value.Equal
import BlockSuite.Value.Origins

/-!
Documents as values. Members of a mapping that are merged into another come before its own, so
that its own count. The parts of a collection are made after all collections around and beside
it, so of several problems the one closest to the root counts, and the first of those in the
text.
-/

namespace BlockSuite.Yaml

namespace Node

/-- Whether a node has a tag of the standard. -/
def hasTag (n : Node) (t : Tag) : Bool := n.tag == t.full

/-- A node with another tag. -/
def withTag (t : String) : Node → Node
  | scalar m _ s => scalar m t s
  | sequence m _ ns => sequence m t ns
  | mapping m _ es => mapping m t es
  | n => n

/-- The members that a mapping has of its own. A key with the tag of a value is a text. -/
def own (es : List (Node × Node)) : List (Node × Node) :=
  (es.filter fun e => !e.1.hasTag .merge).map fun (k, v) =>
    (if k.hasTag .value then k.withTag Tag.text.full else k, v)

mutual

/-- The text of a scalar, or of the scalar that a mapping names as its value. -/
def scalarText : Node → Except Flaw String
  | scalar _ _ s => .ok s
  | mapping m _ es => valueText m es
  | sequence m _ _ => .error (.problem m (.notScalar .sequence))
  | around .. => .error .unreadable

def valueText (m : Mark) : List (Node × Node) → Except Flaw String
  | [] => .error (.problem m (.notScalar .mapping))
  | (k, v) :: rest => if k.hasTag .value then scalarText v else valueText m rest

end

mutual

/-- The number of nodes around the innermost node of a node. -/
def height : Node → Nat
  | scalar .. | around .. => 1
  | sequence _ _ ns => heightAll ns + 1
  | mapping _ _ es => heightEntries es + 1

def heightAll : List Node → Nat
  | [] => 0
  | n :: rest => max (height n) (heightAll rest)

def heightEntries : List (Node × Node) → Nat
  | [] => 0
  | (k, v) :: rest => max (max (height k) (height v)) (heightEntries rest)

end

end Node

namespace Tree

/-- The number of nodes on the longest way into a document. Each node with an anchor is entered
at most once on a way. -/
def height (t : Tree) : Nat := (t.anchors.map (·.2.height)).foldl (· + ·) t.root.height

/-- The members of a mapping: those of the mappings merged into it, and its own. Of several
mappings merged by one key the first counts most. A mapping that is being merged already, as its
place among the busy ones tells, gives those of its own. Fuel bounds the mappings on a way. -/
def members (t : Tree) : Nat → List Nat → List (Node × Node) → Except Flaw (List (Node × Node))
  | 0, _, es => .ok (Node.own es)
  | fuel + 1, busy, es => do
    let mergedFrom (p : Shape → Problem) (n : Node) : Except Flaw (List (Node × Node)) :=
      match n with
      | .mapping m _ es =>
        if busy.contains m.index then .ok (Node.own es) else t.members fuel (m.index :: busy) es
      | n => .error (.problem n.mark (p n.shape))
    let merged ← es.mapM fun (k, v) =>
      if k.hasTag .merge then
        match t.resolve v with
        | .sequence _ _ ns => do
          return (← ns.mapM fun n => mergedFrom .notMergeableItem (t.resolve n)).reverse.flatten
        | n => mergedFrom .notMergeable n
      else .ok []
    return merged.flatten ++ Node.own es

end Tree

/-- What a collection is made into. -/
inductive Collection where
  | list
  | record
  | set
  | pairs
deriving Repr, DecidableEq

/-- Collections by the names of their tags. -/
def Collection.ofTag? (tag : String) : Option Collection :=
  [("seq", list), ("map", record), ("set", set), ("omap", pairs), ("pairs", pairs)].lookup
    (String.ofList (tag.toList.drop Tag.root.length))
    |>.filter fun _ => Tag.root.isPrefixOf tag

/-- A computation that notes what is wrong, with its distance from the root. -/
abbrev Build := StateM (Option (Nat × Flaw))

namespace Build

/-- Notes something wrong. What is closer to the root counts, and else what is noted first. -/
def note (level : Nat) (f : Flaw) : Build Unit :=
  modify fun
    | none => some (level, f)
    | some (l, g) => if level < l then some (level, f) else some (l, g)

/-- Notes what went wrong, with a value in place of the one that is not there. -/
def orNote {α : Type} (level : Nat) (default : α) : Except Flaw α → Build α
  | .ok a => return a
  | .error f => do
    note level f
    return default

def isKey : Value → Bool
  | .list _ | .dict _ | .set _ => false
  | _ => true

/-- A pair of a sequence of pairs: a mapping with one member. -/
def pair? : Node → Except Flaw (Node × Node)
  | .mapping _ _ [e] => .ok e
  | .mapping m _ es => .error (.problem m (.notSinglePair es.length))
  | n => .error (.problem n.mark (.notPair n.shape))

/-- A value with the origins of its dates. -/
abbrev Sourced := Value × Origins

/-- A value that holds no date. -/
def dateless (v : Value) : Sourced := (v, .unknown)

/-- A mapping of members, a later one replacing the value of an earlier one. -/
def mappingOf (es : List (Sourced × Sourced)) : Sourced :=
  let members := es.foldl (fun d e => Value.bindKey d e.1.1 (e.1.2, e.2)) []
  (.dict (members.map fun (k, _, v) => (k, v.1)),
    .parts (members.flatMap fun (_, o, v) => [o, v.2]))

/-- A set of members. -/
def setOf (xs : List Sourced) : Sourced :=
  let v := Value.setOf (xs.map (·.1))
  let origins (m : Value) : Origins :=
    ((xs.find? fun x => Value.same x.1 m).map (·.2)).getD .unknown
  (v, .parts ((v.items?.getD []).map origins))

/-- A list of values. -/
def listOf (xs : List Sourced) : Sourced := (.list (xs.map (·.1)), .parts (xs.map (·.2)))

/-- What is in place of a collection inside itself. -/
def insideItself (n : Node) : Value :=
  match Collection.ofTag? n.tag with
  | some .record => .dict []
  | some .set => .set []
  | _ => .list []

/-- The value of a node at a distance from the root, given the places of the collections around
it. Fuel bounds the nodes on a way. -/
def value (t : Tree) (level : Nat) (around : List Nat) : Nat → Node → Build Sourced
  | 0, _ => return dateless .null
  | fuel + 1, node => do
    let n := t.resolve node
    if n.shape != .scalar && around.contains n.mark.index then return dateless (insideItself n)
    let inner := value t (level + 1) (n.mark.index :: around) fuel
    let below (v : Value) (p : Shape → Problem) : Build Sourced := do
      note (level + 1) (.problem n.mark (p n.shape))
      return dateless v
    let entries (es : List (Node × Node)) : Build (List (Sourced × Sourced)) := do
      let es ← orNote (level + 1) [] (t.members t.height [n.mark.index] es)
      es.mapM fun (k, v) => do
        let key ← inner k
        unless isKey key.1 do note (level + 1) (.problem (t.resolve k).mark .unhashableKey)
        return (key, ← inner v)
    match Collection.ofTag? n.tag, n with
    | some .list, .sequence _ _ ns => return listOf (← ns.mapM inner)
    | some .list, _ => below (.list []) .notSequence
    | some .record, .mapping _ _ es => return mappingOf (← entries es)
    | some .record, _ => below (.dict []) .notMapping
    | some .set, .mapping _ _ es => return setOf ((← entries es).map (·.1))
    | some .set, _ => below (.set []) .notMapping
    | some .pairs, .sequence _ _ ns =>
      let pairs ← ns.mapM fun item => do
        match pair? (t.resolve item) with
        | .ok (k, v) =>
          let k ← inner k
          let v ← inner v
          return ((Value.tuple [k.1, v.1], .parts [k.2, v.2]) : Sourced)
        | .error f =>
          note (level + 1) f
          return dateless .null
      return listOf pairs
    | some .pairs, _ => below (.list []) .notPairs
    | none, n =>
      match Spelled.tag? n.tag with
      | none =>
        note level (.problem n.mark (.unknownTag n.tag))
        return dateless .null
      | some tag =>
        let v ← orNote level .null do
          let s ← n.scalarText
          if tag == .timestamp && n.shape != .scalar then throw .unreadable
          else Spelled.value n.mark tag s
        return (v, if tag == .timestamp then .date n.mark.index else .unknown)

end Build

/-- The value of the one document of a text, with the origins of its dates; a text without a
document stands for null. -/
def read (intake : Intake) (text : List Char) : Except Flaw (Value × Origins) := do
  match ← Tree.ofText? intake text with
  | none => return (.null, .unknown)
  | some t =>
    let (v, wrong) := (Build.value t 0 [] t.height t.root).run none
    match wrong with
    | none => return v
    | some (_, f) => throw f

end BlockSuite.Yaml
