import BlockSuite.Yaml.Stream
import BlockSuite.Yaml.Tag

/-!
The nodes of a document: scalars, sequences and mappings, each with its tag and its place. An
alias stands for the node its anchor was set on; where that node is around the alias, the name of
the anchor is kept instead. A text holds one document, or none.
-/

namespace BlockSuite.Yaml

/-- What all names of tags of the standard start with. -/
def Tag.root : String := "tag:yaml.org,2002:"

/-- The full name of a tag. -/
def Tag.full (t : Tag) : String := Tag.root ++ t.name

/-- A part of a document. -/
inductive Node where
  | scalar (mark : Mark) (tag : String) (text : String)
  | sequence (mark : Mark) (tag : String) (items : List Node)
  | mapping (mark : Mark) (tag : String) (entries : List (Node × Node))
  | around (mark : Mark) (anchor : String)
deriving Repr, Inhabited

namespace Node

def mark : Node → Mark
  | scalar m _ _ | sequence m _ _ | mapping m _ _ | around m _ => m

def tag : Node → String
  | scalar _ t _ | sequence _ t _ | mapping _ t _ => t
  | around .. => ""

def shape : Node → Shape
  | scalar .. | around .. => .scalar
  | sequence .. => .sequence
  | mapping .. => .mapping

/-- A node that is left out. -/
def absent (m : Mark) : Node := scalar m Tag.null.full ""

/-- The tag of a sequence or mapping without one. -/
def sequenceTag : String := Tag.root ++ "seq"

def mappingTag : String := Tag.root ++ "map"

end Node

/-- Tokens on their way to nodes, with the handles of tags and the nodes of anchors. A node that
is not complete yet has an anchor already. -/
structure Reading where
  rest : List Token
  flaw : Flaw := .unreadable
  handles : List (String × String) := []
  anchors : List (String × Option Node) := []
deriving Inhabited

namespace Reading

/-- A computation that takes tokens. -/
abbrev Read := StateT Reading (Except Flaw)

/-- The next token. Behind the last one is what is wrong with the text. -/
def peek : Read Token := do
  let s ← get
  match s.rest with
  | t :: _ => return t
  | [] => throw s.flaw

/-- Takes the next token. -/
def take : Read Token := do
  let t ← peek
  modify fun s => { s with rest := s.rest.tail }
  return t

/-- Whether the next token is one of some signs. -/
def sees (signs : List Sign) : Read Bool := return signs.contains (← peek).sign

def fail {α : Type} (m : Mark) (p : Problem) : Read α := throw (.problem m p)

/-- A problem at the next token. -/
def failHere {α : Type} (p : Sign → Problem) : Read α := do
  let t ← peek
  fail t.start (p t.sign)

/-- What stands before a node: an anchor and a tag, in either order, with the places of the first
of them and of the tag. -/
structure Properties where
  anchor : Option String := none
  tag : Option String := none
  start : Option Mark := none

/-- Takes an anchor. -/
def anchor? : Read (Option (String × Mark)) := do
  if ← sees [.anchor] then
    let t ← take
    match t.content with
    | .name s => return some (s, t.start)
    | _ => return none
  else return none

/-- Takes a tag. -/
def tag? : Read (Option (Option String × String × Mark)) := do
  if ← sees [.tag] then
    let t ← take
    match t.content with
    | .tag handle suffix => return some (handle, suffix, t.start)
    | _ => return none
  else return none

/-- The full name of a tag. -/
def resolve (handle : Option String) (suffix : String) (m : Mark) : Read String := do
  match handle with
  | none => return suffix
  | some h =>
    match (← get).handles.lookup h with
    | some uri => return uri ++ suffix
    | none => fail m (.unknownHandle h)

/-- Takes what stands before a node. -/
def properties : Read Properties := do
  let before ← anchor?
  let tag ← tag?
  let behind ← if before.isNone && tag.isSome then anchor? else pure none
  let name ← tag.mapM fun (handle, suffix, m) => resolve handle suffix m
  return {
    anchor := (before <|> behind).map (·.1)
    tag := name
    start := before.map (·.2) <|> tag.map (·.2.2) }

/-- An anchor is set once. -/
def reserve (anchor : Option String) (m : Mark) : Read Unit := do
  if let some name := anchor then
    if ((← get).anchors.lookup name).isSome then fail m .repeatedAnchor
    else modify fun s => { s with anchors := (name, none) :: s.anchors }

/-- Sets an anchor on a node that is complete. -/
def attach (anchor : Option String) (n : Node) : Read Node := do
  if let some name := anchor then
    modify fun s => { s with anchors := (name, some n) :: s.anchors }
  return n

/-- A tag that says nothing leaves the choice to the node. -/
def chosen (tag : Option String) (default : String) : String :=
  match tag with
  | none | some "!" => default
  | some t => t

/-- A scalar: without a tag a plain one stands for what it spells, any other for a text. -/
def scalarNode (m : Mark) (tag : Option String) (text : String) (plain : Bool) : Node :=
  let spelled := (Tag.ofPlain text).full
  .scalar m (chosen tag (if plain || tag == some "!" then spelled else Tag.text.full)) text

/-- Signs behind which a node is left out, in each kind of collection. -/
def entryEnds : List Sign := [.blockEntry, .blockEnd]

def listEnds : List Sign := [.blockEntry, .key, .value, .blockEnd]

def memberEnds : List Sign := [.key, .value, .blockEnd]

def pairKeyEnds : List Sign := [.value, .flowEntry, .flowSequenceEnd]

def pairValueEnds : List Sign := [.flowEntry, .flowSequenceEnd]

def flowKeyEnds : List Sign := [.value, .flowEntry, .flowMappingEnd]

def flowValueEnds : List Sign := [.flowEntry, .flowMappingEnd]

/-- Takes the comma between the items of a flow collection. -/
def separator (first : Bool) (p : Sign → Problem) : Read Unit := do
  unless first do
    if ← sees [.flowEntry] then discard take else failHere p

mutual

/-- Takes a node. A block collection is taken only where one may stand, and one without
indentation of its own only as a member of a block mapping. Fuel bounds the tokens taken. -/
def node (block list : Bool) : Nat → Read Node
  | 0 => throw .unreadable
  | fuel + 1 => do
    let first ← peek
    if first.sign == .reference then
      discard take
      let name := match first.content with
        | .name s => s
        | _ => ""
      match (← get).anchors.lookup name with
      | none => fail first.start (.unknownAlias name)
      | some none => return .around first.start name
      | some (some n) => return n
    else
      let p ← properties
      let t ← peek
      let m := p.start.getD t.start
      let sequence (items : Read (List Node)) : Read Node := do
        reserve p.anchor m
        unless t.sign == .blockEntry do discard take
        attach p.anchor (.sequence m (chosen p.tag Node.sequenceTag) (← items))
      let mapping (entries : Read (List (Node × Node))) : Read Node := do
        reserve p.anchor m
        discard take
        attach p.anchor (.mapping m (chosen p.tag Node.mappingTag) (← entries))
      match t.sign, t.content with
      | .scalar, .scalar text plain =>
        discard take
        reserve p.anchor m
        attach p.anchor (scalarNode m p.tag text (plain && p.tag.isNone))
      | .flowSequenceStart, _ => sequence (flowItems true fuel)
      | .flowMappingStart, _ => mapping (flowEntries true fuel)
      | sign, _ =>
        if list && sign == .blockEntry then sequence (listItems fuel)
        else if block && sign == .blockSequenceStart then sequence (blockItems fuel)
        else if block && sign == .blockMappingStart then mapping (blockEntries fuel)
        else if p.start.isSome then
          reserve p.anchor m
          attach p.anchor (scalarNode m p.tag "" p.tag.isNone)
        else fail t.start (.noContent t.sign)

/-- Takes a node unless one of some signs tells that it is left out. -/
def nodeUnless (ends : List Sign) (m : Mark) (block list : Bool) : Nat → Read Node
  | 0 => throw .unreadable
  | fuel + 1 => do
    if ← sees ends then return .absent m else node block list fuel

/-- Takes the value of a member, if its sign comes next. -/
def memberValue (ends : List Sign) (block : Bool) : Nat → Read Node
  | 0 => throw .unreadable
  | fuel + 1 => do
    if ← sees [.value] then
      let t ← take
      nodeUnless ends t.stop block block fuel
    else return .absent (← peek).start

/-- Takes the items of a block sequence behind its start or an item. -/
def blockItems : Nat → Read (List Node)
  | 0 => throw .unreadable
  | fuel + 1 => do
    if ← sees [.blockEntry] then
      let t ← take
      let n ← nodeUnless entryEnds t.stop true false fuel
      return n :: (← blockItems fuel)
    else if ← sees [.blockEnd] then
      discard take
      return []
    else failHere .unclosedBlock

/-- Takes the items of a block sequence without indentation of its own. -/
def listItems : Nat → Read (List Node)
  | 0 => throw .unreadable
  | fuel + 1 => do
    if ← sees [.blockEntry] then
      let t ← take
      let n ← nodeUnless listEnds t.stop true false fuel
      return n :: (← listItems fuel)
    else return []

/-- Takes the members of a block mapping behind its start or a member. -/
def blockEntries : Nat → Read (List (Node × Node))
  | 0 => throw .unreadable
  | fuel + 1 => do
    if ← sees [.key] then
      let t ← take
      let k ← nodeUnless memberEnds t.stop true true fuel
      let v ← memberValue memberEnds true fuel
      return (k, v) :: (← blockEntries fuel)
    else if ← sees [.blockEnd] then
      discard take
      return []
    else failHere .unclosedBlock

/-- Takes the items of a flow sequence. A member without a mapping around it is a mapping. -/
def flowItems (first : Bool) : Nat → Read (List Node)
  | 0 => throw .unreadable
  | fuel + 1 => do
    if ← sees [.flowSequenceEnd] then
      discard take
      return []
    else
      separator first .unclosedSequence
      if ← sees [.key] then
        let t ← take
        let k ← nodeUnless pairKeyEnds t.stop false false fuel
        let v ← memberValue pairValueEnds false fuel
        return .mapping t.start Node.mappingTag [(k, v)] :: (← flowItems false fuel)
      else if ← sees [.flowSequenceEnd] then
        discard take
        return []
      else
        let n ← node false false fuel
        return n :: (← flowItems false fuel)

/-- Takes the members of a flow mapping. A key without a sign of its own has no value. -/
def flowEntries (first : Bool) : Nat → Read (List (Node × Node))
  | 0 => throw .unreadable
  | fuel + 1 => do
    if ← sees [.flowMappingEnd] then
      discard take
      return []
    else
      separator first .unclosedMapping
      if ← sees [.key] then
        let t ← take
        let k ← nodeUnless flowKeyEnds t.stop false false fuel
        let v ← memberValue flowValueEnds false fuel
        return (k, v) :: (← flowEntries false fuel)
      else if ← sees [.flowMappingEnd] then
        discard take
        return []
      else
        let k ← node false false fuel
        let v := Node.absent (← peek).start
        return (k, v) :: (← flowEntries false fuel)

end

/-- Handles that every document has. -/
def standardHandles : List (String × String) := [("!", "!"), ("!!", Tag.root)]

/-- Takes the directives of a document; the flag tells whether a version was among them. -/
def directives (versioned : Bool) : Nat → Read Unit
  | 0 => throw .unreadable
  | fuel + 1 => do
    if ← sees [.directive] then
      let t ← take
      match t.content with
      | .directive (.version major) =>
        if versioned then fail t.start .repeatedVersion
        else if major != 1 then fail t.start .unknownVersion
        else directives true fuel
      | .directive (.handle name uri) =>
        if ((← get).handles.lookup name).isSome then fail t.start (.repeatedHandle name)
        else
          modify fun s => { s with handles := (name, uri) :: s.handles }
          directives versioned fuel
      | _ => directives versioned fuel
    else return ()

/-- Takes the signs for ends of documents. -/
def skipEnds : Nat → Read Unit
  | 0 => throw .unreadable
  | fuel + 1 => do
    if ← sees [.documentEnd] then
      discard take
      skipEnds fuel

/-- Takes the start of a document that has a sign for it, if one follows. -/
def start? (fuel : Nat) : Read (Option Mark) := do
  skipEnds fuel
  if ← sees [.streamEnd] then return none
  else
    let m := (← peek).start
    modify ({ · with handles := [] })
    directives false fuel
    modify fun s => { s with handles := s.handles ++ standardHandles }
    if ← sees [.documentStart] then
      discard take
      return some m
    else failHere .noDocument

/-- What stands behind the sign for the start of a document if the document is empty. -/
def documentEnds : List Sign := [.directive, .documentStart, .documentEnd, .streamEnd]

/-- Takes the one document of a text, if there is one. -/
def document (fuel : Nat) : Read (Option Node) := do
  let n ←
    if ← sees [.directive, .documentStart, .streamEnd] then
      match ← start? fuel with
      | none => pure none
      | some _ =>
        let m := (← peek).start
        pure (some (← nodeUnless documentEnds m true false fuel))
    else
      modify ({ · with handles := standardHandles })
      pure (some (← node true false fuel))
  match n with
  | none => return none
  | some n =>
    if ← sees [.documentEnd] then discard take
    match ← start? fuel with
    | none => return some n
    | some m => fail m .secondDocument

end Reading

/-- A document: its outermost node, and the nodes with anchors. -/
structure Tree where
  root : Node
  anchors : List (String × Node)
deriving Repr, Inhabited

/-- The document of a text, if it has one. -/
def Tree.ofText? (intake : Intake) (text : List Char) : Except Flaw (Option Tree) := do
  let s := Stream.ofText intake text
  let fuel := 4 * s.tokens.length + 8
  let (root, r) ← (Reading.document fuel).run { rest := s.tokens, flaw := s.flaw.getD .unreadable }
  let anchors := r.anchors.filterMap fun (name, n) => n.map (name, ·)
  return root.map (⟨·, anchors⟩)

/-- The node that a node stands for. -/
def Tree.resolve (t : Tree) : Node → Node
  | .around m anchor => (t.anchors.lookup anchor).getD (.absent m)
  | n => n

end BlockSuite.Yaml
