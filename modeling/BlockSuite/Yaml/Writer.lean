import BlockSuite.Yaml.Tag
import BlockSuite.Yaml.Base64
import BlockSuite.Value.Origins
import BlockSuite.Value.Quoted

/-!
Values as YAML text in block style. A text is written plain where it then still reads as the same
text; else in single quotes, or in double quotes where only escapes can show it. Lines are folded
at spaces behind column 80.
-/

namespace BlockSuite.Yaml

/-- What is written: scalars with their text and perhaps an anchor, references to anchors,
sequences and mappings. A sequence may have a tag of its own. -/
inductive Written where
  | scalar (tag : Tag) (text : List Char) (anchor : Option String)
  | reference (anchor : String)
  | sequence (tag : Option String) (items : List Written)
  | mapping (members : List (Written × Written))
deriving Repr, Inhabited, BEq

/-- A floating point number with a point before its exponent. -/
def doubleText (d : Double) : List Char :=
  match d with
  | .nan => ".nan".toList
  | .infinite false => ".inf".toList
  | .infinite true => "-.inf".toList
  | d =>
    let cs := d.render.toList
    if cs.contains '.' then cs
    else
      match cs.dropWhile (· != 'e') with
      | [] => cs
      | exponent => cs.takeWhile (· != 'e') ++ '.' :: '0' :: exponent

/-- What is known while a value is written: the places that the dates yet to be written come
from, the anchors of places that count for several dates, and those that were written. -/
structure Anchors where
  places : List Nat
  names : List (Nat × String)
  written : List Nat := []
deriving Repr, Inhabited

namespace Anchors

/-- Anchors are numbered in the order in which places repeat. -/
def ofPlaces (places : List Nat) : Anchors where
  places := places
  names := (Origins.repeated [] [] places).zipIdx.map fun (p, i) =>
    (p, "id" ++ Text.padLeft '0' 3 (Nat.repr (i + 1)))

end Anchors

namespace Written

/-- A computation of what is written. -/
abbrev Writing := StateT Anchors (Except Fault)

/-- A scalar without an anchor. -/
def plain (tag : Tag) (text : List Char) : Writing Written := return scalar tag text none

def int (i : Int) : Writing Written := do
  let s ← (intText i : Except Fault String)
  plain .int s.toList

/-- A date or moment: at its first place with its anchor, if it has one. -/
def stamp (text : String) : Writing Written := do
  let s ← get
  let here := s.places.head?
  set { s with places := s.places.tail }
  match here.bind (List.lookup · s.names) with
  | none => plain .timestamp text.toList
  | some name =>
    if s.written.contains (here.getD 0) then return reference name
    else
      modify fun s => { s with written := here.toList ++ s.written }
      return scalar .timestamp text.toList (some name)

/-- The tag under which a length of time is written. -/
def durationTag : String := "!!python/object/apply:datetime.timedelta"

/-- The tag under which a tuple is written. -/
def tupleTag : String := "!!python/tuple"

mutual

/-- What is written for a value. -/
def ofValue : Value → Writing Written
  | .null => plain .null "null".toList
  | .bool b => plain .bool (if b then "true" else "false").toList
  | .int i => int i
  | .float d => plain .float (doubleText d)
  | .text s => plain .text s.toList
  | .bytes bs => plain .binary (Base64.lines (bs.length + 1) bs)
  | .date d => stamp d.text
  | .moment m => stamp m.text
  | .duration d => do
    return sequence durationTag [← int d.days, ← int d.seconds, ← int d.microseconds]
  | .list xs => do return sequence none (← ofValues xs)
  | .tuple xs => do return sequence tupleTag (← ofValues xs)
  | .set xs => do return sequence none (← ofValues xs)
  | .dict es => do return mapping (← ofEntries es)
  | .handle _ | .inner .. => plain .text "<opaque>".toList

def ofValues : List Value → Writing (List Written)
  | [] => return []
  | v :: rest => do
    let n ← ofValue v
    return n :: (← ofValues rest)

def ofEntries : List (Value × Value) → Writing (List (Written × Written))
  | [] => return []
  | (k, v) :: rest => do
    let key ← ofValue k
    let value ← ofValue v
    return (key, value) :: (← ofEntries rest)

end

end Written

/-- Characters that end a line of a scalar. -/
def breaksLine (c : Char) : Bool :=
  c == '\n' || c.toNat == 0x85 || c.toNat == 0x2028 || c.toNat == 0x2029

/-- Characters between words. -/
def isGapOrBreak (c : Char) : Bool :=
  c.toNat == 0 || c == ' ' || c == '\t' || c == '\r' || breaksLine c

/-- Characters beyond ASCII that are written as they are. -/
def isWide (c : Char) : Bool :=
  let n := c.toNat
  (n == 0x85 || (0xA0 ≤ n && n ≤ 0xD7FF) || (0xE000 ≤ n && n ≤ 0xFFFD) ||
    (0x10000 ≤ n && n < 0x10FFFF)) && n != 0xFEFF

/-- Characters that only an escape can show. -/
def isSpecial (c : Char) : Bool :=
  !(c == '\n' || (' ' ≤ c && c ≤ '~')) && !isWide c

/-- What the style of a text depends on. -/
structure Analysis where
  empty : Bool
  multiline : Bool
  plainInBlock : Bool
  single : Bool
  block : Bool
deriving Repr, DecidableEq, Inhabited

namespace Analysis

/-- Whether a character makes a text read as markup; the flags tell whether it is the first one,
and whether gaps stand before and behind it. -/
def isMarkup (first before behind : Bool) (c : Char) : Bool :=
  if first then
    "#,[]\x7b\x7d&*!|>'\"%@`".toList.contains c || ((c == '?' || c == ':' || c == '-') && behind)
  else (c == ':' && behind) || (c == '#' && before)

/-- Whether any character makes a text read as markup. -/
def hasMarkup (first before : Bool) : List Char → Bool
  | [] => false
  | c :: cs =>
    let behind := match cs with
      | [] => true
      | d :: _ => isGapOrBreak d
    isMarkup first before behind c || hasMarkup false (isGapOrBreak c) cs

/-- Whether a character of one kind is followed by one of another. -/
def hasPair (p q : Char → Bool) : List Char → Bool
  | a :: b :: rest => (p a && q b) || hasPair p q (b :: rest)
  | _ => false

/-- The analysis of a text. -/
def ofChars (cs : List Char) : Analysis :=
  match cs with
  | [] => ⟨true, false, true, true, false⟩
  | _ =>
    let isSpace (c : Char) : Bool := c == ' '
    let edge (o : Option Char) : Bool := (o.map fun c => isSpace c || breaksLine c).getD false
    let spaceThenBreak := hasPair isSpace breaksLine cs
    let breakThenSpace := hasPair breaksLine isSpace cs
    let special := cs.any isSpecial
    let multiline := cs.any breaksLine
    let markup := Text.startsWith cs "---".toList || Text.startsWith cs "...".toList ||
      hasMarkup true true cs
    { empty := false
      multiline := multiline
      plainInBlock := !(edge cs.head? || edge cs.getLast? || breakThenSpace || spaceThenBreak ||
        special || multiline || markup)
      single := !(breakThenSpace || spaceThenBreak || special)
      block := !(cs.getLast? == some ' ' || spaceThenBreak || special) }

end Analysis

/-- Styles of scalars. -/
inductive Style where
  | plain
  | single
  | double
  | literal
deriving DecidableEq, Repr, Inhabited

/-- Whether a plain text is read back under a tag. -/
def isPlainFor (tag : Tag) (cs : List Char) : Bool :=
  Tag.ofPlain (String.ofList cs) == tag

/-- The style of a scalar, as a key on the line of its value or elsewhere. -/
def styleOf (asKey : Bool) (tag : Tag) (cs : List Char) : Style :=
  let a := Analysis.ofChars cs
  if tag == .binary then (if !asKey && a.block then .literal else .double)
  else if isPlainFor tag cs && !(asKey && (a.empty || a.multiline)) && a.plainInBlock then .plain
  else if a.single && !(asKey && a.multiline) then .single
  else .double

/-- A written text so far, last character first, with the column reached, whether a gap was just
written, and whether nothing but indentation stands on the line. -/
structure Pen where
  out : List Char
  column : Nat
  gap : Bool
  fresh : Bool
deriving Repr, Inhabited

namespace Pen

/-- Nothing written. -/
def start : Pen := ⟨[], 0, true, true⟩

/-- The column behind which lines are folded. -/
def width : Nat := 80

/-- Writes characters within a line. -/
def put (cs : List Char) (p : Pen) : Pen :=
  { p with out := cs.reverse ++ p.out, column := p.column + cs.length }

/-- Ends a line. -/
def newline (c : Char) (p : Pen) : Pen := ⟨c :: p.out, 0, true, true⟩

/-- Starts a line at an indentation, unless the pen stands there already. -/
def indentTo (indent : Nat) (p : Pen) : Pen :=
  let p := if !p.fresh || indent < p.column || (p.column == indent && !p.gap) then p.newline '\n'
    else p
  if p.column < indent then
    { p with out := List.replicate (indent - p.column) ' ' ++ p.out, column := indent, gap := true }
  else p

/-- Writes a mark of the notation, behind a gap if it needs one. -/
def mark (s : List Char) (needsGap gap fresh : Bool) (p : Pen) : Pen :=
  let cs := if p.gap || !needsGap then s else ' ' :: s
  { p.put cs with gap := gap, fresh := p.fresh && fresh }

/-- Writes line ends of a scalar: the first of several line feeds is doubled. -/
def breaks (cs : List Char) (p : Pen) : Pen :=
  let p := if cs.head? == some '\n' then p.newline '\n' else p
  cs.foldl (fun p c => p.newline c) p

end Pen

/-- The longest beginning of one kind of character, and the rest. -/
def spanWhile (p : Char → Bool) (cs : List Char) : List Char × List Char :=
  (cs.takeWhile p, cs.dropWhile p)

theorem length_dropWhile_le (p : Char → Bool) (cs : List Char) :
    (cs.dropWhile p).length ≤ cs.length := by
  induction cs with
  | nil => simp
  | cons c cs ih =>
    rw [List.dropWhile_cons]
    split
    · exact Nat.le_succ_of_le ih
    · exact Nat.le_refl _

/-- Runs of spaces, runs of line ends and words of a scalar. -/
inductive Run where
  | spaces (n : Nat)
  | breaks (cs : List Char)
  | word (cs : List Char)
deriving Repr, DecidableEq, Inhabited

/-- The runs of a scalar. -/
def runs (cs : List Char) : List Run :=
  match cs with
  | [] => []
  | c :: rest =>
    if c == ' ' then
      .spaces ((rest.takeWhile (· == ' ')).length + 1) :: runs (rest.dropWhile (· == ' '))
    else if breaksLine c then
      .breaks (c :: rest.takeWhile breaksLine) :: runs (rest.dropWhile breaksLine)
    else
      let inWord (d : Char) : Bool := !(d == ' ' || breaksLine d)
      .word (c :: rest.takeWhile inWord) :: runs (rest.dropWhile inWord)
termination_by cs.length
decreasing_by
  all_goals exact Nat.lt_succ_of_le (length_dropWhile_le ..)

/-- Writes runs in single quotes or plain. A single space may become a line end, if allowed,
unless it stands at an end of a quoted text. -/
def putRuns (indent : Nat) (quoted split first : Bool) : List Run → Pen → Pen
  | [], p => p
  | .spaces n :: rest, p =>
    let fold := n == 1 && Pen.width < p.column && split &&
      !(quoted && (first || rest.isEmpty))
    let p := if fold then
        let p := p.indentTo indent
        if quoted then p else { p with gap := false, fresh := false }
      else p.put (List.replicate n ' ')
    putRuns indent quoted split false rest p
  | .breaks cs :: rest, p => putRuns indent quoted split false rest ((p.breaks cs).indentTo indent)
  | .word cs :: rest, p =>
    let cs := if quoted then cs.flatMap fun c => if c == '\'' then ['\'', '\''] else [c] else cs
    putRuns indent quoted split false rest (p.put cs)

/-- Characters with an escape of their own. -/
def escapes : List (Nat × Char) :=
  [(0, '0'), (7, 'a'), (8, 'b'), (9, 't'), (10, 'n'), (11, 'v'), (12, 'f'), (13, 'r'), (0x1B, 'e'),
    (0x22, '"'), (0x5C, '\\'), (0x85, 'N'), (0xA0, '_'), (0x2028, 'L'), (0x2029, 'P')]

/-- A number in hexadecimal capitals. -/
def hexCapitals (width n : Nat) : List Char := (hexText width n).toList.map Char.toUpper

/-- The escape of a character. -/
def escape (c : Char) : List Char :=
  let n := c.toNat
  match escapes.find? (·.1 == n) with
  | some (_, e) => ['\\', e]
  | none =>
    if n ≤ 0xFF then '\\' :: 'x' :: hexCapitals 2 n
    else if n ≤ 0xFFFF then '\\' :: 'u' :: hexCapitals 4 n
    else '\\' :: 'U' :: hexCapitals 8 n

/-- Characters that stand for themselves in double quotes. -/
def isDirect (c : Char) : Bool :=
  let n := c.toNat
  n != 0x22 && n != 0x5C && n != 0x85 && n != 0x2028 && n != 0x2029 && n != 0xFEFF &&
    ((0x20 ≤ n && n ≤ 0x7E) || (0xA0 ≤ n && n ≤ 0xD7FF) || (0xE000 ≤ n && n ≤ 0xFFFD))

/-- Writes a text in double quotes behind the opening one. The word holds the direct characters
that were read but not written, last first; the flag marks the first character of the text. A
line is folded before a space or behind an escape. -/
def putDouble (indent : Nat) (split first : Bool) (word : List Char) : List Char → Pen → Pen
  | [], p => p.put word.reverse
  | c :: rest, p =>
    let direct := isDirect c
    let p := if direct then p else (p.put word.reverse).put (escape c)
    let pending := if direct then word.reverse else []
    let reached := if direct then p.column + pending.length else p.column - 1
    if split && !first && !rest.isEmpty && (c == ' ' || pending.isEmpty) &&
        Pen.width < reached then
      let p := (p.put (pending ++ ['\\'])).indentTo indent
      let p := { p with gap := false, fresh := false }
      let next := if direct then some c else rest.head?
      let p := if next == some ' ' then p.put ['\\'] else p
      putDouble indent split false (if direct then [c] else []) rest p
    else putDouble indent split false (if direct then c :: word else []) rest p

/-- Writes the lines of a literal scalar. -/
def putLiteral (indent : Nat) (cs : List Char) (p : Pen) : Pen :=
  (Text.splitChars '\n' cs).foldl
    (fun p line => if line.isEmpty then p else ((p.indentTo indent).put line).newline '\n') p

/-- Writes a scalar at an indentation, which counts for its further lines. Its tag is written
where the scalar is not plain and the tag is not that of texts. -/
def putScalar (indent : Nat) (asKey : Bool) (tag : Tag) (cs : List Char) (anchor : Option String)
    (p : Pen) : Pen :=
  let style := styleOf asKey tag cs
  let p := anchor.elim p fun name => p.mark ('&' :: name.toList) true false false
  let p :=
    if style != .plain && tag != .text then p.mark ("!!" ++ tag.name).toList true false false
    else p
  match style with
  | .plain =>
    if cs.isEmpty then p
    else
      let p := if p.gap then p else p.put [' ']
      putRuns indent false (!asKey) true (runs cs) { p with gap := false, fresh := false }
  | .single =>
    let p := p.mark ['\''] true false false
    (putRuns indent true (!asKey) true (runs cs) p).mark ['\''] false false false
  | .double =>
    let p := p.mark ['"'] true false false
    (putDouble indent (!asKey) true [] cs p).mark ['"'] false false false
  | .literal =>
    let p := (p.mark ['|'] true false false).newline '\n'
    putLiteral indent cs p

/-- Whether a node may stand as a key on the line of its value. -/
def isSimpleKey : Written → Bool
  | .scalar tag cs anchor =>
    let a := Analysis.ofChars cs
    cs.length + tag.name.length + 2 + (anchor.getD "").length < 128 && !a.empty && !a.multiline
  | .reference anchor => anchor.length < 128
  | .sequence tag xs => (tag.getD "").length < 128 && xs.isEmpty
  | .mapping es => es.isEmpty

/-- Where a node stands. -/
inductive Position where
  | root
  | item
  | value
  | key
deriving DecidableEq, Repr, Inhabited

/-- The indentation inside a node: none at the root. -/
def deepen (indent : Option Nat) (inline : Bool) : Nat :=
  match indent with
  | none => if inline then 2 else 0
  | some n => n + 2

mutual

/-- Writes a node. -/
def putNode (indent : Option Nat) (position : Position) : Written → Pen → Pen
  | .scalar tag cs anchor, p => putScalar (deepen indent true) (position == .key) tag cs anchor p
  | .reference anchor, p => p.mark ('*' :: anchor.toList) true false false
  | .sequence tag xs, p =>
    let p := match tag with
      | some t => p.mark t.toList true false false
      | none => p
    if xs.isEmpty then (p.mark ['['] true true false).mark [']'] false false false
    else
      let indentless := (position == .value || position == .key) && !p.fresh
      let inner := if indentless then indent.getD 0 else deepen indent false
      putItems inner xs p
  | .mapping es, p =>
    if es.isEmpty then (p.mark ['\x7b'] true true false).mark ['\x7d'] false false false
    else putMembers (deepen indent false) es p

def putItems (indent : Nat) : List Written → Pen → Pen
  | [], p => p
  | n :: rest, p =>
    let p := (p.indentTo indent).mark ['-'] true false true
    putItems indent rest (putNode (some indent) .item n p)

def putMembers (indent : Nat) : List (Written × Written) → Pen → Pen
  | [], p => p
  | (k, v) :: rest, p =>
    let p := p.indentTo indent
    let p :=
      if isSimpleKey k then
        let p := putNode (some indent) .key k p
        putNode (some indent) .value v (p.mark [':'] false false false)
      else
        let p := putNode (some indent) .value k (p.mark ['?'] true false true)
        let p := (p.indentTo indent).mark [':'] true false true
        putNode (some indent) .value v p
    putMembers indent rest p

end

/-- Whether a document needs an end mark, since its plain text might go on. -/
def isOpen : Written → Bool
  | .scalar tag cs _ => styleOf false tag cs == .plain
  | _ => false

/-- A node as a document. -/
def document (n : Written) : String :=
  let p := (putNode none .root n .start).indentTo 0
  let p := if isOpen n then ((p.mark "...".toList true false false).indentTo 0) else p
  String.ofList p.out.reverse

/-- A value as a document, given the places that its dates come from. -/
def write (places : List Nat) (v : Value) : Except Fault String := do
  let (n, _) ← (Written.ofValue v).run (.ofPlaces places)
  return document n

end BlockSuite.Yaml
