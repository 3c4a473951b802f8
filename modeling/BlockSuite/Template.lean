import BlockSuite.Scope
import BlockSuite.Value.Coerce

/-!
Texts with placeholders. A text is cut once, from left to right, into literal pieces and
placeholders; a placeholder is replaced by the text of the value its path leads to, and stays as
it is when the path leads nowhere.
-/

namespace BlockSuite

/-- A piece of a text. -/
inductive Piece where
  | literal (c : Char)
  | placeholder (path : String)
deriving DecidableEq, Repr, Inhabited

namespace Template

/-- The rest of a placeholder behind its opening: dotted words up to the closing brace. The
accumulator holds the path so far, last character first, and the flag tells whether a dot was
just read. -/
def pathTail? (acc : List Char) (afterDot : Bool) : List Char → Option (String × List Char)
  | [] => none
  | c :: rest =>
    if Text.isAsciiWord c then pathTail? (c :: acc) false rest
    else if afterDot then none
    else if c == '.' then pathTail? (c :: acc) true rest
    else if c == '\x7d' then some (String.ofList acc.reverse, rest)
    else none

/-- The placeholder at the start of a text and the rest behind it. -/
def placeholder? : List Char → Option (String × List Char)
  | '$' :: '\x7b' :: c :: rest => if Name.isHead c then pathTail? [c] false rest else none
  | _ => none

theorem pathTail?_length {acc : List Char} {afterDot : Bool} {cs : List Char} {p : String}
    {rest : List Char} (h : pathTail? acc afterDot cs = some (p, rest)) :
    rest.length < cs.length := by
  induction cs generalizing acc afterDot with
  | nil => simp [pathTail?] at h
  | cons c cs ih =>
    simp only [pathTail?] at h
    split at h
    · exact Nat.lt_succ_of_lt (ih h)
    · split at h
      · simp at h
      · split at h
        · exact Nat.lt_succ_of_lt (ih h)
        · split at h
          · simp only [Option.some.injEq, Prod.mk.injEq] at h
            simp [h.2]
          · simp at h

theorem placeholder?_length {cs : List Char} {p : String} {rest : List Char}
    (h : placeholder? cs = some (p, rest)) : rest.length < cs.length := by
  unfold placeholder? at h
  split at h
  · split at h
    · have := pathTail?_length h
      simp only [List.length_cons]
      omega
    · simp at h
  · simp at h

/-- The pieces of a text. -/
def pieces (cs : List Char) : List Piece :=
  match cs with
  | [] => []
  | c :: rest =>
    match _h : placeholder? (c :: rest) with
    | some (path, tail) => .placeholder path :: pieces tail
    | none => .literal c :: pieces rest
termination_by cs.length
decreasing_by
  · exact placeholder?_length _h
  · simp

/-- The paths of the placeholders of a text, in order. -/
def paths (s : String) : List String :=
  (pieces s.toList).filterMap fun
    | .placeholder path => some path
    | .literal _ => none

/-- Whether a text has a placeholder. -/
def hasPlaceholder (s : String) : Bool := !(paths s).isEmpty

/-- The value of a path in scopes, if it spells a path that leads somewhere. -/
def lookup (scopes : Scopes) (path : String) : Except Fault (Option Value) :=
  match Path.ofText path with
  | .ok p => scopes.lookup p
  | .error _ => .ok none

/-- The value of a path given as a value. -/
def lookupValue (scopes : Scopes) (path : Value) : Except Fault (Option Value) := do
  lookup scopes (← path.textWith "strip")

/-- The text that a piece becomes. -/
def fillPiece (scopes : Scopes) : Piece → Except Fault String
  | .literal c => .ok c.toString
  | .placeholder path => do
    match ← lookup scopes path with
    | some v => v.toText
    | none => return "$\x7b" ++ path ++ "\x7d"

/-- Fills pieces from left to right. -/
def fillPieces (scopes : Scopes) : List Piece → Except Fault String
  | [] => .ok ""
  | p :: ps => do
    let s ← fillPiece scopes p
    return s ++ (← fillPieces scopes ps)

/-- Fills the placeholders of a text. -/
def fill (scopes : Scopes) (s : String) : Except Fault String :=
  fillPieces scopes (pieces s.toList)

mutual

/-- Fills the placeholders of every text in a value, keys and members of sets aside. -/
def fillValue (scopes : Scopes) : Value → Except Fault Value
  | .text s => do return .text (← fill scopes s)
  | .list xs => do return .list (← fillAll scopes xs)
  | .tuple xs => do return .tuple (← fillAll scopes xs)
  | .dict es => do return .dict (← fillEntries scopes es)
  | v => .ok v

def fillAll (scopes : Scopes) : List Value → Except Fault (List Value)
  | [] => .ok []
  | x :: xs => do
    let y ← fillValue scopes x
    return y :: (← fillAll scopes xs)

def fillEntries (scopes : Scopes) :
    List (Value × Value) → Except Fault (List (Value × Value))
  | [] => .ok []
  | (k, v) :: rest => do
    let y ← fillValue scopes v
    return (k, y) :: (← fillEntries scopes rest)

end

@[simp] theorem pieces_nil : pieces [] = [] := by rw [pieces]

@[simp] theorem fillPieces_nil (scopes : Scopes) : fillPieces scopes [] = .ok "" := rfl

end Template

end BlockSuite
