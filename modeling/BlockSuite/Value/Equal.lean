import BlockSuite.Value.Basic

/-!
When two values are the same key of a mapping or member of a set: numbers by value whatever
their type, truth values as zero and one, everything else by content.
-/

namespace BlockSuite

namespace Moment

/-- Days before a date, counted from a fixed day. -/
def dayNumber (d : Date) : Int :=
  let y := d.year - 1
  let before := (List.range (d.month - 1)).foldl (fun n m => n + Date.daysIn d.year (m + 1)) 0
  (y * 365 + y / 4 - y / 100 + y / 400 + before + d.day : Nat)

/-- Microseconds since a fixed day, in universal time where the offset is known. -/
def instant (m : Moment) : Int :=
  dayNumber m.date * Duration.perDay +
    ((m.hour * 3600 + m.minute * 60 + m.second : Nat) : Int) * Duration.perSecond + m.micro -
    (match m.offset with
      | some d => d.micros
      | none => 0)

/-- Whether two moments are the same: both with an offset or both without, and at one instant. -/
def same (a b : Moment) : Bool :=
  a.offset.isSome == b.offset.isSome && a.instant == b.instant

end Moment

namespace Value

mutual

/-- Whether two values are equal as keys. -/
def same (v w : Value) : Bool :=
  match v, w with
  | null, null => true
  | int a, int b => a == b
  | text a, text b => a == b
  | bytes a, bytes b => a == b
  | date a, date b => a == b
  | moment a, moment b => a.same b
  | duration a, duration b => a == b
  | list a, list b => sameAll a b
  | tuple a, tuple b => sameAll a b
  | set a, set b => a.length == b.length && sameMembers a b
  | dict a, dict b => a.length == b.length && sameEntries a b
  | inner k a _ _, inner l b _ _ => k == l && a == b
  | float (.infinite a), float (.infinite b) => a == b
  | a, b =>
    match a.scaled?, b.scaled? with
    | some x, some y => x == y
    | _, _ => false
termination_by structural v

def sameAll : List Value → List Value → Bool
  | [], [] => true
  | x :: xs, y :: ys => same x y && sameAll xs ys
  | _, _ => false

/-- Whether each value of the first list is among those of the second. -/
def sameMembers : List Value → List Value → Bool
  | [], _ => true
  | x :: xs, ys => (ys.any fun y => same x y) && sameMembers xs ys

/-- Whether each member of the first mapping is a member of the second. -/
def sameEntries : List (Value × Value) → List (Value × Value) → Bool
  | [], _ => true
  | (k, v) :: rest, ys => (ys.any fun e => same k e.1 && same v e.2) && sameEntries rest ys

end

/-- Binds a key of a mapping; a key that is there keeps its place and its first spelling. -/
def bindKey {α : Type} : List (Value × α) → Value → α → List (Value × α)
  | [], key, value => [(key, value)]
  | (k, v) :: rest, key, value =>
    if same k key then (k, value) :: rest else (k, v) :: bindKey rest key value

/-- A mapping from pairs, a later pair replacing the value of an earlier one. -/
def mappingOf (pairs : List (Value × Value)) : Value :=
  dict (pairs.foldl (fun d e => bindKey d e.1 e.2) [])

/-- The name of the type of the first part of a value that keeps it from being a key. -/
def unhashable? : Value → Option String
  | v@(list _) | v@(set _) | v@(dict _) => some v.typeName
  | tuple xs => unhashableIn? xs
  | _ => none
where
  unhashableIn? : List Value → Option String
    | [] => none
    | x :: xs => x.unhashable?.or (unhashableIn? xs)

/-- The fault of using a value as a key that cannot be one. -/
def keyFault? (v : Value) : Option Fault :=
  v.unhashable?.map fun kind => .type ("unhashable type: '" ++ kind ++ "'")

/-- Puts whole numbers in ascending order; other members stay in the order given. -/
def memberOrder (xs : List Value) : List Value :=
  if xs.all fun | int _ => true | _ => false then
    xs.mergeSort fun
      | int a, int b => a ≤ b
      | _, _ => true
  else xs

/-- A set of the distinct values of a list. -/
def setOf (xs : List Value) : Value :=
  let distinct := xs.foldl (fun acc x => if acc.any (same x) then acc else acc ++ [x]) []
  set (memberOrder distinct)

end Value

end BlockSuite
