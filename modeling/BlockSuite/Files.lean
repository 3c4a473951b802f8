import BlockSuite.Text.Split

/-!
Files under a directory, by their paths from it.
-/

namespace BlockSuite

/-- What a path leads to. A file has a text, unless its bytes are none. -/
inductive Entry where
  | missing
  | directory
  | file (text : Option String)
deriving Repr, Inhabited

/-- The parts of a path. -/
def pathParts (path : String) : List String := Text.splitAt '/' path

/-- A path without parts that stay in place. -/
def plainPath (path : String) : String :=
  let parts := (pathParts path).filter fun s => !(s.isEmpty || s == ".")
  let start := if path.toList.head? == some '/' then "/" else ""
  let plain := start ++ "/".intercalate parts
  if plain.isEmpty then "." else plain

/-- Files by the parts of their paths. -/
structure Files where
  texts : List (List String × String)
deriving Repr, Inhabited

namespace Files

/-- Files by their paths. -/
def ofList (files : List (String × String)) : Files := ⟨files.map fun e => (pathParts e.1, e.2)⟩

/-- Whether a file lies below a directory. -/
def hasDirectory (fs : Files) (parts : List String) : Bool :=
  fs.texts.any fun e => parts.isPrefixOf e.1 && parts.length < e.1.length

/-- What the parts of a path lead to from a directory. -/
def walk (fs : Files) (base : List String) : List String → Entry
  | [] => .directory
  | s :: rest =>
    if s.isEmpty || s == "." then walk fs base rest
    else if s == ".." then walk fs base.dropLast rest
    else
      let here := base ++ [s]
      match fs.texts.find? (·.1 == here) with
      | some (_, text) => if rest.isEmpty then .file (some text) else .missing
      | none => if fs.hasDirectory here then walk fs here rest else .missing

/-- What a path leads to. -/
def entry (fs : Files) (path : String) : Entry :=
  if path.isEmpty then .missing
  else if path.toList.head? == some '/' then
    if (pathParts path).all String.isEmpty then .directory else .missing
  else fs.walk [] (pathParts path)

/-- The entries of a directory in the order of their names: files with their texts, and
directories. -/
def entries (fs : Files) (base : List String) : List (String × Option String) :=
  let below := fs.texts.filterMap fun (parts, text) =>
    if base.isPrefixOf parts then
      match parts.drop base.length with
      | [name] => some (name, some text)
      | name :: _ => some (name, none)
      | [] => none
    else none
  (below.foldl (fun (seen : List (String × Option String)) e =>
    if (seen.lookup e.1).isSome then seen else seen ++ [e]) []).mergeSort fun a b => a.1 ≤ b.1

end Files

end BlockSuite
