import BlockSuite.CommandLine

/-!
Collections: the suites of the files under a directory, run one after the other with a report of
each case. Files are gathered in the order of their names. A file that is no suite is reported,
and then nothing runs at all.
-/

namespace BlockSuite.Collection

/-- When something is reported. -/
inductive Phase where
  | collect
  | setup
  | call
  | teardown
deriving Repr, DecidableEq, Inhabited

def Phase.name : Phase → String
  | collect => "collect"
  | setup => "setup"
  | call => "call"
  | teardown => "teardown"

/-- A report: what it is about, when, how it ended, what is said about that, and its tags. -/
structure Report where
  node : String
  phase : Phase
  status : Status
  text : Option String := none
  tags : List String := []
deriving Repr, Inhabited

/-- A file of a collection with its session. -/
structure Member where
  path : String
  session : Session
deriving Inhabited

/-- Whether files with a name are suites: the name starts with a word that marks tests, has
something behind it in the same line, and ends in one of two endings. A line feed may follow. -/
def isSuiteName (name : String) : Bool :=
  let cs := Text.dropLineFeed name.toList
  let start := "test_".toList
  start.isPrefixOf cs && !cs.contains '\n' &&
    [".blocks.yaml", ".blocks.yml"].any fun ending =>
      ending.toList.isSuffixOf cs && start.length + ending.length < cs.length

/-- Whether a directory is not searched. -/
def isPassedOver (name : String) : Bool :=
  name.toList.head? == some '.' || ".egg".toList.isSuffixOf name.toList ||
    ["__pycache__", "_darcs", "build", "CVS", "dist", "node_modules", "venv",
      "\x7barch\x7d"].contains name

/-- Whether a directory holds an installation of its own, which is not searched. -/
def isInstallation (fs : Files) (path : List String) : Bool :=
  let holds (inside : List String) (name : String) : Bool :=
    (fs.entries (path ++ inside)).any fun e => e.1 == name && e.2.isSome
  holds [] "pyvenv.cfg" || holds ["conda-meta"] "history"

/-- The suites below a directory, with their paths. Fuel bounds the depth of directories. -/
def suitesBelow (fs : Files) : Nat → List String → List (String × String)
  | 0, _ => []
  | fuel + 1, base =>
    (fs.entries base).flatMap fun (name, text) =>
      let path := base ++ [name]
      match text with
      | some s => if isSuiteName name then [("/".intercalate path, s)] else []
      | none =>
        if isPassedOver name || isInstallation fs path then [] else suitesBelow fs fuel path

/-- All suites of a directory. -/
def suites (fs : Files) : List (String × String) :=
  suitesBelow fs (fs.texts.foldl (fun n e => max n e.1.length) 0) []

/-- What a failure says, with its kind. -/
def saying (f : Failure) : String :=
  f.label ++ ": " ++
    match f.text with
    | .ok s => s
    | .error e => e.message

/-- Names of what belongs to the maker of marks itself, by what it is. -/
def ownNames : List (String × List String) :=
  [("'set' object", ["_markers"]), ("'Config' object", ["_config"]),
    ("type object 'MarkGenerator'", ["__class__"]),
    ("'dict' object", ["__annotations__", "__dict__"]),
    ("'str' object", ["__doc__", "__module__"]), ("'bool' object", ["__final__"]),
    ("'NoneType' object", ["__weakref__"]),
    ("'function' object", ["__getattr__", "__init__"]),
    ("'builtin_function_or_method' object", Value.commonMethods),
    ("'method-wrapper' object", Value.commonOperators)]

/-- Near misses of the name of the mark for parameters. -/
def misspelled : List String := ["parameterize", "parametrise", "parameterise"]

/-- What is wrong with a tag: it has to be a name for a new mark. -/
def tagFault? (tag : String) : Option String :=
  if tag.isEmpty then some "IndexError: string index out of range"
  else if misspelled.contains tag then
    some ("Failed: Unknown '" ++ tag ++ "' mark, did you mean 'parametrize'?")
  else
    match ownNames.find? fun e => e.2.contains tag with
    | some (what, _) => some ("AttributeError: " ++ what ++ " has no attribute 'mark'")
    | none =>
      if tag.startsWith "_" then some "AttributeError: Marker name must NOT start with underscore"
      else none

/-- The session of a file. -/
def open? (setup : Setup) (path text : String) : Except String Session := do
  let suite ← (CommandLine.suiteOf path (some text)).mapError saying
  let session ← (Session.start setup suite [] setup.environment.journal).1.ended.mapError saying
  match (suite.runs.flatMap (·.1.tags)).findSome? tagFault? with
  | some f => throw f
  | none => return session

/-- The report of a result that failed. -/
def failureText (path : String) (r : TestResult) : String :=
  match r.failureText (some path) with
  | .ok s => s
  | .error e => e.message

/-- The outcome of a run of a case. -/
def outcome (path : String) (o : Outcome TestResult) : Status × Option String :=
  match o.ended with
  | .error f => (.failed, some (saying f))
  | .ok r =>
    match r.status with
    | .passed => (.passed, none)
    | .skipped =>
      (.skipped, some ("Skipped: " ++ ((r.error.map (·.message)).getD "Skipped")))
    | _ => (.failed, some (failureText path r))

/-- Whether a case with some tags is not to run. It has no line at which this could be reported,
so the whole collection breaks off at such a case. -/
def isBarred (tags : List String) : Bool := tags.contains "skip" || tags.contains "skipif"

/-- The status of a failure in a case with some tags: a failure that is expected counts as
skipped. -/
def failureStatus (tags : List String) : Status :=
  if tags.contains "xfail" then .skipped else .failed

/-- The progress through the cases of a file: its session, whether the phase before all cases was
run, what that phase failed with where it came to no end, and whether the collection broke off. -/
structure Progress where
  session : Session
  isOpen : Bool := false
  fault : Option String := none
  isBroken : Bool := false
  reports : List Report := []
deriving Inhabited

/-- Runs the phase before all cases, unless it was run. -/
def Progress.opened (p : Progress) : Progress :=
  if p.isOpen then p
  else
    let (o, session) := Session.beforeAll p.session
    let fault := match o.ended with
      | .ok _ => none
      | .error f => some (saying f)
    { p with session, isOpen := true, fault }

/-- Runs a case. The phase before all cases is run in front of the first one that runs. Where it
came to no end no case is set up, and where it failed every case fails. -/
def runCase (path : String) (p : Progress) (c : Case) (row : Option Position) : Progress :=
  if p.isBroken || isBarred c.tags then { p with isBroken := true }
  else
    let about (phase : Phase) (status : Status) (text : Option String) : List Report :=
      [{ node := path ++ "::" ++ c.runName row
         phase
         status := if status == .failed then failureStatus c.tags else status
         text
         tags := c.tags }]
    let p := p.opened
    match p.fault, p.session.setupError with
    | some text, _ => { p with reports := p.reports ++ about .setup .failed (some text) }
    | none, some r =>
      { p with reports := p.reports ++ about .call .failed (some (failureText path r)) }
    | none, none =>
      let (o, session) := Session.runCase c row p.session
      let (status, text) := outcome path o
      { p with session, reports := p.reports ++ about .call status text }

/-- Runs the cases of a file; tells whether the collection goes on. The phase after all cases is
reported with the last case, if it fails. -/
def runMember (m : Member) : List Report × Bool :=
  let runs := m.session.suite.runs
  let p := runs.foldl (fun p (c, row) => runCase m.path p c row) { session := m.session }
  let failing (text : String) : List Report :=
    match runs.getLast? with
    | none => []
    | some (c, row) =>
      [{ node := m.path ++ "::" ++ c.runName row
         phase := .teardown
         status := failureStatus c.tags
         text := some text
         tags := c.tags }]
  let teardown :=
    if p.isOpen && !p.isBroken then
      match (Session.afterAll p.session).1.ended with
      | .error f => failing (saying f)
      | .ok (some r) => failing ("AssertionError: " ++ failureText m.path r)
      | .ok none => []
    else []
  (p.reports ++ teardown, !p.isBroken)

/-- Runs files in order as long as the collection goes on. -/
def runMembers : List Member → List Report × Bool
  | [] => ([], true)
  | m :: rest =>
    match runMember m with
    | (reports, true) =>
      let (more, whole) := runMembers rest
      (reports ++ more, whole)
    | (reports, false) => (reports, false)

/-- How a collection ended. -/
inductive Ending where
  | passed
  | failed
  | interrupted
  | broken
  | empty
deriving Repr, DecidableEq, Inhabited

/-- The exit code of an ending. -/
def Ending.code : Ending → Nat
  | passed => 0
  | failed => 1
  | interrupted => 2
  | broken => 3
  | empty => 5

/-- Runs the suites of a directory. -/
def run (setup : Setup) (fs : Files) : Ending × List Report :=
  let opened := (suites fs).map fun (path, text) => (path, open? setup path text)
  let refused := opened.filterMap fun (path, r) =>
    match r with
    | .error text => some { node := path, phase := .collect, status := .failed, text }
    | .ok _ => none
  if !refused.isEmpty then (.interrupted, refused)
  else
    let members := opened.filterMap fun (path, r) => r.toOption.map fun s => ⟨path, s⟩
    if members.all fun m => m.session.suite.runs.isEmpty then (.empty, [])
    else
      let (reports, whole) := runMembers members
      let ending : Ending :=
        if !whole then .broken else if reports.any (·.status == .failed) then .failed else .passed
      (ending, reports)

/-- Options that change the settings of a collection. -/
def settingsOf (words : List String) : Dict Value :=
  (if words.contains "--blocks-strict" then [("strict", .bool true)] else []) ++
    (if words.contains "--blocks-soft" then [("soft_assertions", .bool true)] else [])

/-- Answers a call for the suites of a directory. -/
def call (host : Dict String) (entries : List EntryPoint) (words : List String) (fs : Files) :
    Except Failure (Ending × List Report) := do
  let settings ← CommandLine.settingsOf host (settingsOf words)
  let (created, setup) := Environment.create settings Library.catalog none none entries
  created.ended
  return run setup fs

end BlockSuite.Collection
