import BlockSuite.Document
import BlockSuite.Document.Schema
import BlockSuite.Files
import BlockSuite.Library.Catalog
import BlockSuite.Session
import BlockSuite.Text.Similar

/-!
The command line. It lists the blocks of an environment, prints the schema of suites, and runs a
suite. Arguments that are not understood are answered with how the command is used.
-/

namespace BlockSuite.CommandLine

/-- The name under which the program is called. -/
def program : String := "pytest-blocks"

/-- An option of a command. One that takes a value shows what stands for the value. -/
structure Flag where
  long : String
  short : Option Char := none
  placeholder : Option String := none
  help : String
deriving Repr, DecidableEq, Inhabited

/-- The option of every command that shows how it is used. -/
def helpFlag : Flag := { long := "--help", help := "Show this message and exit." }

/-- A command: what it does, its options, and its argument if it takes one. -/
structure Verb where
  name : String
  help : String
  flags : List Flag
  argument : Option String := none
deriving Repr, DecidableEq, Inhabited

namespace Verb

def blocks : Verb where
  name := "blocks"
  help := "List registered blocks, including blocks of installed plugins."
  flags := [⟨"--category", some 'c', some "TEXT", "Only list blocks of this category."⟩]

def run : Verb where
  name := "run"
  help := "Run a test file and print the results as JSON."
  flags :=
    [⟨"--soft", none, none, "Collect assertion failures instead of stopping at the first one."⟩,
      ⟨"--strict", none, none, "Fail on plugin loading problems and block shadowing."⟩]
  argument := some "FILENAME"

def schema : Verb where
  name := "schema"
  help := "Print the test file JSON Schema to standard output."
  flags := []

/-- All commands. -/
def every : List Verb := [blocks, run, schema]

end Verb

/-- What the program itself does. -/
def summary : String := "Command-line utilities for pytest-blocks."

/-- What is wrong with arguments. -/
inductive Misuse where
  | unknownFlag (name : String) (close : List String)
  | noValue (name : String)
  | needlessValue (name : String)
  | missingArgument (name : String)
  | missingFile (argument path : String)
  | notFile (argument path : String)
  | extraArguments (arguments : List String)
  | unknownCommand (name : String) (close : List String)
  | missingCommand
deriving Repr, DecidableEq, Inhabited

namespace Misuse

/-- What may have been meant. -/
def suggestion (close : List String) : String :=
  let names := (close.mergeSort fun a b => a ≤ b).map Quoted.ofText
  match names with
  | [] => ""
  | [name] => " Did you mean " ++ name ++ "?"
  | names => " (Did you mean one of: " ++ ", ".intercalate names ++ "?)"

/-- The wording of a misuse. -/
def text : Misuse → String
  | unknownFlag name close => "No such option " ++ Quoted.ofText name ++ "." ++ suggestion close
  | noValue name => "Option " ++ Quoted.ofText name ++ " requires an argument."
  | needlessValue name => "Option " ++ Quoted.ofText name ++ " does not take a value."
  | missingArgument name => "Missing argument '" ++ name ++ "'."
  | missingFile argument path =>
    "Invalid value for '" ++ argument ++ "': File " ++ Quoted.ofText path ++ " does not exist."
  | notFile argument path =>
    "Invalid value for '" ++ argument ++ "': File " ++ Quoted.ofText path ++ " is a directory."
  | extraArguments arguments =>
    "Got unexpected extra argument" ++ (if arguments.length == 1 then "" else "s") ++ " (" ++
      " ".intercalate arguments ++ ")"
  | unknownCommand name close =>
    "No such command " ++ Quoted.ofText name ++ "." ++ suggestion close
  | missingCommand => "Missing command."

/-- Whether a misuse is shown with how the command is used. -/
def showsUsage : Misuse → Bool
  | noValue _ | needlessValue _ => false
  | _ => true

end Misuse

/-- The words of a call: the program with its command, if that is known. -/
def callOf : Option Verb → String
  | none => program
  | some v => program ++ " " ++ v.name

/-- How the program or a command is used. -/
def usage (v : Option Verb) : String :=
  "Usage: " ++ callOf v ++ " [OPTIONS]" ++
    (match v with
      | none => " COMMAND [ARGS]..."
      | some v => (v.argument.map (" " ++ ·)).getD "") ++ "\n"

/-- The answer to a misuse. -/
def complaint (v : Option Verb) (m : Misuse) : String :=
  (if m.showsUsage then
    usage v ++ "Try '" ++ callOf v ++ " --help' for help.\n\n"
  else "") ++ "Error: " ++ m.text ++ "\n"

/-- Two columns of text. -/
def columns (rows : List (String × String)) : String :=
  let width := rows.foldl (fun n r => max n r.1.length) 0
  String.join (rows.map fun (a, b) =>
    "  " ++ a ++ Text.repeated ' ' (width - a.length) ++ "  " ++ b ++ "\n")

/-- An option as it is shown. -/
def Flag.title (f : Flag) : String :=
  (match f.short with
    | some c => "-" ++ String.singleton c ++ ", "
    | none => "") ++ f.long ++ ((f.placeholder.map (" " ++ ·)).getD "")

/-- What the program or a command does and how it is used. -/
def helpText (v : Option Verb) : String :=
  let about := (v.map (·.help)).getD summary
  let flags := ((v.map (·.flags)).getD []) ++ [helpFlag]
  usage v ++ "\n  " ++ about ++ "\n\nOptions:\n" ++
    columns (flags.map fun f => (f.title, f.help)) ++
    (if v.isNone then "\nCommands:\n" ++ columns (Verb.every.map fun v => (v.name, v.help)) else "")

/-- Arguments taken apart: options with their values in order, and everything else. -/
structure Parts where
  flags : List (Flag × Option String) := []
  rest : List String := []
deriving Repr, Inhabited

/-- Takes an option with a name of one letter, and further ones in the same word: the options, and
the arguments left. -/
def takeShort (flags : List Flag) (rest : List String) :
    List Char → Except Misuse (List (Flag × Option String) × List String)
  | [] => .ok ([], rest)
  | c :: cs =>
    let name := "-" ++ String.singleton c
    match flags.find? (·.short == some c) with
    | none => .error (.unknownFlag name [])
    | some f =>
      if f.placeholder.isNone then do
        let (more, rest) ← takeShort flags rest cs
        return ((f, none) :: more, rest)
      else
        match cs, rest with
        | _ :: _, _ => .ok ([(f, some (String.ofList cs))], rest)
        | [], value :: rest => .ok ([(f, some value)], rest)
        | [], [] => .error (.noValue name)

/-- Takes the option that a word names: the options in it, and the arguments left. -/
def takeFlag (flags : List Flag) (word : String) (rest : List String) :
    Except Misuse (List (Flag × Option String) × List String) :=
  let (name, value) := Text.cutAt '=' word
  let given := if word.toList.contains '=' then some value else none
  match flags.find? (·.long == name), given with
  | some f, some value =>
    if f.placeholder.isSome then .ok ([(f, some value)], rest) else .error (.needlessValue name)
  | some f, none =>
    if f.placeholder.isNone then .ok ([(f, none)], rest)
    else
      match rest with
      | value :: rest => .ok ([(f, some value)], rest)
      | [] => .error (.noValue name)
  | none, _ =>
    match word.toList with
    | '-' :: '-' :: _ => .error (.unknownFlag name (Text.closest name (flags.map (·.long))))
    | _ => takeShort flags rest (word.toList.drop 1)

/-- Whether a word names options. -/
def isFlag (word : String) : Bool := word.toList.head? == some '-' && 2 ≤ word.length

/-- Takes arguments apart. Options may stand behind other arguments if they are mixed, and none
stands behind two dashes. Fuel bounds the arguments. -/
def parts (flags : List Flag) (mixed : Bool) : Nat → List String → Except Misuse Parts
  | 0, words => .ok { rest := words }
  | _, [] => .ok {}
  | fuel + 1, word :: words => do
    if word == "--" then return { rest := words }
    else if isFlag word then
      let (given, words) ← takeFlag flags word words
      let p ← parts flags mixed fuel words
      return { p with flags := given ++ p.flags }
    else if mixed then
      let p ← parts flags mixed fuel words
      return { p with rest := word :: p.rest }
    else return { rest := word :: words }

/-- What a call asks for. -/
inductive Command where
  | help (of : Option Verb)
  | blocks (category : Option String)
  | schema
  | run (path : String) (soft strict : Bool)
deriving Repr, DecidableEq, Inhabited

/-- Calls for a file at a path. -/
def checkFile (entry : String → Entry) (argument path : String) : Except Misuse Unit :=
  match entry path with
  | .missing => .error (.missingFile argument path)
  | .directory => .error (.notFile argument path)
  | .file _ => .ok ()

/-- The command that the arguments behind a verb ask for. -/
def Verb.read (v : Verb) (entry : String → Entry) (words : List String) :
    Except Misuse Command := do
  let flags := v.flags ++ [helpFlag]
  let p ← parts flags true (words.length + 1) words
  let isSet (name : String) : Bool := p.flags.any (·.1.long == name)
  let valueOf (name : String) : Option String :=
    (p.flags.reverse.find? (·.1.long == name)).bind (·.2)
  if isSet helpFlag.long then return .help (some v)
  else
    let command ← match v.argument with
      | some name =>
        match p.rest with
        | [] => throw (.missingArgument name)
        | path :: _ => do
          checkFile entry name path
          pure (Command.run path (isSet "--soft") (isSet "--strict"))
      | none =>
        pure (if v.name == Verb.schema.name then .schema else .blocks (valueOf "--category"))
    match p.rest.drop (if v.argument.isSome then 1 else 0) with
    | [] => return command
    | extra => throw (.extraArguments extra)

/-- What arguments that cannot be understood lead to: the command they were meant for, and what
is wrong. A call without arguments shows how the program is used. -/
inductive Refusal where
  | noArguments
  | misuse (v : Option Verb) (m : Misuse)
deriving Repr, DecidableEq, Inhabited

/-- The answer to arguments that cannot be understood. -/
def Refusal.text : Refusal → String
  | noArguments => helpText none
  | misuse v m => complaint v m

/-- The command that arguments ask for. Words behind two dashes that name no command are read as
options once more. -/
def Command.ofArguments (entry : String → Entry) (words : List String) :
    Except Refusal Command := do
  let root (m : Misuse) : Refusal := .misuse none m
  if words.isEmpty then throw .noArguments
  let p ← (parts [helpFlag] false (words.length + 1) words).mapError root
  if !p.flags.isEmpty then return .help none
  match p.rest with
  | [] => throw (root .missingCommand)
  | name :: words =>
    match Verb.every.find? (·.name == name) with
    | some v => (v.read entry words).mapError (.misuse (some v))
    | none =>
      let p ← (parts [helpFlag] false (words.length + 2) (name :: words)).mapError root
      if !p.flags.isEmpty then return .help none
      throw (root (.unknownCommand name (Text.closest name (Verb.every.map (·.name)))))

/-- What a call leads to: its exit code, what it prints, the warnings on the way, and what it
fails with. -/
structure Report where
  code : Nat := 0
  printed : String := ""
  complaint : String := ""
  warnings : List String := []
  failure : Option Failure := none
deriving Inhabited

/-- The settings of a call. -/
def settingsOf (host : Dict String) (given : Dict Value) : Except Failure Settings :=
  (Settings.read host given).mapError fun issues => .invalid ⟨"EngineSettings", issues⟩

/-- The lines that list blocks, by category and type. -/
def listing (blocks : List Block) : String :=
  let sorted := blocks.mergeSort fun a b =>
    a.category < b.category || (a.category == b.category && a.type ≤ b.type)
  String.join (sorted.map fun b =>
    b.type ++ "\t" ++ b.category ++ "\t" ++ b.tooltip.getD "" ++ "\n")

/-- A text with every line ended by a line feed. -/
def plainLines : List Char → List Char
  | '\r' :: '\n' :: rest => '\n' :: plainLines rest
  | '\r' :: rest => '\n' :: plainLines rest
  | c :: rest => c :: plainLines rest
  | [] => []

/-- The suite of a file. -/
def suiteOf (path : String) (text : Option String) : Except Failure Suite :=
  match text with
  | none => .error (.raised (.of .schema "Unexpected error"))
  | some s =>
    (Document.read (.file (plainPath path)) (String.ofList (plainLines s.toList))).mapError .raised

/-- Runs the suite of a file and prints its results. -/
def runFile (settings : Settings) (entries : List EntryPoint) (path : String)
    (text : Option String) : Report :=
  let failing (warnings : List String) (f : Failure) : Report :=
    { code := 1, warnings, failure := some f }
  match suiteOf path text with
  | .error f => failing [] f
  | .ok suite =>
    let (created, setup) := Environment.create settings Library.catalog none none entries
    match created.ended with
    | .error f => failing setup.warnings f
    | .ok _ =>
      let (started, warnings) := Session.start setup suite [] setup.environment.journal
      match started.ended with
      | .error f => failing warnings f
      | .ok session =>
        let run : Except Failure Report := do
          let results ← (Session.runSuite session).1.ended
          let json ← (Json.report "  " (.list (results.map TestResult.record))).mapError
            Failure.ofFault
          let green := results.all fun r => r.status == .passed || r.status == .skipped
          return { code := if green then 0 else 1, printed := json ++ "\n", warnings }
        match run with
        | .ok r => r
        | .error f => failing warnings f

/-- Carries out a command. -/
def Command.carryOut (host : Dict String) (entries : List EntryPoint)
    (entry : String → Entry) (c : Command) : Report :=
  let failing (f : Failure) : Report := { code := 1, failure := some f }
  match c with
  | .help v => { printed := helpText v }
  | .schema =>
    match Document.Schema.write (.indented "    ") with
    | .ok s => { printed := s ++ "\n" }
    | .error f => failing (.ofFault f)
  | .blocks category =>
    match settingsOf host [] with
    | .error f => failing f
    | .ok settings =>
      let (created, setup) := Environment.create settings Library.catalog none none entries
      match created.ended with
      | .error f => { failing f with warnings := setup.warnings }
      | .ok _ =>
        let visible := setup.environment.blocks.visible.map (·.2)
        let shown := match category with
          | some c => visible.filter (·.category == c)
          | none => visible
        { printed := listing shown, warnings := setup.warnings }
  | .run path soft strict =>
    let given := (if soft then [("soft_assertions", Value.bool true)] else []) ++
      (if strict then [("strict", Value.bool true)] else [])
    match settingsOf host given, entry path with
    | .error f, _ => failing f
    | .ok settings, .file text => runFile settings entries path text
    | .ok settings, _ => runFile settings entries path none

/-- Answers a call. -/
def call (host : Dict String) (entries : List EntryPoint) (entry : String → Entry)
    (words : List String) : Report :=
  match Command.ofArguments entry words with
  | .ok c => c.carryOut host entries entry
  | .error r => { code := 2, complaint := r.text }

end BlockSuite.CommandLine
