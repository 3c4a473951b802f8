import BlockSuite.Result
import BlockSuite.Value.Member

/-!
Failures by their names. A name stands for a kind of failure, which takes at most one argument in
its place and some options by name. Arguments that do not fit are a fault, which counts them or
names the option.
-/

namespace BlockSuite

namespace Value

/-- The members of a mapping of options: each has a text for a name. -/
def options (v : Value) : Except Fault (Dict Value) :=
  if v.entries.all fun e => match e.1 with
    | .text _ => true
    | _ => false
  then .ok v.named
  else .error (.type "keywords must be strings")

/-- The members of a mapping of options of which only some are known. -/
def optionsOf (owner : String) (known : List String) (v : Value) : Except Fault (Dict Value) := do
  let options ← v.options
  match options.keys.find? (!known.contains ·) with
  | some name =>
    .error (.type (owner ++ "() got an unexpected keyword argument '" ++ name ++ "'"))
  | none => return options

end Value

namespace Failure

/-- What a kind of failure takes: whose arguments are counted, the argument in its place and
whether there has to be one, and its options. -/
structure Arguments where
  owner : String
  name : String
  required : Bool := true
  options : List String := []
deriving Repr, Inhabited

/-- What the kinds of errors take, by their names. -/
def argumentsOf : List (String × Arguments) :=
  let plain : Arguments := { owner := "BlockError", name := "message", options := ["context"] }
  [("BlockError", plain), ("BlockSchemaError", plain), ("BlockRuntimeError", plain),
    ("ResolveError", plain),
    ("PluginError", { owner := "PluginError", name := "message", options := ["entrypoint"] }),
    ("UnknownBlockType", { owner := "UnknownBlockType", name := "block_type" }),
    ("ProcedureNotFound", { owner := "ProcedureNotFound", name := "name" }),
    ("HardAssertionFailed",
      { owner := "HardAssertionFailed"
        name := "message"
        options := ["expected", "actual", "context"] }),
    ("SoftAssertionAggregate", { owner := "SoftAssertionAggregate", name := "errors" }),
    ("LeafExecutionError",
      { owner := "LeafExecutionError", name := "message", options := ["trace", "context"] }),
    ("ExecutionCancelled", { owner := "ExecutionCancelled", name := "message", required := false }),
    ("SkipStep", { owner := "SkipStep", name := "reason", required := false })]

namespace Arguments

/-- A fault in a call that makes a failure. -/
def fault (a : Arguments) (s : String) : Fault := .type (a.owner ++ ".__init__() " ++ s)

/-- A number of things under the name of one. -/
def counted (n : Nat) (noun : String) : String :=
  Nat.repr n ++ " " ++ noun ++ (if n = 1 then "" else "s")

/-- The fault of more arguments than there are places. The maker itself counts as one. -/
def tooMany (a : Arguments) (given options : Nat) : Fault :=
  let places := if a.required then "2" else "from 1 to 2"
  let shown :=
    if options = 0 then Nat.repr (given + 1)
    else counted (given + 1) "positional argument" ++ " (and " ++
      counted options "keyword-only argument" ++ ")"
  a.fault ("takes " ++ places ++ " positional arguments but " ++ shown ++ " were given")

/-- The argument in its place, if there is one, and the options. -/
def fit (a : Arguments) (given : List Value) (options : Dict Value) :
    Except Fault (Option Value × Dict Value) := do
  for (name, _) in options do
    if name == a.name || name == "self" then
      if name == "self" || !given.isEmpty then
        throw (a.fault ("got multiple values for argument '" ++ name ++ "'"))
    else if !a.options.contains name then
      throw (a.fault ("got an unexpected keyword argument '" ++ name ++ "'"))
  match given with
  | _ :: _ :: _ => throw (a.tooMany given.length options.length)
  | [v] => return (some v, options)
  | [] =>
    match options.get? a.name with
    | some v => return (some v, options)
    | none =>
      if a.required then
        throw (a.fault ("missing 1 required positional argument: '" ++ a.name ++ "'"))
      return (none, options)

end Arguments

/-- What a fault is about: nothing, its only argument, or all of them. -/
def about : List Value → Option Value
  | [] => none
  | [v] => some v
  | vs => some (.tuple vs)

/-- The aggregate of collected failures with some messages. -/
def ofMessages (messages : List Value) : Except Failure Failure := do
  let errors ← messages.mapM fun m =>
    (SoftError.check (.record [("message", m)])).mapError fun issues =>
      Failure.invalid ⟨"SoftAssertionError", issues⟩
  return .raised (.ofSoft errors)

/-- A failure by the name of its kind, from its argument and options. -/
def named (kind : String) (given : List Value) (options : Value := .null) :
    Except Failure Failure := do
  let options ← options.options.mapError ofFault
  if let some k := FaultKind.every.find? (·.label == kind) then
    if options.isEmpty then return .fault k (about given)
    else throw (.ofFault (.type (kind ++ "() takes no keyword arguments")))
  let a := ((argumentsOf.find? (·.1 == kind)).map (·.2)).getD default
  let places := if kind == "SoftAssertionAggregate" then [.list given] else given
  let (argument, options) ← (a.fit places options).mapError ofFault
  let message := argument.getD .null
  let place ← (Place.ofValue ((options.get? "context").getD .null)).mapError ofFault
  match kind with
  | "UnknownBlockType" => ((BlockError.unknownBlockOf message).mapError ofFault).map .raised
  | "ProcedureNotFound" => ((BlockError.unknownProcedureOf message).mapError ofFault).map .raised
  | "HardAssertionFailed" =>
    let expected := (options.get? "expected").getD .null
    let actual := (options.get? "actual").getD .null
    return .raised ⟨.hardAssertion expected actual, message, place⟩
  | "SoftAssertionAggregate" => ofMessages given
  | "LeafExecutionError" =>
    let trace := ((options.get? "trace").filter (· != .null)).map Value.asText
    return .raised ⟨.leaf trace none, message, place⟩
  | "ExecutionCancelled" =>
    match argument with
    | none => return .raised .cancelled
    | some v => return .raised ⟨.cancelled, v, {}⟩
  | "SkipStep" => return .skip (argument.getD (.text "Skipped"))
  | kind => return .raised ⟨(Reason.ofLabel? kind).getD .block, message, place⟩

end Failure

end BlockSuite
