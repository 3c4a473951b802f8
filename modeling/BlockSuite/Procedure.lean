import BlockSuite.Step
import BlockSuite.Failure
import BlockSuite.Json.Reader

/-!
Procedures: named bodies of steps with declared parameters, and how the arguments of a call meet
these parameters.
-/

namespace BlockSuite

/-- A declared parameter. -/
structure Param where
  name : String
  type : String
  default : Value
  description : Option String
deriving Repr, BEq, Inhabited

namespace Param

/-- The type of parameters declared without one. -/
def anyType : String := "any"

def form : Form Param :=
  Param.mk <$> Form.required "name" Check.variableName <*>
    Form.field ["type"] Check.text anyType <*> Form.field ["default"] Check.any .null <*>
    Form.field ["description"] (Check.optional Check.text) none

def check : Check Param := form.check "ProcedureParam"

/-- A parameter as a record. -/
def record (d : Display) (p : Param) : Value :=
  .record [("name", .text p.name), ("type", .text p.type), ("default", d.literal p.default),
    ("description", .ofText? p.description)]

/-- Reads one item of a written parameter list, unless it is blank. -/
def ofItem? (item : String) : Option (Except Invalid Param) :=
  let (name, type) := Text.cutAt ':' item
  let name := Text.trim name
  let type := Text.trim type
  if name.isEmpty then none
  else
    some <| match Check.variableName (.text name) with
    | .ok name => .ok ⟨name, if type.isEmpty then anyType else type, .null, none⟩
    | .error issues => .error ⟨"ProcedureParam", issues.map (Issue.within (.name "name"))⟩

/-- Reads a parameter list written as names with types behind colons, between commas. -/
def ofText (s : String) : Except Invalid (List Param) :=
  ((Text.splitAt ',' s).filterMap ofItem?).mapM id

/-- Reads a parameter list given as a value; one that counts as false has no items. -/
def ofValue (v : Value) : Except Failure (List Param) := do
  let s ← if v.isTruthy then (v.textWith "split").mapError .ofFault else .ok ""
  (ofText s).mapError .invalid

end Param

/-- A procedure. -/
structure Procedure where
  name : String
  description : Option String
  params : List Param
  returnType : Option String
  steps : List Step
deriving Repr, BEq, Inhabited

namespace Procedure

def form : Form Procedure :=
  Procedure.mk <$> Form.required "name" Check.nonemptyText <*>
    Form.field ["description"] (Check.optional Check.text) none <*>
    Form.field ["params"] (Check.list Param.check) [] <*>
    Form.field ["return_type", "returnType"] (Check.optional Check.text) none <*>
    Form.field ["steps"] Step.checkSteps []

def check : Check Procedure := form.check "ProcedureDefinition"

/-- A procedure as a record. -/
def record (d : Display) (p : Procedure) : Value :=
  .record [("name", .text p.name), ("description", .ofText? p.description),
    ("params", .list (p.params.map (Param.record d))), ("return_type", .ofText? p.returnType),
    ("steps", d.steps p.steps)]

/-- The parameter names in order. -/
def paramNames (p : Procedure) : List String := p.params.map (·.name)

end Procedure

/-- The arguments of a call before they meet parameters: by name, or by position. -/
inductive Arguments where
  | named (members : List (Value × Value))
  | positional (values : List Value)
deriving Repr, BEq, Inhabited

namespace Arguments

/-- An item of a list of arguments: JSON if it is some, else the text without blanks around. -/
def decodeItem (item : String) : Value :=
  let s := Text.trim item
  match Json.read s with
  | .ok v => v
  | .error _ => .text s

/-- The arguments that a value stands for. A text is JSON if it can be read as some; else its
items stand between commas. A text of blanks alone counts as a value. -/
def ofValue : Value → Arguments
  | .dict es => named es
  | .list xs | .tuple xs => positional xs
  | .null => positional []
  | .text s =>
    if s.isEmpty then positional []
    else if Text.isBlankText s then positional [.text s]
    else
      match Json.read s with
      | .error _ => positional ((Text.splitAt ',' s).map decodeItem)
      | .ok (.dict es) => named es
      | .ok (.list xs) => positional xs
      | .ok v => positional [v]
  | v => positional [v]

/-- Binds the parameters of a procedure behind the named arguments: by position as far as there
are values, else to their default where one is declared and no argument has their name. -/
def bindFrom (bound : List (Value × Value)) (values : List Value) :
    List Param → List (Value × Value)
  | [] => bound
  | p :: params =>
    match values with
    | v :: values => bindFrom (Value.bindKey bound (.text p.name) v) values params
    | [] =>
      match p.default with
      | .null => bindFrom bound [] params
      | d =>
        if (Value.member? bound p.name).isSome then bindFrom bound [] params
        else bindFrom (Value.bindKey bound (.text p.name) d) [] params

/-- The bindings of a call; with more values than parameters there are none, and the counts of
parameters and values say why. -/
def bind (procedure : Procedure) : Arguments → Except (Nat × Nat) (List (Value × Value))
  | named es => .ok (bindFrom es [] procedure.params)
  | positional values =>
    if procedure.params.length < values.length then
      .error (procedure.params.length, values.length)
    else .ok (bindFrom [] values procedure.params)

end Arguments

/-- The bindings of a call with the arguments that a value stands for. -/
def Procedure.arguments (p : Procedure) (v : Value) :
    Except BlockError (List (Value × Value)) :=
  match (Arguments.ofValue v).bind p with
  | .ok bound => .ok bound
  | .error (takes, given) =>
    .error (.of .unresolved ("Procedure " ++ Quoted.ofText p.name ++ " takes " ++
      Nat.repr takes ++ " argument(s) but " ++ Nat.repr given ++ " were given"))

end BlockSuite
