import BlockSuite.Procedure

/-!
Suites: the test cases of one file with the variables, procedures and surrounding steps that
they share. A case with data rows runs once per row.
-/

namespace BlockSuite

/-- A position in a list: a count from zero, or from the end where it is negative. A truth value
stands for the first position or the one after it. -/
inductive Position where
  | number (i : Int)
  | flag (b : Bool)
deriving DecidableEq, Repr, Inhabited

namespace Position

def index : Position → Int
  | number i => i
  | flag b => if b then 1 else 0

def toValue : Position → Value
  | number i => .int i
  | flag b => .bool b

def text : Position → String
  | number i => toString i
  | flag b => if b then "True" else "False"

/-- The position that a value gives. -/
def ofValue : Value → Except Fault Position
  | .int i => .ok (number i)
  | .bool b => .ok (flag b)
  | v => .error (.type ("list indices must be integers or slices, not " ++ v.fullTypeName))

/-- The position that a value gives; null gives none. -/
def ofValue? : Value → Except Fault (Option Position)
  | .null => .ok none
  | v => (ofValue v).map some

/-- The element at a position. -/
def pick (xs : List α) (p : Position) : Except Fault α :=
  let i := if p.index < 0 then p.index + xs.length else p.index
  match if i < 0 then none else xs[i.toNat]? with
  | some x => .ok x
  | none => .error ⟨.index, "list index out of range"⟩

end Position

/-- A row of data. -/
structure Row where
  name : Option String
  values : Dict Value
deriving Repr, BEq, Inhabited

namespace Row

def form : Form Row :=
  Row.mk <$> Form.field ["name"] (Check.optional Check.text) none <*>
    Form.field ["values"] (Check.mapping Check.text Check.any) []

def check : Check Row := form.check "DataRow"

/-- A row as a record. -/
def record (d : Display) (r : Row) : Value :=
  .record [("name", .ofText? r.name),
    ("values", .record (r.values.map fun e => (e.1, d.literal e.2)))]

end Row

/-- A typed declaration of a variable. -/
structure Declaration where
  type : String
  default : Value
  description : Option String
deriving Repr, BEq, Inhabited

namespace Declaration

def form : Form Declaration :=
  Declaration.mk <$> Form.required "type" Check.text <*>
    Form.field ["default"] Check.any .null <*>
    Form.field ["description"] (Check.optional Check.text) none

def check : Check Declaration := form.check "VariableDefinition"

/-- A declaration as a record. -/
def record (d : Display) (v : Declaration) : Value :=
  .record [("type", .text v.type), ("default", d.literal v.default),
    ("description", .ofText? v.description)]

end Declaration

/-- A variable of a suite: declared with a type, or given as a plain value. -/
inductive Variable where
  | declared (d : Declaration)
  | plain (v : Value)
deriving Repr, BEq, Inhabited

namespace Variable

/-- A mapping that is a declaration in full is one; any other value is plain. -/
def check : Check Variable := fun v =>
  match Declaration.check v with
  | .ok d => .ok (declared d)
  | .error _ => .ok (plain v)

/-- The value of a variable before the first step. -/
def initial : Variable → Value
  | declared d => d.default
  | plain v => v

/-- A variable as a record or value. -/
def record (d : Display) : Variable → Value
  | declared v => v.record d
  | plain v => d.literal v

end Variable

/-- A test case. -/
structure Case where
  name : String
  description : Option String
  id : Option String
  tags : List String
  soft : Option Bool
  data : List Row
  beforeEach : List Step
  afterEach : List Step
  steps : List Step
deriving Repr, BEq, Inhabited

namespace Case

def form : Form Case :=
  Case.mk <$> Form.required "name" Check.text <*>
    Form.field ["description"] (Check.optional Check.text) none <*>
    Form.field ["id"] (Check.optional Check.text) none <*>
    Form.field ["tags"] (Check.list Check.text) [] <*>
    Form.field ["soft_assertions", "softAssertions"] (Check.optional Check.truth) none <*>
    Form.field ["data"] (Check.list Row.check) [] <*>
    Form.field ["before_each", "beforeEach"] Step.checkSteps [] <*>
    Form.field ["after_each", "afterEach"] Step.checkSteps [] <*>
    Form.field ["steps"] Step.checkSteps []

def check : Check Case := form.check "TestCase"

/-- A case as a record. -/
def record (d : Display) (c : Case) : Value :=
  .record [("name", .text c.name), ("description", .ofText? c.description),
    ("id", .ofText? c.id), ("tags", .list (c.tags.map .text)),
    ("soft_assertions", (c.soft.map Value.bool).getD .null),
    ("data", .list (c.data.map (Row.record d))), ("before_each", d.steps c.beforeEach),
    ("after_each", d.steps c.afterEach), ("steps", d.steps c.steps)]

/-- The identifier of a case, or its name where it has none. -/
def key (c : Case) : String :=
  match c.id with
  | some id => if id.isEmpty then c.name else id
  | none => c.name

/-- The runs of a case: one per row, or a single one without a row. -/
def runs (c : Case) : List (Option Position) :=
  if c.data.isEmpty then [none]
  else (List.range c.data.length).map fun (i : Nat) => some (.number i)

/-- The name under which a run of a case is shown: with the name of its row, or its position. -/
def runName (c : Case) : Option Position → String
  | none => c.name
  | some p =>
    let name := ((p.pick c.data).toOption.bind (·.name)).getD ""
    c.name ++ "[" ++ (if name.isEmpty then p.text else name) ++ "]"

end Case

/-- A suite of test cases. -/
structure Suite where
  name : String
  description : Option String
  version : String
  bindings : Dict Variable
  procedures : List Procedure
  beforeAll : List Step
  afterAll : List Step
  beforeEach : List Step
  afterEach : List Step
  cases : List Case
  metadata : Dict Value
deriving Repr, BEq, Inhabited

namespace Suite

/-- The name of a suite that is given none. -/
def untitled : String := "Untitled"

def form : Form Suite :=
  Suite.mk <$> Form.field ["name"] Check.text untitled <*>
    Form.field ["description"] (Check.optional Check.text) none <*>
    Form.field ["version"] Check.text "1.0" <*>
    Form.field ["variables"] (Check.mapping Check.variableName Variable.check) [] <*>
    Form.field ["procedures"] (Check.list Procedure.check) [] <*>
    Form.field ["before_all", "beforeAll"] Step.checkSteps [] <*>
    Form.field ["after_all", "afterAll"] Step.checkSteps [] <*>
    Form.field ["before_each", "beforeEach"] Step.checkSteps [] <*>
    Form.field ["after_each", "afterEach"] Step.checkSteps [] <*>
    Form.field ["tests"] (Check.list Case.check) [] <*>
    Form.field ["metadata"] (Check.mapping Check.text Check.any) []

def check : Check Suite := form.check "TestFile"

/-- A suite as a record. -/
def record (d : Display) (s : Suite) : Value :=
  .record [("name", .text s.name), ("description", .ofText? s.description),
    ("version", .text s.version),
    ("variables", .record (s.bindings.map fun e => (e.1, e.2.record d))),
    ("procedures", .list (s.procedures.map (Procedure.record d))),
    ("before_all", d.steps s.beforeAll), ("after_all", d.steps s.afterAll),
    ("before_each", d.steps s.beforeEach), ("after_each", d.steps s.afterEach),
    ("tests", .list (s.cases.map (Case.record d))),
    ("metadata", .record (s.metadata.map fun e => (e.1, d.literal e.2)))]

/-- The values of the variables before the first step. -/
def initialVariables (s : Suite) : Dict Value := s.bindings.map fun e => (e.1, e.2.initial)

/-- The runs of all cases in order. -/
def runs (s : Suite) : List (Case × Option Position) :=
  s.cases.flatMap fun c => c.runs.map fun i => (c, i)

end Suite

/-- A case alone as a suite. -/
def Case.alone (c : Case) : Suite :=
  { name := Suite.untitled, description := none, version := "1.0", bindings := [],
    procedures := [], beforeAll := [], afterAll := [], beforeEach := [], afterEach := [],
    cases := [c], metadata := [] }

end BlockSuite
