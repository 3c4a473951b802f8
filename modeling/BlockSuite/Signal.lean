import BlockSuite.Procedure

/-!
Control signals: what a block may answer instead of a value, to have steps run on its behalf.
-/

namespace BlockSuite

/-- A control signal. -/
inductive Signal where
  /-- Run a slot. -/
  | branch (slot : String)
  /-- Run a slot a number of times. -/
  | countedLoop (times : Nat) (slot : String)
  /-- Run a slot once per item, with the item and perhaps its position bound. -/
  | collectionLoop (items : List Value) (binding slot : String) (indexBinding : Option String)
  /-- Run a slot, and another one should it fail. -/
  | tryCatch (trySlot catchSlot : String) (errorBinding : Option String)
  /-- Run steps in place of the step, in a frame of their own if asked. -/
  | expand (steps : List Step) (name : Option String) (frame : Bool) (bindings : Dict Value)
  /-- Run the body of a procedure in a frame. -/
  | call (name : String) (args : Dict Value) (procedure : Procedure) (expectReturn : Bool)
  /-- Leave the nearest frame with a value. -/
  | leave (value : Value)
  /-- Define a procedure whose body is a slot. -/
  | define (name : String) (params : List Param) (description returnType : Option String)
      (slot : String)
deriving Repr, BEq, Inhabited

namespace Signal

/-- The slot that loops and definitions take where none is named. -/
def bodySlot : String := "DO"

def optionalText (names : List String) : Form (Option String) :=
  Form.field names (Check.optional Check.text) none

def slotField : Form String := Form.field ["slot"] Check.text bodySlot

def bindingsField (name : String) : Form (Dict Value) :=
  Form.field [name] (Check.mapping Check.text Check.any) []

def branchForm : Form Signal := branch <$> Form.required "slot" Check.text

def countedLoopForm : Form Signal :=
  countedLoop <$> Form.required "times" Check.count <*> slotField

def collectionLoopForm : Form Signal :=
  collectionLoop <$> Form.required "items" (Check.list Check.any) <*>
    Form.required "binding" Check.nonemptyText <*> slotField <*> optionalText ["index_binding"]

def tryCatchForm : Form Signal :=
  tryCatch <$> Form.field ["try_slot"] Check.text "TRY" <*>
    Form.field ["catch_slot"] Check.text "CATCH" <*> optionalText ["error_binding"]

def expandForm : Form Signal :=
  expand <$> Form.required "steps" Step.checkSteps <*> optionalText ["name"] <*>
    Form.field ["frame"] Check.truth false <*> bindingsField "bindings"

def callForm : Form Signal :=
  call <$> Form.required "name" Check.text <*> bindingsField "args" <*>
    Form.required "procedure" Procedure.check <*>
    Form.field ["expect_return"] Check.truth false

def leaveForm : Form Signal := leave <$> Form.field ["value"] Check.any .null

def defineForm : Form Signal :=
  define <$> Form.required "name" Check.nonemptyText <*>
    Form.field ["params"] (Check.list Param.check) [] <*> optionalText ["description"] <*>
    optionalText ["return_type"] <*> slotField

/-- The forms of signals by their model. -/
def forms : List (String × Form Signal) :=
  [("Branch", branchForm), ("CountedLoop", countedLoopForm),
    ("CollectionLoop", collectionLoopForm), ("TryCatch", tryCatchForm),
    ("InlineExpand", expandForm), ("ProcedureCall", callForm), ("ProcedureReturn", leaveForm),
    ("ProcedureDefine", defineForm)]

/-- Reads a signal of a model, if there is such a model. -/
def check? (model : String) : Option (Check Signal) :=
  (Dict.get? forms model).map fun form => form.check model

/-- A signal as a record. -/
def record (d : Display) : Signal → Value
  | branch slot => .record [("slot", .text slot)]
  | countedLoop times slot => .record [("times", .int times), ("slot", .text slot)]
  | collectionLoop items binding slot indexBinding =>
    .record [("items", .list (items.map d.literal)), ("binding", .text binding),
      ("slot", .text slot), ("index_binding", .ofText? indexBinding)]
  | tryCatch trySlot catchSlot errorBinding =>
    .record [("try_slot", .text trySlot), ("catch_slot", .text catchSlot),
      ("error_binding", .ofText? errorBinding)]
  | expand steps name frame bindings =>
    .record [("steps", d.steps steps), ("name", .ofText? name), ("frame", .bool frame),
      ("bindings", .record (bindings.map fun e => (e.1, d.literal e.2)))]
  | call name args procedure expectReturn =>
    .record [("name", .text name),
      ("args", .record (args.map fun e => (e.1, d.literal e.2))),
      ("procedure", procedure.record d), ("expect_return", .bool expectReturn)]
  | leave value => .record [("value", d.literal value)]
  | define name params description returnType slot =>
    .record [("name", .text name), ("params", .list (params.map (Param.record d))),
      ("description", .ofText? description), ("return_type", .ofText? returnType),
      ("slot", .text slot)]

/-- The procedure that a step defines. -/
def procedure (step : Step) (name : String) (params : List Param)
    (description returnType : Option String) (slot : String) : Procedure :=
  ⟨name, description, params, returnType, step.slot slot⟩

end Signal

end BlockSuite
