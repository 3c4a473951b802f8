import BlockSuite.Block.Basic

/-!
Plugins: named collections of blocks with hooks, which observe a run around the cases of a suite,
around each case and around each step of a list.
-/

namespace BlockSuite

/-- What a plugin does at the events of a run. -/
structure Hooks where
  beforeAll : Option (Suite → Run Unit) := none
  afterAll : Option (Suite → Run Unit) := none
  beforeTest : Option (Case → Run Unit) := none
  afterTest : Option (Case → TestResult → Run Unit) := none
  beforeStep : Option (Step → Run Unit) := none
  afterStep : Option (Step → StepResult → Run Unit) := none
deriving Inhabited

namespace Hooks

/-- Runs the hooks of an event in order, up to the first that fails. -/
def runAll (hooks : List Hooks) (event : Hooks → Option (Run Unit)) : Run Unit :=
  Action.each id (hooks.filterMap event)

/-- The form of hooks in a document, where none can be given. -/
def form : Form Hooks :=
  let absent (name : String) : Form Unit :=
    Form.field [name] (fun v => (Check.optional Check.callable v).map fun _ => ()) ()
  (fun _ _ _ _ _ _ => {}) <$> absent "before_all" <*> absent "after_all" <*>
    absent "before_test" <*> absent "after_test" <*> absent "before_step" <*>
    absent "after_step"

def check : Check Hooks := form.check "PluginHooks"

/-- Hooks as a record that has null for each that is absent. -/
def record (h : Hooks) : Value :=
  let shown {α : Type} (hook : Option α) : Value := Value.ofText? (hook.map fun _ => "hook")
  .record [("before_all", shown h.beforeAll), ("after_all", shown h.afterAll),
    ("before_test", shown h.beforeTest), ("after_test", shown h.afterTest),
    ("before_step", shown h.beforeStep), ("after_step", shown h.afterStep)]

@[simp] theorem runAll_nil (event : Hooks → Option (Run Unit)) :
    runAll [] event = Action.pure () := rfl

end Hooks

/-- A plugin. -/
structure Plugin where
  name : String
  version : String := "1.0.0"
  description : Option String := none
  blocks : List Block := []
  hooks : Hooks := {}
deriving Inhabited

namespace Plugin

/-- The form of a plugin, given how its blocks and hooks are read. -/
def formOf (blocks : Form (List Block)) (hooks : Form Hooks) : Form Plugin :=
  Plugin.mk <$> Form.required "name" Check.variableName <*>
    Form.field ["version"] Check.text "1.0.0" <*>
    Form.field ["description"] (Check.optional Check.text) none <*> blocks <*> hooks

def check : Check Plugin :=
  (formOf (Form.field ["blocks"] (Check.list Block.check) [])
    (Form.field ["hooks"] Hooks.check {})).check "Plugin"

/-- A plugin of given blocks and hooks under a name. -/
def make (name : Value) (blocks : List Block) (hooks : Hooks) : Checked Plugin :=
  (formOf (Form.pure blocks) (Form.pure hooks)).close [(.text "name", name)]

/-- A plugin as a record. -/
def record (d : Display) (p : Plugin) : Value :=
  .record [("name", .text p.name), ("version", .text p.version),
    ("description", .ofText? p.description), ("blocks", .list (p.blocks.map (Block.record d))),
    ("hooks", p.hooks.record)]

end Plugin

/-- What comes of loading an entry point. -/
inductive Loaded where
  /-- It failed. -/
  | failed
  /-- It was refused by a check. -/
  | invalid
  /-- It gave something else. -/
  | other
  | plugin (p : Plugin)
deriving Inhabited

/-- Where a plugin may be found: under a name in a group, at some location. -/
structure EntryPoint where
  name : String
  location : String
  group : String
  loaded : Loaded
deriving Inhabited

end BlockSuite
