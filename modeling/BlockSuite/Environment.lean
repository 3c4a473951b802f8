import BlockSuite.Plugin
import BlockSuite.Settings

/-!
Environments: the blocks, procedures and plugins that runs share. A block whose type is taken and
a plugin whose name is taken are reported; a strict environment refuses them, any other one takes
the newcomer. A scope sees all of its environment and keeps what is registered in it to itself.
-/

namespace BlockSuite

/-- What documents the failure of a step. -/
abbrev ArtifactHook := Step → Option Failure → Run Value

/-- An environment. -/
structure Environment where
  settings : Settings := {}
  blocks : Layers Block := Layers.empty
  procedures : Layers Procedure := Layers.empty
  plugins : Dict Plugin := []
  hooks : List Hooks := []
  artifact : Option ArtifactHook := none
deriving Inhabited

/-- An environment under change, with the warnings so far. -/
structure Setup where
  environment : Environment
  warnings : List String := []
deriving Inhabited

/-- A change of an environment. -/
abbrev Install := Action Setup Unit

namespace Environment

/-- A scope of an environment. -/
def scope (e : Environment) : Environment :=
  { e with blocks := e.blocks.child, procedures := e.procedures.child }

/-- Changes the environment. -/
def change (f : Environment → Environment) : Install :=
  Action.modify fun s => { s with environment := f s.environment }

/-- Reports a problem: a strict environment fails, any other one warns. -/
def complain (message : String) : Install := do
  if (← Action.get).environment.settings.strict then
    Action.fail (.raised (.of .plugin message))
  else Action.modify fun s => { s with warnings := s.warnings ++ [message] }

/-- Puts a block into the own layer, whatever was there. -/
def putBlock (b : Block) : Install :=
  change fun e => { e with blocks := e.blocks.define b.type b }

/-- Registers a block; a location tells where it was loaded from. -/
def addBlock (b : Block) (location : Option String := none) : Install := do
  if (← Action.get).environment.blocks.has b.type then
    complain ("Block " ++ Quoted.ofText b.type ++ " from " ++
      Quoted.ofText (location.getD b.origin) ++ " is shadowing an existing")
  putBlock b

/-- Registers the blocks and hooks of a plugin. -/
def addPlugin (p : Plugin) (location : Option String := none) : Install := do
  if (← Action.get).environment.plugins.has p.name then
    complain ("Plugin " ++ Quoted.ofText p.name ++ " is already loaded")
  Action.each (addBlock · location) p.blocks
  change fun e => { e with plugins := e.plugins.set p.name p, hooks := e.hooks ++ [p.hooks] }

/-- Loads an entry point and registers the plugin it gives. -/
def load (entry : EntryPoint) : Install :=
  match entry.loaded with
  | .invalid => complain ("Failed to validate entrypoint " ++ Quoted.ofText entry.name)
  | .failed => complain ("Failed to load entrypoint " ++ Quoted.ofText entry.name)
  | .other =>
    complain ("Loaded from entrypoint " ++ Quoted.ofText entry.name ++ " object is not a plugin")
  | .plugin p => addPlugin p (some entry.location)

/-- Loads the entry points of the group that the settings name. -/
def loadPlugins (entries : List EntryPoint) : Install := do
  let group := (← Action.get).environment.settings.pluginGroup
  Action.each load (entries.filter (·.group == group))

/-- Forgets the plugins and their hooks, but not their blocks. -/
def clearPlugins : Install := change fun e => { e with plugins := [], hooks := [] }

/-- Defines a procedure. -/
def defineProcedure (name : String) (p : Procedure) : Install :=
  change fun e => { e with procedures := e.procedures.define name p }

/-- Removes all procedures and what is below them. -/
def clearProcedures : Install := change fun e => { e with procedures := Layers.empty }

/-- The block of a type. -/
def require (e : Environment) (type : String) : Except Failure Block :=
  match e.blocks.lookup type with
  | some b => .ok b
  | none => .error (.raised (.unknownBlock type))

/-- The block of a type given as a value. -/
def requireValue (e : Environment) (type : Value) : Except Failure Block := do
  match ← (e.blocks.lookupValue type).mapError .ofFault with
  | some b => return b
  | none => throw (.raised (← (BlockError.unknownBlockOf type).mapError .ofFault))

/-- The visible types in order. -/
def types (e : Environment) : List String := e.blocks.visible.keys

/-- The visible types of a category. -/
def typesOf (e : Environment) (category : String) : List String :=
  Dict.keys (e.blocks.visible.filter (·.2.category == category))

/-- The categories of the visible blocks, sorted. -/
def categories (e : Environment) : List String :=
  (e.blocks.visible.map (·.2.category)).eraseDups.mergeSort fun a b => decide (a ≤ b)

/-- A context for a run in this environment. -/
def context (e : Environment) (bindings : Dict Value) (soft : Option Bool)
    (journal : Journal) : Context :=
  { bindings
    soft := soft.getD e.settings.soft
    shared := { procedures := e.procedures, journal } }

/-- A new environment with given blocks and the plugins of entry points, if they are to be
loaded. -/
def create (settings : Settings) (blocks : List Block) (artifact : Option ArtifactHook)
    (loadPlugins : Option Bool) (entries : List EntryPoint) : Outcome Unit × Setup :=
  let install : Install := do
    Action.each putBlock blocks
    if loadPlugins.getD settings.loadPlugins then Environment.loadPlugins entries
  install { environment := { settings, artifact } }

/-- The journal that a new environment starts. -/
def journal (e : Environment) : Journal :=
  let j : Journal := { level := e.settings.level }
  j.log .debug ("Environment ready with " ++ Nat.repr e.blocks.visible.length ++
    " block(s) and " ++ Nat.repr e.plugins.length ++ " plugin(s)")

@[simp] theorem scope_lookup (e : Environment) (type : String) :
    e.scope.blocks.lookup type = e.blocks.lookup type := by simp [scope]

end Environment

/-- Environments that were opened as scopes of each other. They share their settings. -/
structure Workspace where
  settings : Settings
  artifact : Option ArtifactHook
  blocks : Forest Block
  procedures : Forest Procedure
  plugins : List (Dict Plugin × List Hooks)
  warnings : List String
deriving Inhabited

namespace Workspace

/-- A workspace of one environment. -/
def ofSetup (s : Setup) : Workspace where
  settings := s.environment.settings
  artifact := s.environment.artifact
  blocks := Forest.root.put 0 s.environment.blocks
  procedures := Forest.root.put 0 s.environment.procedures
  plugins := [(s.environment.plugins, s.environment.hooks)]
  warnings := s.warnings

/-- One of the environments. -/
def view (w : Workspace) (i : Nat) : Environment :=
  let (plugins, hooks) := (w.plugins[i]?).getD ([], [])
  { settings := w.settings
    artifact := w.artifact
    blocks := w.blocks.layers i
    procedures := w.procedures.layers i
    plugins, hooks }

/-- Opens a scope of an environment, as the last one. -/
def openScope (w : Workspace) (i : Nat) : Workspace :=
  { w with
    blocks := (w.blocks.openOn i).2
    procedures := (w.procedures.openOn i).2
    plugins := w.plugins ++ [(w.plugins[i]?).getD ([], [])] }

/-- Carries out a change of one of the environments. -/
def run (w : Workspace) (i : Nat) (install : Install) : Outcome Unit × Workspace :=
  let (outcome, s) := install { environment := w.view i, warnings := w.warnings }
  let e := s.environment
  (outcome,
    { w with
      blocks := w.blocks.put i e.blocks
      procedures := w.procedures.put i e.procedures
      plugins := w.plugins.set i (e.plugins, e.hooks)
      warnings := s.warnings })

/-- What brings blocks into environments: a scope of one is opened, a block or a plugin is
registered in one, or plugins are loaded into one. -/
inductive Operation where
  | scope (i : Nat)
  | register (i : Nat) (b : Block)
  | install (i : Nat) (p : Plugin)
  | load (i : Nat) (entries : List EntryPoint)

/-- Carries out an operation. -/
def operate (w : Workspace) : Operation → Outcome Unit × Workspace
  | .scope i => (.done (), w.openScope i)
  | .register i b => w.run i (Environment.addBlock b)
  | .install i p => w.run i (Environment.addPlugin p)
  | .load i entries => w.run i (Environment.loadPlugins entries)

end Workspace

end BlockSuite
