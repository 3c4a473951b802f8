import BlockSuite.Check.Form
import BlockSuite.Context

/-!
Settings of an environment. Each is taken from what was given for it, else from the environment
variable of its name behind a common beginning, in either case of letters, else from its default.
What belongs to no setting is ignored.
-/

namespace BlockSuite

/-- The settings of an environment. -/
structure Settings where
  strict : Bool := false
  soft : Bool := false
  level : Level := .info
  loadPlugins : Bool := true
  pluginGroup : String := "blocks_plugins"
deriving Repr, Inhabited

namespace Settings

def form : Form Settings :=
  (fun strict soft level loadPlugins group =>
      ⟨strict, soft, (Level.ofName? level).getD .info, loadPlugins, group⟩) <$>
    Form.field ["strict"] Check.truth false <*>
    Form.field ["soft_assertions"] Check.truth false <*>
    Form.field ["log_level"] (Check.choice (Level.every.map Level.name)) Level.info.name <*>
    Form.field ["load_plugins"] Check.truth true <*>
    Form.field ["plugins_group"] Check.text "blocks_plugins"

/-- The names of the settings. -/
def names : List String :=
  ["strict", "soft_assertions", "log_level", "load_plugins", "plugins_group"]

/-- How the environment variables of settings begin. -/
def variableStart : String := "BLOCKS_"

/-- The value of the last environment variable of a name, whatever the case of its letters. -/
def variableOf? (host : Dict String) (name : String) : Option String :=
  let wanted := Text.asciiLower (variableStart ++ name)
  (host.reverse.find? fun e => Text.asciiLower e.1 == wanted).map (·.2)

/-- Reads settings from what is given and from environment variables. -/
def read (host : Dict String) (given : Dict Value) : Checked Settings :=
  let member (name : String) : Option (Value × Value) :=
    match given.get? name with
    | some v => some (.text name, v)
    | none => (variableOf? host name).map fun s => (.text name, .text s)
  (form (names.filterMap member)).result

/-- Settings as a record. -/
def record (s : Settings) : Value :=
  .record [("strict", .bool s.strict), ("soft_assertions", .bool s.soft),
    ("log_level", .text s.level.name), ("load_plugins", .bool s.loadPlugins),
    ("plugins_group", .text s.pluginGroup)]

end Settings

end BlockSuite
