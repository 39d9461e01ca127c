import WorkflowCanvas.Settings.Basic
import WorkflowCanvas.Storage.Path
import WorkflowCanvas.Text.Capitals

/-! Settings from the environment. A variable that is not set leaves its setting as it usually
is; the directory of workflows is looked for in three places. The settings in force are read
once and kept until they are read anew. -/
namespace WorkflowCanvas
set_option autoImplicit false

/-- The variables that are set, with the directory that relative paths start from. -/
structure Environment where
  bindings : List (String × String) := []
  directory : Path := Path.ofText "/"

namespace Environment

def get? (env : Environment) (name : String) : Option String := env.bindings.lookup name

/-- The value of a variable that is set and not empty. -/
def filled? (env : Environment) (name : String) : Option String :=
  (env.get? name).filter fun s => !s.isEmpty

/-- The environment after a variable was set, or unset. -/
def set (env : Environment) (name : String) (value : Option String) : Environment :=
  let others := env.bindings.filter (·.1 != name)
  { env with bindings := others ++ (value.map fun s => (name, s)).toList }

end Environment

/-! ## Reading variables -/

/-- The words that switch something on, in any case and between blanks. -/
def switchWords : List String := ["1", "true", "yes", "on"]

def isSwitchedOn (s : String) : Bool :=
  switchWords.contains (String.ofList (Text.lowerAscii (Text.trim Text.isBlankChar s.toList)))

def ConnectionSettings.ofEnvironment (env : Environment) : ConnectionSettings where
  allowSelfLoops := ((env.get? "FLOWGRAPH_ALLOW_SELF_LOOPS").map isSwitchedOn).getD false

/-- The variables of a layout, by the fields that they set. -/
def Layout.variableNames : List (String × String) :=
  [("x", "FLOWGRAPH_LAYOUT_X"), ("start_y", "FLOWGRAPH_LAYOUT_START_Y"),
    ("first_step_y", "FLOWGRAPH_LAYOUT_FIRST_STEP_Y"), ("spacing_y", "FLOWGRAPH_LAYOUT_SPACING_Y")]

def Layout.ofEnvironment (env : Environment) : Checked Layout :=
  Layout.ofFields (Layout.variableNames.filterMap fun (field, name) =>
    (env.get? name).map fun s => (field, .str s))

/-- The storage settings of an environment: a directory that is named outright, or else the usual
one below the root that is named, or else below the current directory. -/
def StorageSettings.ofEnvironment (env : Environment) : StorageSettings where
  directory :=
    match env.filled? "WORKFLOWS_PATH" with
    | some directory => directory
    | none =>
      let above := ((env.filled? "CLAUDE_ROOT_PATH").map Path.ofText).getD env.directory
      (above.child "workflows").text

def LoggingSettings.ofEnvironment (env : Environment) : LoggingSettings where
  level := Text.upper ((env.get? "FLOWGRAPH_LOG_LEVEL").getD "INFO")

def Settings.ofEnvironment (env : Environment) : Checked Settings :=
  (Layout.ofEnvironment env).map fun layout =>
    { connection := .ofEnvironment env, layout, storage := .ofEnvironment env,
      logging := .ofEnvironment env }

/-! ## Levels -/

/-- The journal that levels are set for. -/
def journalName : String := "core.flowgraph"

/-- The numbers of the levels that have a name. -/
def levelNumbers : List (String × Nat) :=
  [("CRITICAL", 50), ("FATAL", 50), ("ERROR", 40), ("WARNING", 30), ("WARN", 30), ("INFO", 20),
    ("DEBUG", 10), ("NOTSET", 0)]

/-- The number of a level in any case; a level without a name is that of information. -/
def LoggingSettings.number (s : LoggingSettings) : Nat :=
  (levelNumbers.lookup (Text.upper s.level)).getD 20

/-! ## Settings in force -/

/-- An environment with the settings that were read from it, once they are. -/
structure Configuration where
  environment : Environment := {}
  inForce : Option Settings := none

namespace Configuration

/-- Reads the settings anew; after a refusal the old ones stay in force. -/
def reload (c : Configuration) : Checked Settings × Configuration :=
  match Settings.ofEnvironment c.environment with
  | .accepted s => (.accepted s, { c with inForce := some s })
  | refusal => (refusal, c)

/-- The settings in force; they are read when there are none. -/
def settings (c : Configuration) : Checked Settings × Configuration :=
  match c.inForce with
  | some s => (.accepted s, c)
  | none => c.reload

end Configuration
end WorkflowCanvas
