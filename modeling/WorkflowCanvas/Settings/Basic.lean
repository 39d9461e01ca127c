import WorkflowCanvas.Decode.Form
import WorkflowCanvas.Decode.Scalar

/-! Settings of the canvas: whether an edge may lead back to its own node, where rebuilt nodes
are placed, where workflows are saved, and how much is written to the journal. -/
namespace WorkflowCanvas
set_option autoImplicit false

/-- What connecting gestures may do. -/
structure ConnectionSettings where
  allowSelfLoops : Bool := false
deriving DecidableEq

/-- Where the nodes of a rebuilt graph are placed: in one column, at a distance above zero. -/
structure Layout where
  x : Float := 100.0
  startY : Float := 100.0
  firstStepY : Float := 250.0
  spacing : { d : Float // (0.0 < d : Bool) = true } := ⟨200.0, by decide⟩

/-- The directory of saved workflows. -/
structure StorageSettings where
  directory : String := "workflows"
deriving DecidableEq

/-- The least severe level that is written to the journal. -/
structure LoggingSettings where
  level : String := "INFO"
deriving DecidableEq

/-- All settings. -/
structure Settings where
  connection : ConnectionSettings := {}
  layout : Layout := {}
  storage : StorageSettings := {}
  logging : LoggingSettings := {}

/-! ## Reading and fields -/

namespace ConnectionSettings

def entries (s : ConnectionSettings) : List Entry :=
  [.plain "allow_self_loops" (.bool s.allowSelfLoops)]

def ofFields (fields : Fields) : Checked ConnectionSettings :=
  (Checked.optional fields "allow_self_loops" "allow_self_loops" false Checked.flag).map mk

def ofJson : Json → Checked ConnectionSettings := Checked.record "ConnectionSettings" ofFields

end ConnectionSettings

namespace Layout

def entries (s : Layout) : List Entry :=
  [.plain "x" (.float s.x), .plain "start_y" (.float s.startY),
    .plain "first_step_y" (.float s.firstStepY), .plain "spacing_y" (.float s.spacing)]

def ofFields (fields : Fields) : Checked Layout :=
  let usual : Layout := {}
  let offset (name : String) (absent : Float) :=
    Checked.optional fields name name absent Checked.number
  ((((offset "x" usual.x).map mk).ap (offset "start_y" usual.startY)).ap
    (offset "first_step_y" usual.firstStepY)).ap
    (Checked.optional fields "spacing_y" "spacing_y" usual.spacing Checked.positive)

def ofJson : Json → Checked Layout := Checked.record "LayoutSettings" ofFields

end Layout

namespace StorageSettings

def entries (s : StorageSettings) : List Entry := [.plain "workflows_path" (.str s.directory)]

def ofFields (fields : Fields) : Checked StorageSettings :=
  (Checked.optional fields "workflows_path" "workflows_path" "workflows" Checked.text).map mk

def ofJson : Json → Checked StorageSettings := Checked.record "StorageSettings" ofFields

end StorageSettings

namespace LoggingSettings

def entries (s : LoggingSettings) : List Entry := [.plain "level" (.str s.level)]

def ofFields (fields : Fields) : Checked LoggingSettings :=
  (Checked.optional fields "level" "level" "INFO" Checked.text).map mk

def ofJson : Json → Checked LoggingSettings := Checked.record "LoggingSettings" ofFields

end LoggingSettings

namespace Settings

def entries (s : Settings) : List Entry :=
  [.plain "connection" (Form.inner.object s.connection.entries),
    .plain "layout" (Form.inner.object s.layout.entries),
    .plain "storage" (Form.inner.object s.storage.entries),
    .plain "logging" (Form.inner.object s.logging.entries)]

def ofFields (fields : Fields) : Checked Settings :=
  ((((Checked.optional fields "connection" "connection" {} ConnectionSettings.ofJson).map mk).ap
    (Checked.optional fields "layout" "layout" {} Layout.ofJson)).ap
    (Checked.optional fields "storage" "storage" {} StorageSettings.ofJson)).ap
    (Checked.optional fields "logging" "logging" {} LoggingSettings.ofJson)

def ofJson : Json → Checked Settings := Checked.record "FlowGraphSettings" ofFields

end Settings
end WorkflowCanvas
