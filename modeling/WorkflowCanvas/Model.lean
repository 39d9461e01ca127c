import WorkflowCanvas.Gesture.Basic
import WorkflowCanvas.Node.AgentInfo
import WorkflowCanvas.Settings.Environment
import WorkflowCanvas.Workflow.Verdict
import WorkflowCanvas.Workflow.Definition

/-! Models: every record of the canvas under the name of its model, so that a record of any model
can be read, shown and written. -/
namespace WorkflowCanvas
set_option autoImplicit false

/-- A record of some model. -/
inductive Model where
  | position (p : Position)
  | terminal (d : TerminalData)
  | agentData (d : AgentData)
  | stepGroup (d : StepGroup)
  | node (n : Node)
  | edge (e : Edge)
  | metadata (m : Metadata)
  | step (s : Step)
  | definition (d : Definition)
  | document (d : Document)
  | verdict (v : Verdict)
  | agentInfo (a : AgentInfo)
  | gesture (g : Gesture)
  | connection (s : ConnectionSettings)
  | layout (s : Layout)
  | storage (s : StorageSettings)
  | logging (s : LoggingSettings)
  | settings (s : Settings)

namespace Model

/-- How the records of each model are read. -/
def readers : List (String × (Json → Checked Model)) :=
  [("Position", fun v => (Position.ofJson v).map position),
    ("TerminalNodeData", fun v => (TerminalData.ofJson v).map terminal),
    ("AgentNodeData", fun v => (AgentData.ofJson v).map agentData),
    ("StepGroupNodeData", fun v => (StepGroup.ofJson v).map stepGroup),
    ("NodeSpec", fun v => (Node.ofJson v).map node),
    ("EdgeSpec", fun v => (Edge.ofJson v).map edge),
    ("WorkflowMetadata", fun v => (Metadata.ofJson v).map metadata),
    ("WorkflowStep", fun v => (Step.ofJson v).map step),
    ("WorkflowDefinition", fun v => (Definition.ofJson v).map definition),
    ("WorkflowDocument", fun v => (Document.ofJson v).map document),
    ("ValidationResult", fun v => (Verdict.ofJson v).map verdict),
    ("AgentInfo", fun v => (AgentInfo.ofJson v).map agentInfo),
    ("GestureState", fun v => (Gesture.ofJson v).map gesture),
    ("ConnectionSettings", fun v => (ConnectionSettings.ofJson v).map connection),
    ("LayoutSettings", fun v => (Layout.ofJson v).map layout),
    ("StorageSettings", fun v => (StorageSettings.ofJson v).map storage),
    ("LoggingSettings", fun v => (LoggingSettings.ofJson v).map logging),
    ("FlowGraphSettings", fun v => (Settings.ofJson v).map settings)]

/-- Reads a record of a named model; other names are of no model. -/
def ofJson? (name : String) (v : Json) : Option (Checked Model) :=
  (readers.lookup name).map fun read => read v

/-- How the settings of each model are read from an environment. -/
def ofEnvironment? (name : String) (env : Environment) : Option (Checked Model) :=
  match name with
  | "ConnectionSettings" => some (.accepted (connection (.ofEnvironment env)))
  | "LayoutSettings" => some ((Layout.ofEnvironment env).map layout)
  | "StorageSettings" => some (.accepted (storage (.ofEnvironment env)))
  | "LoggingSettings" => some (.accepted (logging (.ofEnvironment env)))
  | "FlowGraphSettings" => some ((Settings.ofEnvironment env).map settings)
  | _ => none

/-- The fields of a record; the parts of a record that has parts are spelled in a form. A document
has no such fields: its nodes and edges may be missing. -/
def entries (form : Form) : Model → List Entry
  | position p => p.entries
  | terminal d => d.entries
  | agentData d => d.entries
  | stepGroup d => d.entries
  | node n => n.entries form
  | edge e => e.entries
  | metadata m => m.entries
  | step s => s.entries
  | definition d => d.entries form
  | document d => d.definition.entries form
  | verdict v => v.entries
  | agentInfo a => a.entries
  | gesture g => g.entries
  | connection s => s.entries
  | layout s => s.entries
  | storage s => s.entries
  | logging s => s.entries
  | settings s => s.entries

def innerFields : Model → Fields
  | document d => d.innerFields
  | m => Form.inner.fields (m.entries .inner)

/-- The fields of a record that has a saved form of its own. -/
def savedFields? : Model → Option Fields
  | node n => some (Form.durable.fields (n.entries .durable))
  | edge e => some e.savedFields
  | metadata m => some (Form.durable.fields m.entries)
  | definition d => some d.payload
  | document d => some d.savedFields
  | _ => none

def toJson (m : Model) : Json :=
  .obj (m.savedFields?.getD (Form.keyed.fields (m.entries .keyed)))

end Model
end WorkflowCanvas
