import WorkflowCanvas.Edge
import WorkflowCanvas.Node.Reading
import WorkflowCanvas.Workflow.Metadata

/-! Workflows as they are run and saved: metadata with steps in their order, and documents that
may carry the nodes and edges which the steps were compiled from. -/
namespace WorkflowCanvas
set_option autoImplicit false

/-! ## Steps -/

/-- A step of a workflow. -/
structure Step where
  title : Title
  mode : StepMode
  purpose : Option Purpose
  agents : List String
deriving DecidableEq

namespace Step

def entries (s : Step) : List Entry :=
  [.plain "title" (.str s.title.text), .plain "mode" (.str s.mode.word),
    .plain "purpose" (.ofText? (s.purpose.map Bounded.text)),
    .plain "agents" (.ofTexts s.agents)]

def toJson (form : Form) (s : Step) : Json := form.object s.entries

def ofFields (fields : Fields) : Checked Step :=
  ((((Checked.required fields "title" "title" (Title.ofJson .blankStepTitle)).map Step.mk).ap
    (Checked.optional fields "mode" "mode" .sequential StepMode.ofJson)).ap
    (Checked.optional fields "purpose" "purpose" none
      (Checked.nullable (Checked.bounded 500)))).ap
    (Checked.optional fields "agents" "agents" [] (Checked.list Checked.text))

def ofJson : Json → Checked Step := Checked.record "WorkflowStep" ofFields

def ofGroup (g : StepGroup) : Step := ⟨g.title, g.mode, g.purpose, g.agents⟩

end Step

/-! ## Definitions -/

/-- A workflow that can be run. -/
structure Definition where
  metadata : Metadata
  steps : List Step
deriving DecidableEq

namespace Definition

def entries (form : Form) (d : Definition) : List Entry :=
  d.metadata.entries ++
    [⟨"workflow_steps", "workflowSteps", .arr (d.steps.map (Step.toJson form))⟩]

def toJson (form : Form) (d : Definition) : Json := form.object (d.entries form)

/-- The fields under which a definition is saved. -/
def payload (d : Definition) : Fields := Form.durable.fields (d.entries .durable)

def ofFields (fields : Fields) : Checked Definition :=
  ((Metadata.ofFields fields).map Definition.mk).ap
    (Checked.required fields "workflowSteps" "workflow_steps" (Checked.list Step.ofJson))

def ofJson : Json → Checked Definition := Checked.record "WorkflowDefinition" ofFields

end Definition

/-! ## Documents -/

/-- A saved workflow: a definition, perhaps with nodes and edges. -/
structure Document where
  definition : Definition
  nodes : Option (List Node)
  edges : Option (List Edge)

namespace Document

/-- A list in a form, or null. -/
def listJson {α : Type} (toJson : α → Json) : Option (List α) → Json
  | none => .null
  | some items => .arr (items.map toJson)

def innerFields (d : Document) : Fields :=
  Form.inner.fields (d.definition.entries .inner) ++
    [("nodes", listJson (Node.toJson .inner) d.nodes),
      ("edges", listJson (fun e => Form.inner.object e.entries) d.edges)]

def hasSnapshot (d : Document) : Bool := d.nodes.isSome && d.edges.isSome

/-- The fields under which a document is saved; nodes and edges go together or not at all. -/
def savedFields (d : Document) : Fields :=
  match d.nodes, d.edges with
  | some nodes, some edges =>
    d.definition.payload ++
      [("nodes", .arr (nodes.map (Node.toJson .durable))), ("edges", .arr (edges.map Edge.toJson))]
  | _, _ => d.definition.payload

def ofFields (fields : Fields) : Checked Document :=
  (((Definition.ofFields fields).map Document.mk).ap
    (Checked.optional fields "nodes" "nodes" none
      (Checked.nullable (Checked.list Node.ofJson)))).ap
    (Checked.optional fields "edges" "edges" none
      (Checked.nullable (Checked.list Edge.ofJson)))

def ofJson : Json → Checked Document := Checked.record "WorkflowDocument" ofFields

end Document
end WorkflowCanvas
