import WorkflowCanvas.Graph.Snapshot
import WorkflowCanvas.Workflow.Compile
import WorkflowCanvas.Workflow.Rebuild

/-! Documents and graphs. A document gives its own graph when it carries both nodes and edges;
else the graph is rebuilt from the steps. A graph is saved as its definition, with its nodes
and edges beside it when they are wanted. -/
namespace WorkflowCanvas.Archive
set_option autoImplicit false

/-- A graph from a document, with the metadata of its workflow. -/
structure Loaded where
  definition : Definition
  graph : Graph
  reconstructed : Bool

namespace Loaded

def metadata (l : Loaded) : Metadata := l.definition.metadata

end Loaded

/-- A definition from fields; each problem is told with its place. -/
def definitionOf (fields : Fields) : Except Failure Definition :=
  match Definition.ofFields fields with
  | .accepted d => .ok d
  | .refused problems => .error (.fault (.badDocument (problems.map Problem.line)))
  | .unkeyable kind => .error (.unkeyable kind)

/-- A value that is no object is no document. -/
def fieldsOf : Json → Except Failure Fields
  | .obj fields => .ok fields
  | v => .error (.fault (.badDocument [s!"expected a mapping, got {v.kindName}"]))

def parse (v : Json) : Except Failure Definition := fieldsOf v >>= definitionOf

/-- The graph of a document, rebuilt from its steps. -/
def reconstruct (layout : Layout) (v : Json) : Except Failure Graph := do
  let definition ← parse v
  Graph.orFault (Rebuild.graph layout definition.steps)

/-! ## Loading -/

/-- What a document lacks before anything else is looked at. -/
def lacks (fields : Fields) : List String :=
  (if ((fields.get? "workflowName").getD .null).isHollow then ["missing workflowName"] else []) ++
    match fields.get? "workflowSteps" with
    | none | some .null => ["missing or invalid workflowSteps"]
    | some _ => []

def carries (fields : Fields) (part : String) : Bool :=
  match fields.get? part with
  | none | some .null => false
  | some _ => true

/-- A graph that is none is told as a fault of the document. -/
def asDocumentFault : Failure → Failure
  | .fault (.integrity flaw) => .fault (.badDocument [flaw.message])
  | failure => failure

/-- The names of the parts that make a graph. -/
def isGraphPart (name : String) : Bool := name == "nodes" || name == "edges"

def loadFields (layout : Layout) (fields : Fields) : Except Failure Loaded :=
  match lacks fields with
  | [] => do
    let definition ← definitionOf (fields.keep fun name => !isGraphPart name)
    if carries fields "nodes" && carries fields "edges" then
      let graph ← (Graph.ofSnapshot fields).mapError asDocumentFault
      return ⟨definition, graph, false⟩
    else
      let graph ← Graph.orFault (Rebuild.graph layout definition.steps)
      return ⟨definition, graph, true⟩
  | missing => .error (.fault (.badDocument missing))

def load (layout : Layout) (v : Json) : Except Failure Loaded := fieldsOf v >>= loadFields layout

/-- Loads a workflow that has been read already; what it may carry beside its definition is not
looked at. -/
def loadDefinition (layout : Layout) (d : Definition) : Except Failure Loaded :=
  loadFields layout d.payload

/-! ## Saving -/

/-- The document of a graph, with or without its nodes and edges. -/
def dump (g : Graph) (m : Metadata) (withSnapshot : Bool) : Except Fault Fields :=
  (g.compile m).map fun definition =>
    if withSnapshot then definition.payload.setAll g.snapshot else definition.payload

end WorkflowCanvas.Archive
