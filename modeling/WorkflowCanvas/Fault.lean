import WorkflowCanvas.Json.Datum
import WorkflowCanvas.Json.Reader
import WorkflowCanvas.Json.Shown
import WorkflowCanvas.Node.Kind
import WorkflowCanvas.Storage.Volume

/-! Faults: what an operation on graphs and workflows refuses to do, and why. A fault has a
name, a code, a message and details, which its reporter may add to; its own details win. -/
namespace WorkflowCanvas
set_option autoImplicit false

/-! ## Parts that are no graph -/

/-- Why nodes and edges do not make a graph. -/
inductive Flaw where
  | repeatedNode (node : String)
  | repeatedEdge (edge : String)
  | danglingEdge (edge node : String)
  | partNotList (part kind : String)
  | badEntry (problems : List Problem)
  | told (message : String)
deriving DecidableEq

namespace Flaw

/-- The wording of a flaw; of a bad entry only the first problem is told. -/
def message : Flaw → String
  | repeatedNode node => s!"Node '{node}' already exists in graph"
  | repeatedEdge edge => s!"Edge '{edge}' already exists in graph"
  | danglingEdge edge node => s!"Edge '{edge}' references missing node '{node}'"
  | partNotList part kind => s!"Malformed graph snapshot: '{part}' must be a list, got {kind}"
  | badEntry problems =>
    let first := (problems.head?.map Problem.message).getD ""
    s!"Malformed graph snapshot: {first}"
  | told message => message

def details : Flaw → Fields
  | repeatedNode node => [("node_id", .str node)]
  | repeatedEdge edge => [("edge_id", .str edge)]
  | danglingEdge edge node => [("edge_id", .str edge), ("node_id", .str node)]
  | partNotList part _ => [("field", .str part)]
  | badEntry problems => [("errors", .ofTexts (problems.map Problem.message))]
  | told _ => []

end Flaw

/-! ## Faults -/

/-- Why an operation is refused. -/
inductive Fault where
  | general (message : String) (code : Option String)
  | integrity (flaw : Flaw)
  | nodeTaken (node : String)
  | nodeUnknown (node : String)
  | edgeUnknown (edge : String)
  | endpointUnknown (node : String) (edge : Option String)
  | handleTaken (node : String) (handle : Option String) (direction : Direction) (edge : String)
  | badData (node message : String) (errors : List String)
  | uncompilable (message : String) (violations : List String) (code : String)
  | structural (violations : List String)
  | unassigned (violations agents : List String)
  | badDocument (violations : List String)
  | storage (message : String) (path : Option String)
  | workflowUnknown (name : String) (path : Option String)
deriving DecidableEq

namespace Fault

/-- The code of a session that has no metadata to compile with. -/
def missingMetadata : Fault := general "No workflow metadata provided" (some "MISSING_METADATA")

/-- The data of a node is refused for these problems. -/
def ofProblems (node : String) (problems : List Problem) : Fault :=
  let first := (problems.head?.map Problem.message).getD ""
  badData node s!"Invalid data for node '{node}': {first}" (problems.map Problem.message)

/-- The name of a fault, and the names of the wider classes that it belongs to. -/
def names : Fault → List String
  | general .. => ["FlowGraphError"]
  | integrity .. => ["GraphIntegrityError", "FlowGraphError"]
  | nodeTaken .. => ["DuplicateNodeError", "FlowGraphError"]
  | nodeUnknown .. => ["NodeNotFoundError", "FlowGraphError"]
  | edgeUnknown .. => ["EdgeNotFoundError", "FlowGraphError"]
  | endpointUnknown .. => ["InvalidEndpointError", "FlowGraphError"]
  | handleTaken .. => ["HandleConflictError", "FlowGraphError"]
  | badData .. => ["NodeValidationError", "FlowGraphError"]
  | uncompilable .. => ["GraphValidationError", "FlowGraphError"]
  | structural .. => ["StructuralInvalidError", "GraphValidationError", "FlowGraphError"]
  | unassigned .. => ["UnassignedAgentError", "GraphValidationError", "FlowGraphError"]
  | badDocument .. => ["ReconstructionError", "FlowGraphError"]
  | storage .. => ["WorkflowStorageError", "FlowGraphError"]
  | workflowUnknown .. => ["WorkflowNotFoundError", "WorkflowStorageError", "FlowGraphError"]

def name (f : Fault) : String := f.names.headD ""

def code : Fault → Option String
  | general _ code => code
  | integrity .. => some "GRAPH_INTEGRITY_ERROR"
  | nodeTaken .. => some "DUPLICATE_NODE"
  | nodeUnknown .. => some "NODE_NOT_FOUND"
  | edgeUnknown .. => some "EDGE_NOT_FOUND"
  | endpointUnknown .. => some "INVALID_ENDPOINT"
  | handleTaken .. => some "HANDLE_CONFLICT"
  | badData .. => some "NODE_VALIDATION_ERROR"
  | uncompilable _ _ code => some code
  | structural .. => some "STRUCTURAL_INVALID"
  | unassigned .. => some "UNASSIGNED_AGENT"
  | badDocument .. => some "RECONSTRUCTION_ERROR"
  | storage .. => some "WORKFLOW_STORAGE_ERROR"
  | workflowUnknown .. => some "WORKFLOW_NOT_FOUND"

/-- The message of violations that keep a graph from being compiled. -/
def invalidWorkflow (violations : List String) : String :=
  let listed := ", ".intercalate violations
  s!"Invalid workflow: {listed}"

def message : Fault → String
  | general message _ => message
  | integrity flaw => flaw.message
  | nodeTaken node => s!"Node '{node}' already exists in graph"
  | nodeUnknown node => s!"Node '{node}' not found in graph"
  | edgeUnknown edge => s!"Edge '{edge}' not found in graph"
  | endpointUnknown node _ => s!"Invalid endpoint: node '{node}' does not exist"
  | handleTaken node handle direction edge =>
    let shown := Text.quoted? handle
    s!"Handle {shown} on node '{node}' is already used as {direction.word} by edge '{edge}'"
  | badData _ message _ => message
  | uncompilable message _ _ => message
  | structural violations => invalidWorkflow violations
  | unassigned violations _ => invalidWorkflow violations
  | badDocument violations =>
    let listed := "; ".intercalate violations
    s!"Invalid workflow document: {listed}"
  | storage message _ => message
  | workflowUnknown name _ => s!"Workflow not found: {name}"

/-- A detail that is left out when its text is absent or empty. -/
def detail? (name : String) (text : Option String) : Fields :=
  match text with
  | none => []
  | some s => if s.isEmpty then [] else [(name, .str s)]

def ownDetails : Fault → Fields
  | general .. | nodeTaken .. | nodeUnknown .. | edgeUnknown .. => []
  | integrity flaw => flaw.details
  | endpointUnknown node edge => ("node_id", .str node) :: detail? "edge_id" edge
  | handleTaken node handle direction edge =>
    [("node_id", .str node), ("handle", .ofText? handle), ("direction", .str direction.word),
      ("edge_id", .str edge)]
  | badData node _ errors =>
    (if errors.isEmpty then [] else [("errors", .ofTexts errors)]) ++ [("node_id", .str node)]
  | uncompilable _ violations _ | structural violations | badDocument violations =>
    [("violations", .ofTexts violations)]
  | unassigned violations agents =>
    [("agent_node_ids", .ofTexts agents), ("violations", .ofTexts violations)]
  | storage _ path | workflowUnknown _ path => detail? "path" path

/-- The details of a fault on top of those that its reporter adds. -/
def details (f : Fault) (added : Fields) : Fields := added.setAll f.ownDetails

/-- The message behind the code in brackets; without a code, or with an empty one, the message
alone. -/
def text (f : Fault) : String :=
  match f.code with
  | none => f.message
  | some code => if code.isEmpty then f.message else s!"[{code}] {f.message}"

def report (f : Fault) (added : Fields) : Json :=
  .obj [("error_type", .str f.name), ("message", .str f.message),
    ("error_code", .ofText? f.code), ("details", .obj (f.details added))]

end Fault

/-! ## Failures -/

/-- Every way in which a request can fail: a fault, a value that is no record of its model, a
lookup by a list or object, a word that names nothing, text that cannot be read or written, or a
path that cannot be followed. -/
inductive Failure where
  | fault (f : Fault)
  | invalid (problems : List Problem)
  | unkeyable (kind : String)
  | unlistable (kind : String)
  | unknownWord (shown family : String)
  | unreadable (why : Json.ReadFault)
  | unwritable (why : Datum.WriteFault)
  | unreachable (why : PathFault)
deriving DecidableEq

namespace Failure

def message : Failure → String
  | fault f => f.text
  | invalid problems => "; ".intercalate (problems.map Problem.line)
  | unkeyable kind => s!"unhashable type: '{kind}'"
  | unlistable kind => s!"'{kind}' object is not iterable"
  | unknownWord shown family => s!"{shown} is not a valid {family}"
  | unreadable why => why.message
  | unwritable why => why.message
  | unreachable why => why.message

/-- A value that names no kind of node. -/
def unknownKind (v : Json) : Failure := unknownWord v.shown "NodeKind"

def unknownDirection (v : Json) : Failure := unknownWord v.shown "HandleDirection"

end Failure

/-- The outcome of decoding as the outcome of a request. -/
def Checked.orFail {α : Type} : Checked α → Except Failure α
  | accepted a => .ok a
  | refused problems => .error (.invalid problems)
  | unkeyable kind => .error (.unkeyable kind)

theorem Checked.orFail_eq_ok_iff {α : Type} {x : Checked α} {a : α} :
    x.orFail = .ok a ↔ x = .accepted a := by
  cases x <;> simp [Checked.orFail]

end WorkflowCanvas
