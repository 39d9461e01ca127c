import WorkflowCanvas.Journal.Canvas
import WorkflowCanvas.Session.Basic

/-! What reviewing, compiling, loading and the requests of a session leave in the journal. -/
namespace WorkflowCanvas
set_option autoImplicit false

namespace Graph

/-- A review that fails leaves a warning with everything that was found. -/
def reviewRecords (g : Graph) : List Record :=
  if g.verdict.isValid then []
  else
    let listed := Text.quotedList g.verdict.errors
    [.warning s!"Graph validation failed: {listed}"]

def compileRecords (g : Graph) (m : Metadata) : List Record :=
  g.reviewRecords ++
    match g.compile m with
    | .ok d => [.info s!"Compiled workflow '{m.name.text}' into {d.steps.length} steps"]
    | .error _ => []

end Graph

def Archive.Loaded.records (l : Archive.Loaded) : List Record :=
  let name := l.metadata.name.text
  let count := l.definition.steps.length
  if l.reconstructed then
    [.debug s!"Reconstructed graph with {count} steps",
      .info s!"Reconstructed workflow '{name}' from {count} steps"]
  else
    [.info (s!"Loaded workflow '{name}' from snapshot " ++
      s!"({l.graph.nodes.length} nodes, {l.graph.edges.length} edges)")]

namespace Session

def loadRecords (s : Session) (document : Json) : List Record :=
  match Archive.load s.settings.layout document with
  | .ok l => l.records
  | .error _ => []

def compileRecords (s : Session) (source : Option MetadataSource) : List Record :=
  match s.metadataFor source with
  | .ok m => s.graph.compileRecords m
  | .error _ => []

def reconnectRecords (s : Session) (edge : Option String) (d : Drop) : List Record :=
  let shown := Text.plain? edge
  (s.graph.resolveReconnect s.settings.connection edge d).records s.graph ++
    if s.gesture.isReconnecting then []
    else [.debug s!"Reconnect signal for '{shown}' outside a reconnect gesture"]

def agentRecords (s : Session) (agent : String) (x y : Json) : List Record :=
  match ((s.agentDraft agent x y).build s.supply).1 with
  | .ok n => (Change.addNode n).records s.graph
  | .error _ => []

/-- The records that a request leaves, apart from those of the storage. -/
def records {σ : Type} (storage : Storage σ) (s : Session) (store : σ) : Request → List Record
  | .connect d => (s.resolution d).records s.graph
  | .reconnect edge d => s.reconnectRecords edge d
  | .addNode n => (Change.addNode n).records s.graph
  | .addAgent agent x y => s.agentRecords agent x y
  | .removeNode id => (Change.removeNode id).records s.graph
  | .updateData id changes => (Change.updateData id changes).records s.graph
  | .moveNode id x y => (Change.moveNode id x y).records s.graph
  | .removeEdge id => (Change.removeEdge id).records s.graph
  | .validate => s.graph.reviewRecords
  | .compile source | .exporting source _ | .save source => s.compileRecords source
  | .load document => s.loadRecords document
  | .openNamed name =>
    match storage.load store name with
    | .ok fields => s.loadRecords (.obj fields)
    | .error _ => []
  | .reconnectStart _ | .reconnectEnd | .snapshot => []

end Session
end WorkflowCanvas
