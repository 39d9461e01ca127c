import WorkflowCanvas.Gesture.Resolution
import WorkflowCanvas.Graph.Change
import WorkflowCanvas.Node.Draft
import WorkflowCanvas.Storage.Basic
import WorkflowCanvas.Workflow.Archive

/-! Sessions: one graph that is edited by one hand. A session holds the graph, the gesture in
flight, the metadata of the workflow last compiled or loaded, and a supply of identifiers. A
request that fails leaves all but the supply as it was; only a save that could be exported and
not be written keeps the metadata that it was exported with. -/
namespace WorkflowCanvas
set_option autoImplicit false

/-- An editing session. -/
structure Session where
  settings : Settings
  catalog : Option Catalog := none
  graph : Graph := Graph.empty
  gesture : Gesture := .idle
  metadata : Option Metadata := none
  supply : Supply := {}

/-- Metadata as it is given with a request: a value still to be read, or finished metadata. -/
inductive MetadataSource where
  | value (v : Json)
  | finished (m : Metadata)

/-- What a session is asked to do. -/
inductive Request where
  | connect (d : Drop)
  | reconnectStart (edge : Json)
  | reconnect (edge : Option String) (d : Drop)
  | reconnectEnd
  | addNode (node : Node)
  | addAgent (agent : String) (x y : Json)
  | removeNode (id : String)
  | updateData (id : String) (changes : Fields)
  | moveNode (id : String) (x y : Json)
  | removeEdge (id : String)
  | validate
  | compile (metadata : Option MetadataSource)
  | load (document : Json)
  | exporting (metadata : Option MetadataSource) (withSnapshot : Bool)
  | save (metadata : Option MetadataSource)
  | openNamed (name : String)
  | snapshot

/-- What a session answers. -/
inductive Answer where
  | done
  | node (n : Node)
  | verdict (v : Verdict)
  | workflow (d : Definition)
  | document (fields : Fields)
  | place (path : String)
  | graph (g : Graph)

namespace Session

/-- The outcome of a request and the session after it. -/
abbrev Outcome := Except Failure Answer × Session

/-- The graph of an edit takes the place of the old one; after a failure nothing changes. -/
def edited (s : Session) (result : Except Failure Graph) (answer : Graph → Answer) : Outcome :=
  match result with
  | .ok g => (.ok (answer g), { s with graph := g })
  | .error failure => (.error failure, s)

def showing (id : String) (g : Graph) : Answer :=
  match g.node? id with
  | some n => .node n
  | none => .done

/-! ## Gestures -/

def resolution (s : Session) (d : Drop) : Resolution :=
  s.graph.resolveSignal s.settings.connection (s.supply.next Edge.stem) s.gesture d

/-- A signal to connect. -/
def connect (s : Session) (d : Drop) : Outcome :=
  let r := s.resolution d
  { s with supply := s.supply.spentIf r.takesName }.edited (Graph.orFault (r.apply s.graph))
    fun _ => .done

/-- A signal that the end of an edge is picked up. -/
def reconnectStart (s : Session) (edge : Json) : Outcome :=
  match (s.gesture.start edge).orFail with
  | .ok gesture => (.ok .done, { s with gesture })
  | .error failure => (.error failure, s)

/-- A signal that an edge was moved; during a drag it tells which edge is dragged. -/
def reconnect (s : Session) (edge : Option String) (d : Drop) : Outcome :=
  match s.graph.reconnect s.settings.connection edge d with
  | .ok g => (.ok .done, { s with graph := g, gesture := s.gesture.remember edge })
  | .error fault => (.error (.fault fault), s)

/-! ## Edits -/

/-- The draft of an agent that is placed on the canvas. -/
def agentDraft (s : Session) (agent : String) (x y : Json) : NodeDraft :=
  let draft :=
    match s.catalog.bind (·.find? agent) with
    | some info => NodeDraft.agentOf info
    | none => NodeDraft.agent (.str agent) .null
  draft.placed x y

def addAgent (s : Session) (agent : String) (x y : Json) : Outcome :=
  let (built, supply) := (s.agentDraft agent x y).build s.supply
  { s with supply }.edited (built >>= fun n => Graph.orFault (s.graph.addNode n)) fun _ => .done

/-! ## Workflows -/

/-- The metadata for a request: what was given with it, or else what the session remembers. -/
def metadataFor (s : Session) : Option MetadataSource → Except Failure Metadata
  | some (.finished m) => .ok m
  | some (.value v) => (Metadata.ofJson v).orFail
  | none =>
    match s.metadata with
    | some m => .ok m
    | none => .error (.fault .missingMetadata)

def compiled (s : Session) (source : Option MetadataSource) : Except Failure Definition :=
  s.metadataFor source >>= fun m => Graph.orFault (s.graph.compile m)

def compile (s : Session) (source : Option MetadataSource) : Outcome :=
  match s.compiled source with
  | .ok d => (.ok (.workflow d), { s with metadata := some d.metadata })
  | .error failure => (.error failure, s)

/-- The document of the graph, and the metadata that it was compiled with. -/
def exported (s : Session) (source : Option MetadataSource) (withSnapshot : Bool) :
    Except Failure (Metadata × Fields) :=
  s.metadataFor source >>= fun m =>
    (Graph.orFault (Archive.dump s.graph m withSnapshot)).map fun fields => (m, fields)

def exporting (s : Session) (source : Option MetadataSource) (withSnapshot : Bool) : Outcome :=
  match s.exported source withSnapshot with
  | .ok (m, fields) => (.ok (.document fields), { s with metadata := some m })
  | .error failure => (.error failure, s)

/-- The session after a document was loaded: no gesture outlives the old graph. -/
def loaded (s : Session) (l : Archive.Loaded) : Session :=
  { s with graph := l.graph, metadata := some l.metadata, gesture := .idle }

/-- Replaces the graph by that of a document. -/
def load (s : Session) (document : Json) : Outcome :=
  match Archive.load s.settings.layout document with
  | .ok l => (.ok .done, s.loaded l)
  | .error failure => (.error failure, s)

/-! ## Storages -/

variable {σ : Type}

/-- Exports the graph and saves the document under the name of its workflow. -/
def save (storage : Storage σ) (s : Session) (store : σ) (source : Option MetadataSource) :
    Outcome × σ :=
  match s.exported source true with
  | .error failure => ((.error failure, s), store)
  | .ok (m, fields) =>
    let (place, store) := storage.save store m.name.text fields
    ((place.map Answer.place, { s with metadata := some m }), store)

def openNamed (storage : Storage σ) (s : Session) (store : σ) (name : String) : Outcome :=
  match storage.load store name with
  | .ok fields => s.load (.obj fields)
  | .error failure => (.error failure, s)

def handle (storage : Storage σ) (s : Session) (store : σ) : Request → Outcome × σ
  | .connect d => (s.connect d, store)
  | .reconnectStart edge => (s.reconnectStart edge, store)
  | .reconnect edge d => (s.reconnect edge d, store)
  | .reconnectEnd => ((.ok .done, { s with gesture := s.gesture.finish }), store)
  | .addNode n => (s.edited (Graph.orFault (s.graph.addNode n)) fun _ => .done, store)
  | .addAgent agent x y => (s.addAgent agent x y, store)
  | .removeNode id => (s.edited (.ok (s.graph.removeNode id)) fun _ => .done, store)
  | .updateData id changes =>
    (s.edited (Graph.orFault (s.graph.updateData id changes)) (showing id), store)
  | .moveNode id x y => (s.edited (s.graph.moveNode id x y) (showing id), store)
  | .removeEdge id => (s.edited (.ok (s.graph.removeEdge id)) fun _ => .done, store)
  | .validate => ((.ok (.verdict s.graph.verdict), s), store)
  | .compile source => (s.compile source, store)
  | .load document => (s.load document, store)
  | .exporting source withSnapshot => (s.exporting source withSnapshot, store)
  | .save source => s.save storage store source
  | .openNamed name => (s.openNamed storage store name, store)
  | .snapshot => ((.ok (.graph s.graph), s), store)

end Session
end WorkflowCanvas
