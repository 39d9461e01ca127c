import WorkflowCanvas.Gesture.Resolution
import WorkflowCanvas.Graph.Change
import WorkflowCanvas.Journal.Record
import WorkflowCanvas.Text.Sorted

/-! What changes and gestures leave in the journal. A change that fails leaves no record; a
gesture first tells what it comes to, then which edges make way, then the change of its edge. -/
namespace WorkflowCanvas
set_option autoImplicit false

/-! ## Changes -/

namespace Change

def told (g : Graph) : Change → List Record
  | addNode n => [.debug s!"Added {n.kind.word} node '{n.id}'"]
  | removeNode id =>
    if g.hasNode id then
      let attached := (g.edges.filter (·.touches id)).length
      [.debug s!"Removed node '{id}' and {attached} attached edges"]
    else []
  | addEdge e => [.debug s!"Added edge '{e.id}': {e.source} -> {e.target}"]
  | removeEdge id => if g.hasEdge id then [.debug s!"Removed edge '{id}'"] else []
  | replaceEdge id e =>
    [.debug s!"Replaced edge '{id}' with '{e.id}': {e.source} -> {e.target}"]
  | updateData .. | moveNode .. | removeEdges .. => []

def records (g : Graph) (c : Change) : List Record :=
  match c.apply g with
  | .ok _ => c.told g
  | .error _ => []

end Change

/-! ## Gestures -/

def Ignored.told : Ignored → String
  | badEnd node =>
    let shown := Text.plain? node
    s!"Ignoring gesture with invalid endpoint '{shown}'"
  | selfLoop node => s!"Ignoring self-loop on '{node}'"
  | unknownEdge edge =>
    let shown := Text.plain? edge
    s!"Ignoring reconnect of unknown edge '{shown}'"
  | unidentified => "Ignoring connect signal during reconnect of an unidentified edge"

/-- How an edge comes to its place, in words. -/
def Manner.told (e : Edge) : Manner → String
  | toNewTarget => s!"Rewiring edge '{e.id}' to target '{e.target}'"
  | toNewSource => s!"Rewiring edge '{e.id}' to source '{e.source}'"
  | dragged => s!"Reconnecting edge '{e.id}': {e.source} -> {e.target}"
  | created => s!"Creating edge '{e.id}': {e.source} -> {e.target}"

namespace Plan

/-- The change of the edge, once the handles are cleared. -/
def change (p : Plan) : Change :=
  if p.creates then .addEdge p.edge else .replaceEdge p.edge.id p.edge

def records (g : Graph) (p : Plan) : List Record :=
  let removed := Text.quotedList (Text.sorted p.doomed)
  [.debug (p.manner.told p.edge)] ++
    (if p.doomed.isEmpty then [] else [.debug s!"Removing conflicting edges: {removed}"]) ++
    p.change.records (g.removeEdges p.doomed)

end Plan

def Resolution.records (g : Graph) : Resolution → List Record
  | ignored why => [.debug why.told]
  | settled => []
  | planned plan => plan.records g

end WorkflowCanvas
