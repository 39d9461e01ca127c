import WorkflowCanvas.Graph.Edit
import WorkflowCanvas.Graph.Snapshot

/-! Changes: the edits of a graph as values, so that a history of edits can be told. -/
namespace WorkflowCanvas
set_option autoImplicit false

/-- An edit of a graph. -/
inductive Change where
  | addNode (node : Node)
  | removeNode (id : String)
  | updateData (id : String) (changes : Fields)
  | moveNode (id : String) (x y : Json)
  | addEdge (edge : Edge)
  | removeEdge (id : String)
  | removeEdges (ids : List String)
  | replaceEdge (id : String) (edge : Edge)

namespace Change

def apply (g : Graph) : Change → Except Failure Graph
  | addNode n => Graph.orFault (g.addNode n)
  | removeNode id => .ok (g.removeNode id)
  | updateData id changes => Graph.orFault (g.updateData id changes)
  | moveNode id x y => g.moveNode id x y
  | addEdge e => Graph.orFault (g.addEdge e)
  | removeEdge id => .ok (g.removeEdge id)
  | removeEdges ids => .ok (g.removeEdges ids)
  | replaceEdge id e => Graph.orFault (g.replaceEdge id e)

end Change
end WorkflowCanvas
