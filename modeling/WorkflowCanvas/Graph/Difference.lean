import WorkflowCanvas.Graph.Basic
import WorkflowCanvas.Text.Sorted

/-! Comparing graphs: whether two graphs hold the same nodes and edges, in whatever order, and
which identifiers came, went or changed from one graph to another. -/
namespace WorkflowCanvas
set_option autoImplicit false

namespace Graph

/-- Whether every item has a partner that it agrees with. -/
def matched {α : Type} (partner? : α → Option α) (agree : α → α → Bool) (items : List α) : Bool :=
  items.all fun a => (partner? a).any (agree a)

/-- Whether two graphs hold the same nodes and the same edges. -/
def same (g h : Graph) : Bool :=
  g.nodes.length == h.nodes.length && g.edges.length == h.edges.length &&
    matched (fun n => h.node? n.id) Node.same g.nodes &&
    matched (fun e => h.edge? e.id) (· == ·) g.edges

end Graph

/-- What changed from one graph to another, each identifier list in order. -/
structure Difference where
  addedNodes : List String
  removedNodes : List String
  changedNodes : List String
  addedEdges : List String
  removedEdges : List String
  changedEdges : List String
deriving DecidableEq, Repr

namespace Difference

def isEmpty (d : Difference) : Bool :=
  d.addedNodes.isEmpty && d.removedNodes.isEmpty && d.changedNodes.isEmpty &&
    d.addedEdges.isEmpty && d.removedEdges.isEmpty && d.changedEdges.isEmpty

/-- The texts of one list that are not in another, in order. -/
def beyond (these those : List String) : List String :=
  Text.sorted (these.filter fun s => !those.contains s)

/-- The identifiers of the items whose partners disagree, in order. -/
def altered {α : Type} (id : α → String) (partner? : α → Option α) (agree : α → α → Bool)
    (items : List α) : List String :=
  Text.sorted ((items.filter fun a => (partner? a).any fun b => !agree a b).map id)

def between (g h : Graph) : Difference where
  addedNodes := beyond h.nodeIds g.nodeIds
  removedNodes := beyond g.nodeIds h.nodeIds
  changedNodes := altered Node.id (fun n => h.node? n.id) Node.same g.nodes
  addedEdges := beyond h.edgeIds g.edgeIds
  removedEdges := beyond g.edgeIds h.edgeIds
  changedEdges := altered Edge.id (fun e => h.edge? e.id) (· == ·) g.edges

end Difference
end WorkflowCanvas
