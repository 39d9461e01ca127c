import WorkflowCanvas.Graph.Index
import WorkflowCanvas.Node.Edit

/-! Graphs: nodes and edges in order, with an index of the edges. No two nodes and no two edges
share an identifier, and both ends of an edge are nodes; handles may be used more than once. A
graph is built from parts that pass these checks. Main statement: the checks find nothing
exactly when the parts are those of a graph. -/
namespace WorkflowCanvas
set_option autoImplicit false

/-- A graph. -/
structure Graph where
  nodes : List Node
  edges : List Edge
  nodes_distinct : (nodes.map Node.id).Nodup
  edges_distinct : (edges.map Edge.id).Nodup
  anchored : ∀ e ∈ edges, e.source ∈ nodes.map Node.id ∧ e.target ∈ nodes.map Node.id
  index : Index := Index.ofEdges edges
  indexed : index = Index.ofEdges edges := by rfl

namespace Graph

def empty : Graph := ⟨[], [], List.nodup_nil, List.nodup_nil, by simp, _, rfl⟩

/-! ## Queries -/

def nodeIds (g : Graph) : List String := g.nodes.map Node.id

def edgeIds (g : Graph) : List String := g.edges.map Edge.id

def node? (g : Graph) (id : String) : Option Node := g.nodes.find? (·.id == id)

def edge? (g : Graph) (id : String) : Option Edge := g.edges.find? (·.id == id)

def hasNode (g : Graph) (id : String) : Bool := (g.node? id).isSome

def hasEdge (g : Graph) (id : String) : Bool := (g.edge? id).isSome

def nodesOfKind (g : Graph) (kind : NodeKind) : List Node := g.nodes.filter (·.kind == kind)

/-- The edges of a row of the index. -/
def edgesOf (g : Graph) (ids : List String) : List Edge := ids.filterMap g.edge?

def outgoing (g : Graph) (node : String) : List Edge := g.edgesOf (g.index.outgoing.row node)

def incoming (g : Graph) (node : String) : List Edge := g.edgesOf (g.index.incoming.row node)

/-- The edges that use a handle. -/
def edgesAt (g : Graph) (key : HandleKey) : List Edge := g.edgesOf (g.index.usage.row key)

/-- Every handle in use with its edges, in the order of first use. -/
def usage (g : Graph) : Rows HandleKey := g.index.usage

def summary (g : Graph) : String :=
  s!"<GraphModel(nodes={g.nodes.length}, edges={g.edges.length})>"

theorem hasNode_iff {g : Graph} {id : String} : g.hasNode id = true ↔ id ∈ g.nodeIds := by
  simp [hasNode, node?, nodeIds, List.find?_isSome]

/-! ## Building -/

/-- The first text of a row that stood in it before. -/
def firstRepeat : List String → List String → Option String
  | _, [] => none
  | seen, s :: rest => if s ∈ seen then some s else firstRepeat (s :: seen) rest

/-- The first flaw of an edge after those whose identifiers are taken: its own identifier, its
source, its target. -/
def edgeFlaw? (nodeIds taken : List String) (e : Edge) : Option Flaw :=
  if e.id ∈ taken then some (.repeatedEdge e.id)
  else if e.source ∉ nodeIds then some (.danglingEdge e.id e.source)
  else if e.target ∉ nodeIds then some (.danglingEdge e.id e.target)
  else none

/-- The first flaw of edges, in their order. -/
def edgesFlaw? (nodeIds : List String) : List String → List Edge → Option Flaw
  | _, [] => none
  | taken, e :: rest => (edgeFlaw? nodeIds taken e).or (edgesFlaw? nodeIds (e.id :: taken) rest)

/-- The first flaw of parts: of the nodes, or else of the edges. -/
def flaw? (nodes : List Node) (edges : List Edge) : Option Flaw :=
  ((firstRepeat [] (nodes.map Node.id)).map Flaw.repeatedNode).or
    (edgesFlaw? (nodes.map Node.id) [] edges)

theorem firstRepeat_eq_none_iff {seen texts : List String} :
    firstRepeat seen texts = none ↔ texts.Nodup ∧ ∀ s ∈ texts, s ∉ seen := by
  induction texts generalizing seen with
  | nil => simp [firstRepeat]
  | cons s rest ih =>
    by_cases h : s ∈ seen
    · simp [firstRepeat, h]
    · simp only [firstRepeat, h, if_false, ih, List.nodup_cons, List.mem_cons, not_or]
      grind

theorem edgeFlaw?_eq_none_iff {ids taken : List String} {e : Edge} :
    edgeFlaw? ids taken e = none ↔ e.id ∉ taken ∧ e.source ∈ ids ∧ e.target ∈ ids := by
  unfold edgeFlaw?
  grind

theorem edgesFlaw?_eq_none_iff {ids taken : List String} {edges : List Edge} :
    edgesFlaw? ids taken edges = none ↔
      (edges.map Edge.id).Nodup ∧ (∀ e ∈ edges, e.id ∉ taken) ∧
        ∀ e ∈ edges, e.source ∈ ids ∧ e.target ∈ ids := by
  induction edges generalizing taken with
  | nil => simp [edgesFlaw?]
  | cons e rest ih =>
    simp only [edgesFlaw?, Option.or_eq_none_iff, edgeFlaw?_eq_none_iff, ih, List.map_cons,
      List.nodup_cons, List.mem_map, List.mem_cons, not_or]
    grind

theorem flaw?_eq_none_iff {nodes : List Node} {edges : List Edge} :
    flaw? nodes edges = none ↔
      (nodes.map Node.id).Nodup ∧ (edges.map Edge.id).Nodup ∧
        ∀ e ∈ edges, e.source ∈ nodes.map Node.id ∧ e.target ∈ nodes.map Node.id := by
  simp [flaw?, firstRepeat_eq_none_iff, edgesFlaw?_eq_none_iff]

/-- The graph of parts that have no flaw. -/
def build (nodes : List Node) (edges : List Edge) : Except Fault Graph :=
  match h : flaw? nodes edges with
  | some flaw => .error (.integrity flaw)
  | none =>
    have parts := flaw?_eq_none_iff.1 h
    .ok { nodes, edges, nodes_distinct := parts.1, edges_distinct := parts.2.1,
          anchored := parts.2.2 }

theorem build_eq_ok_iff {nodes : List Node} {edges : List Edge} {g : Graph} :
    build nodes edges = .ok g ↔ g.nodes = nodes ∧ g.edges = edges := by
  unfold build
  split
  · rename_i flaw h
    constructor
    · intro hg; cases hg
    · rintro ⟨rfl, rfl⟩
      rw [flaw?_eq_none_iff.2 ⟨g.nodes_distinct, g.edges_distinct, g.anchored⟩] at h
      cases h
  · constructor
    · intro hg; cases hg; exact ⟨rfl, rfl⟩
    · rintro ⟨rfl, rfl⟩
      obtain ⟨_, _, _, _, _, _, rfl⟩ := g
      rfl

end Graph
end WorkflowCanvas
