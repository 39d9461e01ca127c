import WorkflowCanvas.Graph.Basic
import WorkflowCanvas.Graph.Distinct

/-! Edits of a graph. Each edit gives a new graph or says why there is none. An added or
replacing edge must leave and enter handles that are free; the edge that it replaces does not
count. -/
namespace WorkflowCanvas
set_option autoImplicit false

namespace Graph

/-! ## Nodes -/

/-- The graph with another node at the end. -/
def addNode (g : Graph) (n : Node) : Except Fault Graph :=
  if h : n.id ∈ g.nodeIds then .error (.nodeTaken n.id)
  else .ok
    { nodes := g.nodes ++ [n]
      edges := g.edges
      nodes_distinct := Distinct.append_one Node.id g.nodes_distinct h
      edges_distinct := g.edges_distinct
      anchored := fun e he => by
        have := g.anchored e he
        rw [List.map_append]
        exact ⟨List.mem_append_left _ this.1, List.mem_append_left _ this.2⟩ }

/-- The graph without a node and the edges that touch it; without the node, the same graph. -/
def removeNode (g : Graph) (id : String) : Graph :=
  if g.hasNode id then
    { nodes := g.nodes.filter (·.id != id)
      edges := g.edges.filter fun e => !e.touches id
      nodes_distinct := Distinct.filter Node.id _ g.nodes_distinct
      edges_distinct := Distinct.filter Edge.id _ g.edges_distinct
      anchored := fun e he => by
        simp only [List.mem_filter, Edge.touches, Bool.not_eq_true', Bool.or_eq_false_iff,
          beq_eq_false_iff_ne] at he
        have := g.anchored e he.1
        simp only [List.mem_map, List.mem_filter, bne_iff_ne] at this ⊢
        obtain ⟨⟨a, ha, has⟩, ⟨b, hb, hbt⟩⟩ := this
        exact ⟨⟨a, ⟨ha, fun h => he.2.1 (has.symm.trans h)⟩, has⟩,
          ⟨b, ⟨hb, fun h => he.2.2 (hbt.symm.trans h)⟩, hbt⟩⟩ }
  else g

/-- The graph with every node changed by a function that keeps identifiers. -/
def mapNodes (g : Graph) (f : Node → Node) (hf : ∀ n, (f n).id = n.id) : Graph where
  nodes := g.nodes.map f
  edges := g.edges
  nodes_distinct := Distinct.map_same Node.id g.nodes_distinct hf
  edges_distinct := g.edges_distinct
  anchored := by
    have : Node.id ∘ f = Node.id := funext hf
    rw [List.map_map, this]
    exact g.anchored

/-- The graph with a node in the place of the one of the same identifier. -/
def putNode (g : Graph) (n : Node) : Graph :=
  g.mapNodes (fun m => if m.id == n.id then n else m) fun m => by
    by_cases h : m.id = n.id <;> simp [h]

def updateData (g : Graph) (id : String) (changes : Fields) : Except Fault Graph :=
  match g.node? id with
  | none => .error (.nodeUnknown id)
  | some n => (n.withData changes).map g.putNode

def moveNode (g : Graph) (id : String) (x y : Json) : Except Failure Graph :=
  match g.node? id with
  | none => .error (.fault (.nodeUnknown id))
  | some n => (n.movedTo x y).orFail.map g.putNode

/-! ## Edges -/

/-- The first end of an edge that is no node: its source, then its target. -/
def strayEnd? (g : Graph) (e : Edge) : Option String :=
  if e.source ∉ g.nodeIds then some e.source
  else if e.target ∉ g.nodeIds then some e.target
  else none

/-- The first edge on a handle, apart from the one to be ignored. -/
def occupant? (g : Graph) (ignored : Option String) (key : HandleKey) : Option String :=
  (g.index.usage.row key).find? fun id => some id != ignored

/-- The fault of using a handle that is taken. -/
def takenAt? (g : Graph) (ignored : Option String) (key : HandleKey) : Option Fault :=
  (g.occupant? ignored key).map (.handleTaken key.node key.handle key.direction)

/-- Why an edge does not fit into a graph: an end that is no node, or a handle that is taken. -/
def misfit? (g : Graph) (ignored : Option String) (e : Edge) : Option Fault :=
  ((g.strayEnd? e).map (.endpointUnknown · (some e.id))).or
    ((g.takenAt? ignored e.sourceKey).or (g.takenAt? ignored e.targetKey))

theorem anchored_of_misfit? {g : Graph} {ignored : Option String} {e : Edge}
    (h : g.misfit? ignored e = none) : e.source ∈ g.nodeIds ∧ e.target ∈ g.nodeIds := by
  simp only [misfit?, Option.or_eq_none_iff, Option.map_eq_none_iff, strayEnd?] at h
  grind

/-- The graph with another edge at the end. -/
def addEdge (g : Graph) (e : Edge) : Except Fault Graph :=
  if hid : e.id ∈ g.edgeIds then .error (.integrity (.repeatedEdge e.id))
  else match h : g.misfit? none e with
    | some fault => .error fault
    | none => .ok
      { nodes := g.nodes
        edges := g.edges ++ [e]
        nodes_distinct := g.nodes_distinct
        edges_distinct := Distinct.append_one Edge.id g.edges_distinct hid
        anchored := fun f hf => by
          rcases List.mem_append.1 hf with hf | hf
          · exact g.anchored f hf
          · rw [List.mem_singleton.1 hf]
            exact anchored_of_misfit? h }

/-- The graph with those edges alone that pass a test. -/
def keepEdges (g : Graph) (test : Edge → Bool) : Graph where
  nodes := g.nodes
  edges := g.edges.filter test
  nodes_distinct := g.nodes_distinct
  edges_distinct := Distinct.filter Edge.id _ g.edges_distinct
  anchored := fun e he => g.anchored e (List.mem_filter.1 he).1

def removeEdge (g : Graph) (id : String) : Graph := g.keepEdges (·.id != id)

def removeEdges (g : Graph) (ids : List String) : Graph := g.keepEdges fun e => !ids.contains e.id

/-- The graph with an edge in the place of another, of the same or a new identifier. -/
def replaceEdge (g : Graph) (id : String) (e : Edge) : Except Fault Graph :=
  if id ∉ g.edgeIds then .error (.edgeUnknown id)
  else if hid : e.id ≠ id ∧ e.id ∈ g.edgeIds then .error (.integrity (.repeatedEdge e.id))
  else match h : g.misfit? (some id) e with
    | some fault => .error fault
    | none => .ok
      { nodes := g.nodes
        edges := Distinct.put Edge.id e id g.edges
        nodes_distinct := g.nodes_distinct
        edges_distinct := Distinct.put_nodup Edge.id g.edges_distinct (by
          by_cases he : e.id = id
          · exact .inl he
          · exact .inr fun hm => hid ⟨he, hm⟩)
        anchored := fun f hf => by
          simp only [Distinct.put, List.mem_map] at hf
          obtain ⟨x, hx, rfl⟩ := hf
          split
          · exact anchored_of_misfit? h
          · exact g.anchored x hx }

end Graph
end WorkflowCanvas
