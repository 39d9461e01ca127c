import WorkflowCanvas.Graph.Basic
import WorkflowCanvas.Graph.Chain
import WorkflowCanvas.Supply

/-! Drafts of graphs: nodes and edges are collected as they come, and looked at together when
the draft is finished. -/
namespace WorkflowCanvas
set_option autoImplicit false

/-- A graph in the making. -/
structure GraphDraft where
  nodes : List Node := []
  edges : List Edge := []

/-- What is told about an edge of a draft; a hollow identifier has to be taken from the supply. -/
structure EdgeSketch where
  id : Json := .null
  source : Json
  sourceHandle : Json := .null
  target : Json
  targetHandle : Json := .null

namespace EdgeSketch

/-- Whether an identifier has to be taken from the supply. -/
def takesName (s : EdgeSketch) : Bool := s.id.isHollow

def edge (s : EdgeSketch) (supply : Supply) : Checked Edge :=
  let id := if s.takesName then .str (supply.next Edge.stem).1 else s.id
  Edge.ofFields [("id", id), ("source", s.source), ("target", s.target),
    ("source_handle", s.sourceHandle), ("target_handle", s.targetHandle)]

end EdgeSketch

namespace GraphDraft

def addNodes (d : GraphDraft) (nodes : List Node) : GraphDraft :=
  { d with nodes := d.nodes ++ nodes }

def addNode (d : GraphDraft) (n : Node) : GraphDraft := d.addNodes [n]

def addEdges (d : GraphDraft) (edges : List Edge) : GraphDraft :=
  { d with edges := d.edges ++ edges }

/-- Adds the edge of a sketch, and gives the supply after it; an identifier is taken even when the
sketch is no edge. -/
def connect (d : GraphDraft) (s : EdgeSketch) (supply : Supply) :
    Except Failure GraphDraft × Supply :=
  ((s.edge supply).orFail.map fun e => d.addEdges [e], supply.spentIf s.takesName)

/-- Adds edges between neighbours, named for their ends. -/
def chain (d : GraphDraft) (nodes : List String) : GraphDraft := d.addEdges (Chain.links nodes)

def build (d : GraphDraft) : Except Fault Graph := Graph.build d.nodes d.edges

end GraphDraft
end WorkflowCanvas
