import WorkflowCanvas.Gesture.Basic
import WorkflowCanvas.Graph.Edit
import WorkflowCanvas.Settings.Basic
import WorkflowCanvas.Supply

/-! What a gesture comes to. A gesture joins two handles, and afterwards no other edge uses
either of them: an edge that left the source is rewired, or else one that entered the target,
or else an edge is created. A gesture that cannot be meant so is ignored. -/
namespace WorkflowCanvas
set_option autoImplicit false

/-- The two points that a gesture joins; a point may be missing. -/
structure Drop where
  source : Option String
  sourceHandle : Option String
  target : Option String
  targetHandle : Option String
deriving DecidableEq, Repr

/-- Why a gesture is ignored. -/
inductive Ignored where
  | badEnd (node : Option String)
  | selfLoop (node : String)
  | unknownEdge (edge : Option String)
  | unidentified
deriving DecidableEq, Repr

/-- How an edge comes to its place. -/
inductive Manner where
  | toNewTarget
  | toNewSource
  | dragged
  | created
deriving DecidableEq, Repr

/-- An edge with the place it is to have, and the edges that make way for it. -/
structure Plan where
  manner : Manner
  edge : Edge
  doomed : List String

/-- What a gesture comes to. -/
inductive Resolution where
  | ignored (why : Ignored)
  | settled
  | planned (plan : Plan)

/-! ## Ends -/

namespace Drop

/-- A point that is a node of a graph. -/
def point (g : Graph) (node : Option String) : Except Ignored String :=
  match node with
  | none => .error (.badEnd none)
  | some id => if g.hasNode id then .ok id else .error (.badEnd (some id))

/-- The ends that a gesture gives: both must be nodes, and one node at both only where edges may
lead back. -/
def ends (s : ConnectionSettings) (g : Graph) (d : Drop) : Except Ignored Ends := do
  let source ← point g d.source
  let target ← point g d.target
  if source == target && !s.allowSelfLoops then .error (.selfLoop source)
  else .ok ⟨source, d.sourceHandle, target, d.targetHandle⟩

end Drop

/-! ## Resolving -/

namespace Graph

/-- The other edges on the handles of an edge, each once: those at its source, then those at its
target. -/
def rivals (g : Graph) (e : Edge) : List String :=
  (((g.edgesAt e.sourceKey ++ g.edgesAt e.targetKey).map Edge.id).filter (· != e.id)).eraseDups

def plan (g : Graph) (manner : Manner) (e : Edge) : Plan := ⟨manner, e, g.rivals e⟩

/-- A signal to connect two points, with an identifier for an edge that has to be created. -/
def resolveConnect (s : ConnectionSettings) (fresh : Identifier) (g : Graph) (d : Drop) :
    Resolution :=
  match d.ends s g with
  | .error why => .ignored why
  | .ok ends =>
    match g.edgesAt ends.sourceKey, g.edgesAt ends.targetKey with
    | e :: _, _ => .planned (g.plan .toNewTarget (e.rewired ends))
    | [], e :: _ => .planned (g.plan .toNewSource (e.rewired ends))
    | [], [] => .planned (g.plan .created (.plain fresh.1 ends fresh.2))

def resolveReconnect (s : ConnectionSettings) (g : Graph) (edge : Option String) (d : Drop) :
    Resolution :=
  match edge.bind g.edge? with
  | none => .ignored (.unknownEdge edge)
  | some e =>
    match d.ends s g with
    | .error why => .ignored why
    | .ok ends =>
      let moved := e.rewired ends
      if moved = e ∧ g.rivals moved = [] then .settled else .planned (g.plan .dragged moved)

/-- A signal to connect while a gesture may be in flight: it then belongs to the dragged edge,
and to none if that is unknown. -/
def resolveSignal (s : ConnectionSettings) (fresh : Identifier) (g : Graph) (gesture : Gesture)
    (d : Drop) : Resolution :=
  if gesture.isReconnecting then
    match gesture.edge with
    | none => .ignored .unidentified
    | some edge => g.resolveReconnect s (some edge) d
  else g.resolveConnect s fresh d

end Graph

/-! ## Carrying out -/

namespace Plan

def creates (p : Plan) : Bool := p.manner == .created

/-- Clears the handles and puts the edge in its place. -/
def apply (p : Plan) (g : Graph) : Except Fault Graph :=
  let cleared := g.removeEdges p.doomed
  if p.creates then cleared.addEdge p.edge else cleared.replaceEdge p.edge.id p.edge

end Plan

namespace Resolution

def takesName : Resolution → Bool
  | planned plan => plan.creates
  | _ => false

def apply (r : Resolution) (g : Graph) : Except Fault Graph :=
  match r with
  | ignored _ | settled => .ok g
  | planned plan => plan.apply g

end Resolution

namespace Graph

def connect (s : ConnectionSettings) (fresh : Identifier) (g : Graph) (d : Drop) :
    Except Fault Graph := (g.resolveConnect s fresh d).apply g

def reconnect (s : ConnectionSettings) (g : Graph) (edge : Option String) (d : Drop) :
    Except Fault Graph := (g.resolveReconnect s edge d).apply g

end Graph
end WorkflowCanvas
