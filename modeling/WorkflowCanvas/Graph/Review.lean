import WorkflowCanvas.Graph.Basic
import WorkflowCanvas.Graph.Search

/-! Reviewing a graph before it is compiled. A workflow is a single chain of step groups from
one start to one end; whatever breaks that is a violation, and all of them are collected. An
agent on the canvas that no step group has taken in is reported apart. -/
namespace WorkflowCanvas
set_option autoImplicit false

/-! ## Violations -/

/-- Which edges of a node are counted. -/
inductive Flow where
  | outgoing
  | incoming
deriving DecidableEq, Repr

def Flow.word : Flow → String
  | outgoing => "outgoing"
  | incoming => "incoming"

/-- A way in which a graph is not a single chain from start to end. -/
inductive Violation where
  | noStart
  | severalStarts (count : Nat)
  | noEnd
  | severalEnds (count : Nat)
  | sharedHandle (key : HandleKey) (edges : List String)
  | endUnreachable
  | disconnected (nodes : List String)
  | deadEnds (nodes : List String)
  | cycle (node : String)
  | branching (node : String) (count : Nat) (flow : Flow)
deriving DecidableEq, Repr

def Violation.message : Violation → String
  | noStart => "Start node is required"
  | severalStarts count => s!"Only one start node is allowed (found {count})"
  | noEnd => "End node is required"
  | severalEnds count => s!"Only one end node is allowed (found {count})"
  | sharedHandle key edges =>
    let shown := Text.quoted? key.handle
    let listed := ", ".intercalate edges
    s!"Handle {shown} on node '{key.node}' is used as {key.direction.word} by " ++
      s!"{edges.length} edges: {listed}"
  | endUnreachable => "End node is not reachable from Start node"
  | disconnected nodes =>
    let listed := ", ".intercalate nodes
    s!"{nodes.length} disconnected nodes found: {listed}"
  | deadEnds nodes =>
    let listed := ", ".intercalate nodes
    s!"{nodes.length} nodes have no path to End: {listed}"
  | cycle node => s!"Cycle detected in workflow graph at node '{node}'"
  | branching node count flow =>
    s!"Node '{node}' has {count} {flow.word} connections; a workflow must be a single chain"

/-- An agent that is part of no step group. -/
structure LooseAgent where
  node : String
  agent : String
deriving DecidableEq, Repr

def LooseAgent.message (a : LooseAgent) : String :=
  s!"Agent node '{a.node}' ({a.agent}) is not organized into a step group"

/-- What a review finds. -/
structure Review where
  violations : List Violation
  loose : List LooseAgent
  disconnected : List String
  deadEnds : List String
deriving DecidableEq, Repr

namespace Review

/-- Whether nothing stands in the way of compiling. -/
def passes (r : Review) : Bool := r.violations.isEmpty && r.loose.isEmpty

/-- The messages of violations, and then of loose agents. -/
def errors (r : Review) : List String :=
  r.violations.map Violation.message ++ r.loose.map LooseAgent.message

end Review

/-! ## Reviewing -/

namespace Graph

def following (g : Graph) (node : String) : List String := (g.outgoing node).map (·.target)

def preceding (g : Graph) (node : String) : List String := (g.incoming node).map (·.source)

/-- What can be reached from an origin; nothing but itself when it is no node. -/
def reachable (g : Graph) (origin : String) : List String :=
  Search.reach (origin :: g.nodeIds) g.following [origin] []

/-- From where a goal can be reached; from nothing but itself when it is no node. -/
def reaching (g : Graph) (goal : String) : List String :=
  Search.reach (goal :: g.nodeIds) g.preceding [goal] []

/-- A node on a cycle, if there is a cycle. -/
def cycleNode? (g : Graph) : Option String := Search.closing? g.nodeIds g.following g.nodeIds []

def only? {α : Type} : List α → Option α
  | [a] => some a
  | _ => none

def start? (g : Graph) : Option Node := only? (g.nodesOfKind .start)

def finish? (g : Graph) : Option Node := only? (g.nodesOfKind .finish)

/-- What is wrong with a number of nodes of which there must be one. -/
def countViolations (missing : Violation) (several : Nat → Violation) : Nat → List Violation
  | 0 => [missing]
  | 1 => []
  | count => [several count]

def sharedHandles (g : Graph) : List Violation :=
  (g.usage.filter fun row => 1 < row.2.length).map fun row => .sharedHandle row.1 row.2

/-- The flows of a node that more than one edge makes up. -/
def branchings (g : Graph) (node : String) : List Violation :=
  let leaving := (g.outgoing node).length
  let entering := (g.incoming node).length
  (if 1 < leaving then [.branching node leaving .outgoing] else []) ++
    (if 1 < entering then [.branching node entering .incoming] else [])

def groupsWhere (g : Graph) (test : String → Bool) : List String :=
  ((g.nodesOfKind .stepGroup).filter fun n => test n.id).map Node.id

/-- The step groups that cannot be reached from the start. -/
def disconnectedFrom (g : Graph) (start : Node) : List String :=
  let forward := g.reachable start.id
  g.groupsWhere fun id => !forward.contains id

/-- The step groups that are reached from the start and from which the end is not. -/
def deadEndsBetween (g : Graph) (start finish : Node) : List String :=
  let forward := g.reachable start.id
  let backward := g.reaching finish.id
  g.groupsWhere fun id => forward.contains id && !backward.contains id

/-- What is wrong between a start and an end. -/
def pathViolations (g : Graph) (start finish : Node) : List Violation :=
  let disconnected := g.disconnectedFrom start
  let deadEnds := g.deadEndsBetween start finish
  (if (g.reachable start.id).contains finish.id then [] else [.endUnreachable]) ++
    (if disconnected.isEmpty then [] else [.disconnected disconnected]) ++
    (if deadEnds.isEmpty then [] else [.deadEnds deadEnds])

/-- The start and the end, when there is one of each. -/
def terminals? (g : Graph) : Option (Node × Node) :=
  g.start?.bind fun start => g.finish?.map fun finish => (start, finish)

/-- All violations, in the order in which they are told. -/
def violations (g : Graph) : List Violation :=
  countViolations .noStart .severalStarts (g.nodesOfKind .start).length ++
    countViolations .noEnd .severalEnds (g.nodesOfKind .finish).length ++
    g.sharedHandles ++
    (match g.terminals? with
      | some (start, finish) => g.pathViolations start finish
      | none => []) ++
    (g.cycleNode?.map Violation.cycle).toList ++
    g.nodeIds.flatMap g.branchings

/-- The agents on the canvas. -/
def looseAgents (g : Graph) : List LooseAgent :=
  g.nodes.filterMap fun n =>
    match n.payload with
    | .agent d => some ⟨n.id, d.name⟩
    | _ => none

def review (g : Graph) : Review where
  violations := g.violations
  loose := g.looseAgents
  disconnected := (g.terminals?.map fun t => g.disconnectedFrom t.1).getD []
  deadEnds := (g.terminals?.map fun t => g.deadEndsBetween t.1 t.2).getD []

end Graph
end WorkflowCanvas
