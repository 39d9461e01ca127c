import WorkflowCanvas.Workflow.Definition
import WorkflowCanvas.Workflow.Verdict

/-! Compiling: a graph that passes its review becomes a workflow, one step for each step group
on the chain from the start to the end. A graph that does not pass is refused with everything
that was found. -/
namespace WorkflowCanvas.Graph
set_option autoImplicit false

/-- The node that the first edge out of a node leads to. -/
def successor? (g : Graph) (node : String) : Option Node :=
  (g.outgoing node).head?.bind fun e => g.node? e.target

/-- The nodes met from a node on, along first edges, up to an end or to a node already visited. -/
def chainFrom (g : Graph) (visited : List String) : Option Node → List Node
  | none => []
  | some n =>
    if n.kind ≠ .finish ∧ n.id ∈ g.nodeIds ∧ n.id ∉ visited then
      n :: chainFrom g (n.id :: visited) (g.successor? n.id)
    else []
termination_by Search.unknown g.nodeIds visited
decreasing_by
  rename_i h
  exact Search.unknown_lt (fun _ hb => List.mem_cons_of_mem _ hb) h.2.1 h.2.2 List.mem_cons_self

/-- The steps of the chain from the first start. -/
def steps (g : Graph) : List Step :=
  (g.chainFrom [] (g.nodesOfKind .start).head?).filterMap fun n =>
    n.payload.stepGroup?.map Step.ofGroup

/-- What keeps a graph from being compiled: violations of its structure before loose agents. -/
def obstacle? (g : Graph) : Option Fault :=
  let verdict := g.verdict
  if !verdict.structural.isEmpty then some (.structural verdict.errors)
  else if !verdict.unassigned.isEmpty then some (.unassigned verdict.errors verdict.agentIds)
  else none

def compile (g : Graph) (m : Metadata) : Except Fault Definition :=
  match g.obstacle? with
  | some fault => .error fault
  | none => .ok ⟨m, g.steps⟩

end WorkflowCanvas.Graph
