import WorkflowCanvas.Graph.Basic

/-! Snapshots: a graph as an object that lists its nodes and its edges. A part that is absent
or hollow is no part; entries are read in order, nodes first, and the first bad one is told. -/
namespace WorkflowCanvas.Graph
set_option autoImplicit false

/-! ## Writing -/

def snapshot (g : Graph) : Fields :=
  [("nodes", .arr (g.nodes.map (Node.toJson .durable))), ("edges", .arr (g.edges.map Edge.toJson))]

def toJson (g : Graph) : Json := .obj g.snapshot

/-! ## Reading -/

/-- A part of a snapshot; what is absent or hollow counts as an empty part. -/
def part (fields : Fields) (name : String) : Except Fault (List Json) :=
  match fields.get? name with
  | none => .ok []
  | some (.arr items) => .ok items
  | some v =>
    if v.isHollow then .ok [] else .error (.integrity (.partNotList name v.kindName))

/-- Reads entries up to the first that is refused. -/
def entriesOf {α : Type} (read : Json → Checked α) : List Json → Except Failure (List α)
  | [] => .ok []
  | v :: rest =>
    match read v with
    | .accepted a => (entriesOf read rest).map (a :: ·)
    | .refused problems => .error (.fault (.integrity (.badEntry problems)))
    | .unkeyable kind => .error (.unkeyable kind)

def orFault {α : Type} (x : Except Fault α) : Except Failure α := x.mapError .fault

theorem orFault_eq_ok_iff {α : Type} {x : Except Fault α} {a : α} :
    orFault x = .ok a ↔ x = .ok a := by
  cases x with
  | ok b =>
    constructor
    all_goals
      intro h
      cases h
      rfl
  | error fault =>
    constructor
    all_goals
      intro h
      cases h

def ofSnapshot (fields : Fields) : Except Failure Graph := do
  let nodeItems ← orFault (part fields "nodes")
  let edgeItems ← orFault (part fields "edges")
  let nodes ← entriesOf Node.ofJson nodeItems
  let edges ← entriesOf Edge.ofJson edgeItems
  orFault (build nodes edges)

end WorkflowCanvas.Graph
