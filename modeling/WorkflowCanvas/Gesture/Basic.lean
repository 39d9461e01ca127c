import WorkflowCanvas.Decode.Form
import WorkflowCanvas.Decode.Scalar

/-! Gestures in flight. While the end of an edge is being dragged the canvas remembers which
edge it is, if it has been told. -/
namespace WorkflowCanvas
set_option autoImplicit false

/-- Whether the end of an edge is being dragged. -/
inductive Phase where
  | idle
  | reconnecting
deriving DecidableEq, Repr

namespace Phase

def word : Phase → String
  | idle => "idle"
  | reconnecting => "reconnecting"

def ofWord? : String → Option Phase
  | "idle" => some idle
  | "reconnecting" => some reconnecting
  | _ => none

def ofJson : Json → Checked Phase :=
  Checked.choice ofWord? (.notOneOf "idle" [] "reconnecting")

theorem ofWord?_word (p : Phase) : ofWord? p.word = some p := by cases p <;> rfl

end Phase

/-- A gesture: its phase and the edge that it drags. -/
structure Gesture where
  phase : Phase := .idle
  edge : Option String := none
deriving DecidableEq, Repr

namespace Gesture

/-- Nothing is being dragged. -/
def idle : Gesture := {}

/-- An edge, perhaps unknown, is being dragged. -/
def reconnecting (edge : Option String) : Gesture := ⟨.reconnecting, edge⟩

def isReconnecting (g : Gesture) : Bool := g.phase == .reconnecting

/-- The identifier of a dragged edge, or null while it is unknown. -/
def edgeOf (v : Json) : Checked (Option String) := Checked.nullable Checked.text v

/-- A drag starts, of the edge that a value names; one that is still in flight is forgotten. -/
def start (_ : Gesture) (edge : Json) : Checked Gesture :=
  ((edgeOf edge).under (.field "edge_id")).map reconnecting

/-- The drag is over, wherever it ended. -/
def finish (_ : Gesture) : Gesture := idle

/-- The dragged edge becomes known; without a drag nothing is remembered. -/
def remember (g : Gesture) (edge : Option String) : Gesture :=
  if g.isReconnecting then reconnecting edge else g

def entries (g : Gesture) : List Entry :=
  [.plain "phase" (.str g.phase.word), .plain "edge_id" (.ofText? g.edge)]

def ofFields (fields : Fields) : Checked Gesture :=
  ((Checked.optional fields "phase" "phase" .idle Phase.ofJson).map mk).ap
    (Checked.optional fields "edge_id" "edge_id" none edgeOf)

def ofJson : Json → Checked Gesture := Checked.record "GestureState" ofFields

end Gesture
end WorkflowCanvas
