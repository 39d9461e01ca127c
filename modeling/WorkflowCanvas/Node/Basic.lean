import WorkflowCanvas.Node.Payload

/-! Nodes: an identifier, a place on the canvas and a payload, which decides the kind. The
identifier is not empty. Nodes are the same when all of this agrees. -/
namespace WorkflowCanvas
set_option autoImplicit false

/-- A place on the canvas. -/
structure Position where
  x : Float := 0.0
  y : Float := 0.0

namespace Position

def entries (p : Position) : List Entry := [.plain "x" (.float p.x), .plain "y" (.float p.y)]

/-- Decodes a position; a missing coordinate is zero. -/
def ofFields (fields : Fields) : Checked Position :=
  ((Checked.optional fields "x" "x" 0.0 Checked.number).map Position.mk).ap
    (Checked.optional fields "y" "y" 0.0 Checked.number)

def ofJson : Json → Checked Position := Checked.record "Position" ofFields

/-- Equal coordinates. Any two undefined coordinates count as equal, whether they are one and the
same value or were made apart. -/
def sameCoordinate (x y : Float) : Bool := x == y || x.isNaN && y.isNaN

def same (p q : Position) : Bool := sameCoordinate p.x q.x && sameCoordinate p.y q.y

end Position

/-- A node of a graph. -/
structure Node where
  id : String
  position : Position
  payload : Payload
  named : id ≠ ""

namespace Node

/-- The kind of a node is that of its payload. -/
def kind (n : Node) : NodeKind := n.payload.kind

def label (n : Node) : String := n.payload.label

/-- Whether two nodes agree in everything. -/
def same (m n : Node) : Bool :=
  m.id == n.id && m.position.same n.position && decide (m.payload = n.payload)

def entries (form : Form) (n : Node) : List Entry :=
  [.plain "id" (.str n.id), ⟨"kind", "type", .str n.kind.word⟩,
    .plain "position" (form.object n.position.entries),
    .plain "data" (form.object n.payload.entries)]

def toJson (form : Form) (n : Node) : Json := form.object (n.entries form)

end Node
end WorkflowCanvas
