import WorkflowCanvas.Decode.Form
import WorkflowCanvas.Node.Kind

/-! Edges. An edge runs from a handle of one node to a handle of another; a node may have one
unnamed handle. An edge keeps its identifier and its drawing style when it is rewired. -/
namespace WorkflowCanvas
set_option autoImplicit false

/-- A point of a node at which edges leave or enter. -/
structure HandleKey where
  node : String
  handle : Option String
  direction : Direction
deriving DecidableEq, Repr

/-- The ends of an edge: where it leaves and where it enters. -/
structure Ends where
  source : String
  sourceHandle : Option String
  target : String
  targetHandle : Option String
deriving DecidableEq, Repr

/-- An edge of a graph. -/
structure Edge where
  id : String
  ends : Ends
  style : Option String
  named : id ≠ ""
deriving DecidableEq

namespace Ends

def sourceKey (e : Ends) : HandleKey := ⟨e.source, e.sourceHandle, .source⟩

def targetKey (e : Ends) : HandleKey := ⟨e.target, e.targetHandle, .target⟩

end Ends

namespace Edge

/-- The stem of the identifiers of new edges. -/
def stem : String := "edge"

abbrev source (e : Edge) : String := e.ends.source

abbrev target (e : Edge) : String := e.ends.target

abbrev sourceKey (e : Edge) : HandleKey := e.ends.sourceKey

abbrev targetKey (e : Edge) : HandleKey := e.ends.targetKey

/-- Whether a node is one of the ends. -/
def touches (e : Edge) (node : String) : Bool := e.source == node || e.target == node

def rewired (e : Edge) (ends : Ends) : Edge := { e with ends }

/-- An edge of no particular style. -/
def plain (id : String) (ends : Ends) (named : id ≠ "") : Edge := ⟨id, ends, none, named⟩

/-! ## Fields -/

/-- The fields of an edge without its style. -/
def coreEntries (e : Edge) : List Entry :=
  [.plain "id" (.str e.id), .plain "source" (.str e.source), .plain "target" (.str e.target),
    ⟨"source_handle", "sourceHandle", .ofText? e.ends.sourceHandle⟩,
    ⟨"target_handle", "targetHandle", .ofText? e.ends.targetHandle⟩]

def styleEntry (style : Option String) : Entry := ⟨"edge_type", "type", .ofText? style⟩

def entries (e : Edge) : List Entry := e.coreEntries ++ [styleEntry e.style]

/-- The fields of a saved edge: unnamed handles are nulls, and only a missing style is left out. -/
def savedFields (e : Edge) : Fields :=
  Form.keyed.fields (if e.style.isSome then e.entries else e.coreEntries)

def toJson (e : Edge) : Json := .obj e.savedFields

def ofFields (fields : Fields) : Checked Edge :=
  let name (key : String) := Checked.required fields key key Checked.text
  let text? (key inner : String) :=
    Checked.optional fields key inner none (Checked.nullable Checked.text)
  ((((((Checked.required fields "id" "id" Checked.nonempty).map
    fun id source target sourceHandle targetHandle style =>
      Edge.mk id.1 ⟨source, sourceHandle, target, targetHandle⟩ style id.2).ap
    (name "source")).ap (name "target")).ap
    (text? "sourceHandle" "source_handle")).ap (text? "targetHandle" "target_handle")).ap
    (text? "type" "edge_type")

def ofJson : Json → Checked Edge := Checked.record "EdgeSpec" ofFields

theorem touches_iff {e : Edge} {node : String} :
    e.touches node = true ↔ e.source = node ∨ e.target = node := by
  simp [touches]

end Edge
end WorkflowCanvas
