import WorkflowCanvas.Fault
import WorkflowCanvas.Node.Reading

/-! Edited nodes: other data or another place under the same identifier and kind. The label
of a step group follows its title until it is edited on its own. -/
namespace WorkflowCanvas.Node
set_option autoImplicit false

/-- Changes to the data of a payload; the label of a step group follows the title while the two
are equal. -/
def tracked (p : Payload) (changes : Fields) : Fields :=
  match p, changes.get? "title" with
  | .stepGroup d, some title =>
    if !changes.has "label" && d.label.1 == d.title.text then changes.set "label" title else changes
  | _, _ => changes

/-- The data of a payload with changes merged in, by either name of each field. -/
def merged (p : Payload) (changes : Fields) : Fields :=
  Fields.setAll (Form.inner.fields p.entries) (tracked p changes)

/-- The node with changed data, which must suit its kind. -/
def withData (n : Node) (changes : Fields) : Except Fault Node :=
  match Payload.ofFields n.kind (merged n.payload changes) with
  | .accepted p => .ok { n with payload := p }
  | refusal => .error (.ofProblems n.id refusal.problems)

def movedTo (n : Node) (x y : Json) : Checked Node :=
  (Position.ofFields [("x", x), ("y", y)]).map fun position => { n with position }

theorem id_of_withData {n m : Node} {changes : Fields} (h : n.withData changes = .ok m) :
    m.id = n.id ∧ m.kind = n.kind := by
  unfold withData at h
  split at h
  · rename_i p hp
    cases h
    exact ⟨rfl, Payload.kind_of_ofFields hp⟩
  · cases h

theorem id_of_movedTo {n m : Node} {x y : Json} (h : n.movedTo x y = .accepted m) :
    m.id = n.id := by
  rw [movedTo, Checked.map_eq_accepted_iff] at h
  obtain ⟨_, _, rfl⟩ := h
  rfl

end WorkflowCanvas.Node
