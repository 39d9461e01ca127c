import WorkflowCanvas.Decode.Form
import WorkflowCanvas.Decode.Scalar

/-! Workflow metadata: a name, a purpose, and hints for whoever runs the workflow. A name has
letters, digits, underscores, hyphens and white space, and is not blank. -/
namespace WorkflowCanvas
set_option autoImplicit false

/-! ## Names -/

def isNameChar (c : Char) : Bool := c.isAlphanum || c == '_' || c == '-' || Text.isSpace c

/-- The rule for names, as messages tell it. -/
def namePattern : String := "^[a-zA-Z0-9_\\s-]+$"

/-- The name of a workflow. -/
structure WorkflowName where
  text : String
  fits : text.length ≤ 50
  spelled : text.toList.all isNameChar = true
  notBlank : Text.isBlank text = false

namespace WorkflowName

theorem eq_of_text {m n : WorkflowName} (h : m.text = n.text) : m = n := by
  cases m
  cases n
  cases h
  rfl

instance : DecidableEq WorkflowName := fun m n =>
  decidable_of_decidable_of_iff (p := m.text = n.text) ⟨eq_of_text, fun h => h ▸ rfl⟩

/-- A name; its length is looked at first, then its characters, then whether it is blank. -/
def ofJson : Json → Checked WorkflowName
  | .str s =>
    if fits : s.length ≤ 50 then
      if spelled : s.toList.all isNameChar = true then
        if notBlank : Text.isBlank s = false then .accepted ⟨s, fits, spelled, notBlank⟩
        else .stop (if s.isEmpty then .offPattern namePattern else .blankName)
      else .stop (.offPattern namePattern)
    else .stop (.tooLong 50)
  | _ => .stop .notText

theorem ofJson_text (n : WorkflowName) : ofJson (.str n.text) = .accepted n := by
  simp [ofJson, n.fits, n.spelled, n.notBlank]

end WorkflowName

/-! ## Metadata -/

/-- What is known about a workflow apart from its steps. -/
structure Metadata where
  name : WorkflowName
  purpose : Bounded 5000
  model : Option String
  argumentHint : Option (Bounded 500)
deriving DecidableEq

namespace Metadata

def noPurpose : Bounded 5000 := ⟨"", by decide⟩

def entries (m : Metadata) : List Entry :=
  [⟨"workflow_name", "workflowName", .str m.name.text⟩,
    ⟨"workflow_purpose", "workflowPurpose", .str m.purpose.text⟩,
    ⟨"workflow_model", "workflowModel", .ofText? m.model⟩,
    ⟨"workflow_argument_hint", "workflowArgumentHint",
      .ofText? (m.argumentHint.map Bounded.text)⟩]

def toJson (form : Form) (m : Metadata) : Json := form.object m.entries

def ofFields (fields : Fields) : Checked Metadata :=
  ((((Checked.required fields "workflowName" "workflow_name" WorkflowName.ofJson).map
    Metadata.mk).ap
    (Checked.optional fields "workflowPurpose" "workflow_purpose" noPurpose
      (Checked.bounded 5000))).ap
    (Checked.optional fields "workflowModel" "workflow_model" none
      (Checked.nullable Checked.text))).ap
    (Checked.optional fields "workflowArgumentHint" "workflow_argument_hint" none
      (Checked.nullable (Checked.bounded 500)))

def ofJson : Json → Checked Metadata := Checked.record "WorkflowMetadata" ofFields

end Metadata
end WorkflowCanvas
