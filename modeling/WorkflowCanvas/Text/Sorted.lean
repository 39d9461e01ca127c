/-! Rows of texts in order, by code point. -/
namespace WorkflowCanvas.Text
set_option autoImplicit false

def sorted (texts : List String) : List String := texts.mergeSort fun a b => decide (a ≤ b)

theorem mem_sorted {texts : List String} {s : String} : s ∈ sorted texts ↔ s ∈ texts := by
  simp [sorted]

end WorkflowCanvas.Text
