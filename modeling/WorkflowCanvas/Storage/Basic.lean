import WorkflowCanvas.Fault

/-! Storages of workflow documents, as a session sees them: a place of whatever kind to which a
document is saved under a name, and from which it is loaded. -/
namespace WorkflowCanvas
set_option autoImplicit false

/-- A storage with contents of a type. Saving gives the place of the document, and the contents
after it, also when it fails. -/
structure Storage (σ : Type) where
  save : σ → String → Fields → Except Failure String × σ
  load : σ → String → Except Failure Fields

end WorkflowCanvas
