/-! Steps that may fail, one after the other. Main statements: two steps succeed exactly when the
first does and the second does on its result; a row of steps, when the first does and the others do
from its result on. -/
namespace WorkflowCanvas.Attempt
set_option autoImplicit false

variable {α β ε : Type}

theorem bind_eq_ok_iff {x : Except ε α} {f : α → Except ε β} {b : β} :
    (x >>= f) = .ok b ↔ ∃ a, x = .ok a ∧ f a = .ok b := by
  cases x <;> simp [bind, Except.bind]

theorem foldlM_cons_eq_ok_iff {f : β → α → Except ε β} {a : α} {rest : List α} {first last : β} :
    (a :: rest).foldlM f first = .ok last ↔
      ∃ next, f first a = .ok next ∧ rest.foldlM f next = .ok last := by
  rw [List.foldlM_cons]
  exact bind_eq_ok_iff

end WorkflowCanvas.Attempt
