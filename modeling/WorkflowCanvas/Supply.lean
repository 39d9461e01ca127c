import WorkflowCanvas.Text.Quoted

/-! Supplies of identifiers for new nodes and edges: a stem that tells what is named, and the
count of identifiers taken so far in twelve hexadecimal digits. -/
namespace WorkflowCanvas
set_option autoImplicit false

/-- A text that can be an identifier. -/
abbrev Identifier := { s : String // s ≠ "" }

theorem Identifier.ne_empty (id : Identifier) : id.1 ≠ "" := id.2

/-- A supply of identifiers. -/
structure Supply where
  taken : Nat := 0
deriving DecidableEq, Repr

namespace Supply

def spell (stem : String) (count : Nat) : String :=
  stem ++ "-" ++ String.ofList (Text.hex 12 count)

theorem spell_ne_empty (stem : String) (count : Nat) : spell stem count ≠ "" := by
  intro h
  have := congrArg String.toList h
  simp [spell] at this

def next (supply : Supply) (stem : String) : Identifier :=
  ⟨spell stem (supply.taken + 1), spell_ne_empty _ _⟩

def spent (supply : Supply) : Supply := ⟨supply.taken + 1⟩

def spentIf (supply : Supply) (taken : Bool) : Supply := if taken then supply.spent else supply

end Supply
end WorkflowCanvas
