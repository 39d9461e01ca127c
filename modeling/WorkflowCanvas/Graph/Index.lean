import WorkflowCanvas.Edge

/-! The index of a graph: which edges use a handle, leave a node, and enter a node. Rows stand
in the order of their first use, and each row lists its edges in their order. Main statement:
what a row holds after an edge was added to another. -/
namespace WorkflowCanvas
set_option autoImplicit false

/-! ## Rows -/

/-- Rows of identifiers under keys. -/
abbrev Rows (κ : Type) := List (κ × List String)

namespace Rows
variable {κ : Type} [BEq κ] [LawfulBEq κ]

/-- Adds an identifier to the end of the row of a key; a new key opens a row at the end. -/
def add (key : κ) (id : String) : Rows κ → Rows κ
  | [] => [(key, [id])]
  | (k, ids) :: rest => if k == key then (k, ids ++ [id]) :: rest else (k, ids) :: add key id rest

/-- The row of a key; a key without a row has an empty one. -/
def row (rows : Rows κ) (key : κ) : List String := (rows.lookup key).getD []

theorem row_add_self (rows : Rows κ) (key : κ) (id : String) :
    row (add key id rows) key = row rows key ++ [id] := by
  induction rows with
  | nil => simp [add, row]
  | cons r rest ih =>
    obtain ⟨k, ids⟩ := r
    by_cases h : k = key
    · subst h; simp [add, row]
    · have h' : (key == k) = false := by simp [Ne.symm h]
      simpa [add, row, List.lookup_cons, h, h'] using ih

theorem row_add_of_ne (rows : Rows κ) {key other : κ} (id : String) (h : other ≠ key) :
    row (add key id rows) other = row rows other := by
  induction rows with
  | nil =>
    have h' : (other == key) = false := by simp [h]
    simp [add, row, List.lookup_cons, h']
  | cons r rest ih =>
    obtain ⟨k, ids⟩ := r
    by_cases hk : k = key
    · subst hk
      have h' : (other == k) = false := by simp [h]
      simp [add, row, List.lookup_cons, h']
    · by_cases ho : other = k
      · subst ho; simp [add, row, hk]
      · have h' : (other == k) = false := by simp [ho]
        simpa [add, row, List.lookup_cons, hk, h'] using ih

end Rows

/-! ## The index -/

/-- The edges by the handles that they use and by the nodes that they leave and enter. -/
structure Index where
  usage : Rows HandleKey := []
  outgoing : Rows String := []
  incoming : Rows String := []
deriving DecidableEq

namespace Index

/-- Enters an edge: its source before its target. -/
def add (index : Index) (e : Edge) : Index where
  usage := (index.usage.add e.sourceKey e.id).add e.targetKey e.id
  outgoing := index.outgoing.add e.source e.id
  incoming := index.incoming.add e.target e.id

/-- The index of edges, entered in their order. -/
def ofEdges (edges : List Edge) : Index := edges.foldl add {}

end Index
end WorkflowCanvas
