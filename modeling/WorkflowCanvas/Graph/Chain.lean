import WorkflowCanvas.Edge

/-! Chains: edges from each node of a row to the next, named for the nodes that they join. -/
namespace WorkflowCanvas.Chain
set_option autoImplicit false

def edgeId (source target : String) : String := "e-" ++ source ++ "-" ++ target

theorem ne_empty_of_toList_cons {s : String} {c : Char} {cs : List Char}
    (h : s.toList = c :: cs) : s ≠ "" := by
  rintro rfl
  cases h

theorem edgeId_ne_empty (source target : String) : edgeId source target ≠ "" :=
  have h : (edgeId source target).toList =
      'e' :: '-' :: (source.toList ++ '-' :: target.toList) := by simp [edgeId]
  ne_empty_of_toList_cons h

/-- The edge between two nodes without named handles. -/
def link (source target : String) : Edge :=
  .plain (edgeId source target) ⟨source, none, target, none⟩ (edgeId_ne_empty source target)

/-- Edges between neighbours. -/
def links : List String → List Edge
  | a :: b :: rest => link a b :: links (b :: rest)
  | _ => []

end WorkflowCanvas.Chain
