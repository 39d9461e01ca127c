import WorkflowCanvas.Graph.Edit
import WorkflowCanvas.Proofs.Graph.Scan

/-! What edits of a graph make of it. Main statements: each edit succeeds exactly when its parts
suit the graph, and the nodes and edges that it leaves are told; an edge suits a graph exactly when
its ends are nodes and no edge that counts is on its handles. -/
namespace WorkflowCanvas
set_option autoImplicit false

/-! ## Meeting on a handle -/

namespace Edge

/-- Whether an edge leaves the first of two handles or enters the second. -/
def meets (e : Edge) (ends : Ends) : Bool :=
  e.sourceKey == ends.sourceKey || e.targetKey == ends.targetKey

theorem meets_iff {e : Edge} {ends : Ends} :
    e.meets ends = true ↔ e.sourceKey = ends.sourceKey ∨ e.targetKey = ends.targetKey := by
  simp [meets]

theorem uses_sourceKey (e : Edge) (ends : Ends) :
    e.uses ends.sourceKey = (e.sourceKey == ends.sourceKey) := by
  have hne : (e.targetKey == ends.sourceKey) = false := by
    simp [Ends.sourceKey, Ends.targetKey]
  rw [uses, hne, Bool.or_false]

theorem uses_targetKey (e : Edge) (ends : Ends) :
    e.uses ends.targetKey = (e.targetKey == ends.targetKey) := by
  have hne : (e.sourceKey == ends.targetKey) = false := by
    simp [Ends.sourceKey, Ends.targetKey]
  rw [uses, hne, Bool.false_or]

end Edge

namespace Graph
variable {g h : Graph} {e : Edge}

/-- A graph is its nodes and its edges. -/
theorem eq_of_parts (hn : h.nodes = g.nodes) (he : h.edges = g.edges) : h = g := by
  obtain ⟨_, _, _, _, _, _, hi⟩ := h
  obtain ⟨_, _, _, _, _, _, hj⟩ := g
  cases hn
  cases he
  cases hi
  cases hj
  rfl

/-! ## Edits of nodes -/

theorem addNode_eq_ok_iff {n : Node} :
    g.addNode n = .ok h ↔ n.id ∉ g.nodeIds ∧ h.nodes = g.nodes ++ [n] ∧ h.edges = g.edges := by
  unfold addNode
  split
  · rename_i hid
    simp [hid]
  · rename_i hid
    constructor
    · intro hok
      cases hok
      exact ⟨hid, rfl, rfl⟩
    · rintro ⟨-, hn, he⟩
      refine congrArg Except.ok (eq_of_parts ?_ ?_)
      · exact hn.symm
      · exact he.symm

theorem updateData_eq_ok_iff {id : String} {changes : Fields} :
    g.updateData id changes = .ok h ↔
      ∃ n m, g.node? id = some n ∧ n.withData changes = .ok m ∧ h = g.putNode m := by
  unfold updateData
  cases hn : g.node? id with
  | none => simp
  | some n =>
    cases hm : n.withData changes with
    | error fault => simp [Except.map, hm]
    | ok m => simp [Except.map, hm, eq_comm]

theorem moveNode_eq_ok_iff {id : String} {x y : Json} :
    g.moveNode id x y = .ok h ↔
      ∃ n m, g.node? id = some n ∧ (n.movedTo x y).orFail = .ok m ∧ h = g.putNode m := by
  unfold moveNode
  cases hn : g.node? id with
  | none => simp
  | some n =>
    cases hm : (n.movedTo x y).orFail with
    | error failure => simp [Except.map, hm]
    | ok m => simp [Except.map, hm, eq_comm]

theorem edges_putNode (n : Node) : (g.putNode n).edges = g.edges := rfl

theorem edges_removeNode_subset (id : String) : (g.removeNode id).edges ⊆ g.edges := by
  unfold removeNode
  split
  · exact List.filter_subset_self _
  · exact List.Subset.refl _

/-! ## Fitting -/

theorem strayEnd?_eq_none_iff :
    g.strayEnd? e = none ↔ e.source ∈ g.nodeIds ∧ e.target ∈ g.nodeIds := by
  unfold strayEnd?
  grind

theorem occupant?_eq_none_iff {ignored : Option String} {key : HandleKey} :
    g.occupant? ignored key = none ↔
      ∀ f ∈ g.edges, some f.id ≠ ignored → ¬ f.uses key = true := by
  rw [occupant?, show g.index.usage.row key = _ from g.row_usage key, List.find?_eq_none]
  constructor
  · intro hnone f hf hi hu
    have hm : f.id ∈ (g.edges.filter (·.uses key)).map Edge.id :=
      List.mem_map_of_mem (List.mem_filter.2 ⟨hf, hu⟩)
    exact hnone f.id hm (by simpa using hi)
  · intro hall id hid hi
    obtain ⟨f, hf, rfl⟩ := List.mem_map.1 hid
    rw [List.mem_filter] at hf
    exact hall f hf.1 (by simpa using hi) hf.2

theorem misfit?_eq_none_iff {ignored : Option String} :
    g.misfit? ignored e = none ↔ e.source ∈ g.nodeIds ∧ e.target ∈ g.nodeIds ∧
      ∀ f ∈ g.edges, some f.id ≠ ignored → ¬ f.meets e.ends = true := by
  simp only [misfit?, takenAt?, Option.or_eq_none_iff, Option.map_eq_none_iff,
    strayEnd?_eq_none_iff, occupant?_eq_none_iff, Edge.uses_sourceKey, Edge.uses_targetKey,
    Edge.meets, Bool.or_eq_true, not_or, and_assoc]
  constructor
  · rintro ⟨hs, ht, hsource, htarget⟩
    exact ⟨hs, ht, fun f hf hi => ⟨hsource f hf hi, htarget f hf hi⟩⟩
  · rintro ⟨hs, ht, hfree⟩
    exact ⟨hs, ht, fun f hf hi => (hfree f hf hi).1, fun f hf hi => (hfree f hf hi).2⟩

/-! ## Edits of edges -/

theorem addEdge_eq_ok_iff :
    g.addEdge e = .ok h ↔ e.id ∉ g.edgeIds ∧ g.misfit? none e = none ∧
      h.nodes = g.nodes ∧ h.edges = g.edges ++ [e] := by
  unfold addEdge
  split
  · rename_i hid
    simp [hid]
  · rename_i hid
    split
    · rename_i fault hm
      simp [hm]
    · rename_i hm
      constructor
      · intro hok
        cases hok
        exact ⟨hid, hm, rfl, rfl⟩
      · rintro ⟨-, -, hn, he⟩
        refine congrArg Except.ok (eq_of_parts ?_ ?_)
        · exact hn.symm
        · exact he.symm

theorem replaceEdge_eq_ok_iff {id : String} :
    g.replaceEdge id e = .ok h ↔ id ∈ g.edgeIds ∧ (e.id = id ∨ e.id ∉ g.edgeIds) ∧
      g.misfit? (some id) e = none ∧
        h.nodes = g.nodes ∧ h.edges = Distinct.put Edge.id e id g.edges := by
  unfold replaceEdge
  split
  · rename_i hid
    simp [hid]
  · rename_i hid
    split
    · rename_i htaken
      simp [htaken.1, htaken.2]
    · rename_i hfree
      have hnew : e.id = id ∨ e.id ∉ g.edgeIds := by
        by_cases he : e.id = id
        · exact .inl he
        · exact .inr fun hm => hfree ⟨he, hm⟩
      split
      · rename_i fault hm
        simp [hm]
      · rename_i hm
        constructor
        · intro hok
          cases hok
          exact ⟨Decidable.not_not.1 hid, hnew, hm, rfl, rfl⟩
        · rintro ⟨-, -, -, hn, he⟩
          refine congrArg Except.ok (eq_of_parts ?_ ?_)
          · exact hn.symm
          · exact he.symm

theorem exists_addEdge (hid : e.id ∉ g.edgeIds) (hm : g.misfit? none e = none) :
    ∃ h, g.addEdge e = .ok h ∧ h.nodes = g.nodes ∧ h.edges = g.edges ++ [e] := by
  cases hr : g.addEdge e with
  | ok h => exact ⟨h, rfl, (addEdge_eq_ok_iff.1 hr).2.2⟩
  | error fault =>
    unfold addEdge at hr
    split at hr
    · contradiction
    · split at hr
      · simp_all
      · cases hr

theorem exists_replaceEdge {id : String} (hid : id ∈ g.edgeIds) (he : e.id = id)
    (hm : g.misfit? (some id) e = none) :
    ∃ h, g.replaceEdge id e = .ok h ∧ h.nodes = g.nodes ∧
      h.edges = Distinct.put Edge.id e id g.edges := by
  cases hr : g.replaceEdge id e with
  | ok h => exact ⟨h, rfl, (replaceEdge_eq_ok_iff.1 hr).2.2.2⟩
  | error fault =>
    unfold replaceEdge at hr
    split at hr
    · contradiction
    · split at hr
      · rename_i htaken
        exact absurd he htaken.1
      · split at hr
        · simp_all
        · cases hr

theorem edges_removeEdges (ids : List String) :
    (g.removeEdges ids).edges = g.edges.filter fun e => !ids.contains e.id := rfl

/-! ## Around an edge -/

/-- An edge of a graph, with the edges before it and those after it. -/
theorem exists_split (he : e ∈ g.edges) :
    ∃ before after, g.edges = before ++ e :: after ∧ ∀ f ∈ before ++ after, f.id ≠ e.id := by
  obtain ⟨before, after, heq⟩ := List.append_of_mem he
  refine ⟨before, after, heq, fun f hf hid => ?_⟩
  have hnodup : (e :: (before ++ after)).Nodup :=
    List.perm_middle.nodup_iff.1 (heq ▸ g.nodup_edges)
  have hmem : f ∈ g.edges := heq ▸ List.perm_middle.mem_iff.2 (List.mem_cons_of_mem e hf)
  rw [edge_eq_of_id_eq hmem he hid] at hf
  exact (List.nodup_cons.1 hnodup).1 hf

theorem edges_removeEdge_of_split {before after : List Edge} (heq : g.edges = before ++ e :: after)
    (hother : ∀ f ∈ before ++ after, f.id ≠ e.id) :
    (g.removeEdge e.id).edges = before ++ after := by
  have hedges : (g.removeEdge e.id).edges = g.edges.filter fun f => f.id != e.id := rfl
  have hgone : (e.id != e.id) = false := bne_self_eq_false e.id
  rw [hedges, heq, List.filter_append, List.filter_cons, hgone, if_neg Bool.false_ne_true,
    ← List.filter_append, List.filter_eq_self]
  exact fun f hf => bne_iff_ne.2 (hother f hf)

end Graph
end WorkflowCanvas
