import Mathlib.Data.List.Nodup
import WorkflowCanvas.Graph.Basic

/-! The queries of a graph against a scan of its edges. Main statements: looking an identifier up
finds the one item of that identifier; the edges that leave a node, enter a node or use a handle
are those that a scan finds, in the order of the edges; and the handles in use are listed once,
each with the edges that use it. -/
namespace WorkflowCanvas
set_option autoImplicit false

/-! ## Looking identifiers up -/

namespace Distinct
variable {α : Type} (id : α → String)

theorem eq_of_id_eq {xs : List α} (h : (xs.map id).Nodup) {x y : α} (hx : x ∈ xs) (hy : y ∈ xs)
    (hid : id x = id y) : x = y := List.inj_on_of_nodup_map h hx hy hid

theorem find?_eq_some_iff {xs : List α} (h : (xs.map id).Nodup) {x : α} {name : String} :
    xs.find? (id · == name) = some x ↔ x ∈ xs ∧ id x = name := by
  constructor
  · intro hf
    have hid : id x = name := by simpa using List.find?_some hf
    exact ⟨List.mem_of_find?_eq_some hf, hid⟩
  · rintro ⟨hx, rfl⟩
    cases hf : xs.find? (id · == id x) with
    | none => exact absurd (List.find?_eq_none.1 hf x hx) (by simp)
    | some y =>
      have hid : id y = id x := by simpa using List.find?_some hf
      rw [eq_of_id_eq id h (List.mem_of_find?_eq_some hf) hx hid]

end Distinct

namespace Graph
variable {g : Graph}

theorem node?_eq_some_iff {id : String} {n : Node} :
    g.node? id = some n ↔ n ∈ g.nodes ∧ n.id = id :=
  Distinct.find?_eq_some_iff Node.id g.nodes_distinct

theorem edge?_eq_some_iff {id : String} {e : Edge} :
    g.edge? id = some e ↔ e ∈ g.edges ∧ e.id = id :=
  Distinct.find?_eq_some_iff Edge.id g.edges_distinct

theorem node_eq_of_id_eq {m n : Node} (hm : m ∈ g.nodes) (hn : n ∈ g.nodes) (h : m.id = n.id) :
    m = n := Distinct.eq_of_id_eq Node.id g.nodes_distinct hm hn h

theorem edge_eq_of_id_eq {e f : Edge} (he : e ∈ g.edges) (hf : f ∈ g.edges) (h : e.id = f.id) :
    e = f := Distinct.eq_of_id_eq Edge.id g.edges_distinct he hf h

theorem nodup_nodes (g : Graph) : g.nodes.Nodup := .of_map Node.id g.nodes_distinct

theorem nodup_edges (g : Graph) : g.edges.Nodup := .of_map Edge.id g.edges_distinct

theorem id_mem_nodeIds {n : Node} (hn : n ∈ g.nodes) : n.id ∈ g.nodeIds := List.mem_map_of_mem hn

theorem exists_of_mem_nodeIds {id : String} (h : id ∈ g.nodeIds) : ∃ n ∈ g.nodes, n.id = id :=
  List.mem_map.1 h

theorem edgesOf_filter (g : Graph) (test : Edge → Bool) :
    g.edgesOf ((g.edges.filter test).map Edge.id) = g.edges.filter test := by
  rw [edgesOf, List.filterMap_map]
  have hsome : ∀ e ∈ g.edges.filter test, (g.edge? ∘ Edge.id) e = some e := by
    intro e he
    exact edge?_eq_some_iff.2 ⟨(List.mem_filter.1 he).1, rfl⟩
  rw [List.filterMap_congr hsome, List.filterMap_some]

end Graph

/-! ## Rows -/

namespace Rows
variable {κ : Type} [BEq κ] [LawfulBEq κ]

theorem row_add (rows : Rows κ) (key other : κ) (id : String) :
    row (add key id rows) other = row rows other ++ if key == other then [id] else [] := by
  by_cases h : other = key
  · subst h
    rw [row_add_self, if_pos (by simp)]
  · have h' : (key == other) = false := by simp [Ne.symm h]
    rw [row_add_of_ne rows id h, h']
    simp

theorem mem_keys_add {rows : Rows κ} {key other : κ} {id : String} :
    other ∈ (add key id rows).map Prod.fst ↔ other = key ∨ other ∈ rows.map Prod.fst := by
  induction rows with
  | nil => simp [add]
  | cons r rest ih =>
    obtain ⟨k, ids⟩ := r
    by_cases h : k = key
    · subst h
      simp [add]
    · have h' : (k == key) = false := by simp [h]
      simp only [add, h', Bool.false_eq_true, if_false, List.map_cons, List.mem_cons, ih]
      grind

theorem nodup_keys_add {rows : Rows κ} {key : κ} {id : String} (h : (rows.map Prod.fst).Nodup) :
    ((add key id rows).map Prod.fst).Nodup := by
  induction rows with
  | nil => simp [add]
  | cons r rest ih =>
    obtain ⟨k, ids⟩ := r
    rw [List.map_cons, List.nodup_cons] at h
    by_cases hk : k = key
    · subst hk
      simpa [add] using h
    · have h' : (k == key) = false := by simp [hk]
      simp only [add, h', Bool.false_eq_true, if_false, List.map_cons, List.nodup_cons]
      refine ⟨fun hm => ?_, ih h.2⟩
      rcases mem_keys_add.1 hm with hm | hm
      · exact hk hm
      · exact h.1 hm

theorem row_of_mem {rows : Rows κ} (h : (rows.map Prod.fst).Nodup) {key : κ} {ids : List String}
    (hm : (key, ids) ∈ rows) : row rows key = ids := by
  induction rows with
  | nil => cases hm
  | cons r rest ih =>
    obtain ⟨k, others⟩ := r
    rw [List.map_cons, List.nodup_cons] at h
    rcases List.mem_cons.1 hm with heq | hm
    · cases heq
      simp [row]
    · have hne : key ≠ k := fun he => h.1 (List.mem_map.2 ⟨(key, ids), hm, he⟩)
      have h' : (key == k) = false := by simp [hne]
      have ih := ih h.2 hm
      simpa [row, List.lookup_cons, h'] using ih

end Rows

/-! ## The index -/

namespace Edge

/-- Whether an edge leaves or enters a handle. -/
def uses (e : Edge) (key : HandleKey) : Bool := e.sourceKey == key || e.targetKey == key

theorem sourceKey_ne_targetKey (e f : Edge) : e.sourceKey ≠ f.targetKey := by
  intro h
  have := congrArg HandleKey.direction h
  cases this

end Edge

namespace Index

theorem row_outgoing_foldl (edges : List Edge) (index : Index) (node : String) :
    (edges.foldl add index).outgoing.row node =
      index.outgoing.row node ++ (edges.filter (·.source == node)).map Edge.id := by
  induction edges generalizing index with
  | nil => simp
  | cons e rest ih =>
    rw [List.foldl_cons, ih, List.filter_cons]
    simp only [add, Rows.row_add]
    cases e.source == node <;> simp

theorem row_incoming_foldl (edges : List Edge) (index : Index) (node : String) :
    (edges.foldl add index).incoming.row node =
      index.incoming.row node ++ (edges.filter (·.target == node)).map Edge.id := by
  induction edges generalizing index with
  | nil => simp
  | cons e rest ih =>
    rw [List.foldl_cons, ih, List.filter_cons]
    simp only [add, Rows.row_add]
    cases e.target == node <;> simp

theorem row_usage_foldl (edges : List Edge) (index : Index) (key : HandleKey) :
    (edges.foldl add index).usage.row key =
      index.usage.row key ++ (edges.filter (·.uses key)).map Edge.id := by
  induction edges generalizing index with
  | nil => simp
  | cons e rest ih =>
    rw [List.foldl_cons, ih, List.filter_cons]
    simp only [add, Rows.row_add, Edge.uses]
    -- an edge is entered once: its two keys differ
    have hne : ¬ (e.sourceKey = key ∧ e.targetKey = key) :=
      fun h => e.sourceKey_ne_targetKey e (h.1.trans h.2.symm)
    by_cases hs : e.sourceKey = key
    · have ht : (e.targetKey == key) = false := by simpa using fun ht => hne ⟨hs, ht⟩
      simp [hs, ht]
    · by_cases ht : e.targetKey = key <;> simp [hs, ht]

theorem nodup_usage_foldl (edges : List Edge) (index : Index)
    (h : (index.usage.map Prod.fst).Nodup) :
    ((edges.foldl add index).usage.map Prod.fst).Nodup := by
  induction edges generalizing index with
  | nil => exact h
  | cons e rest ih => exact ih _ (Rows.nodup_keys_add (Rows.nodup_keys_add h))

end Index

/-! ## The queries -/

namespace Graph
variable (g : Graph)

theorem row_outgoing (node : String) :
    g.index.outgoing.row node = (g.edges.filter (·.source == node)).map Edge.id := by
  rw [g.indexed, Index.ofEdges, Index.row_outgoing_foldl]
  rfl

theorem row_incoming (node : String) :
    g.index.incoming.row node = (g.edges.filter (·.target == node)).map Edge.id := by
  rw [g.indexed, Index.ofEdges, Index.row_incoming_foldl]
  rfl

theorem outgoing_eq (node : String) : g.outgoing node = g.edges.filter (·.source == node) := by
  rw [outgoing, row_outgoing, edgesOf_filter]

theorem incoming_eq (node : String) : g.incoming node = g.edges.filter (·.target == node) := by
  rw [incoming, row_incoming, edgesOf_filter]

theorem row_usage (key : HandleKey) :
    g.usage.row key = (g.edges.filter (·.uses key)).map Edge.id := by
  rw [usage, g.indexed, Index.ofEdges, Index.row_usage_foldl]
  rfl

theorem edgesAt_eq (key : HandleKey) : g.edgesAt key = g.edges.filter (·.uses key) := by
  rw [edgesAt, show g.index.usage.row key = _ from g.row_usage key, edgesOf_filter]

theorem nodup_usage : (g.usage.map Prod.fst).Nodup := by
  rw [usage, g.indexed]
  exact Index.nodup_usage_foldl g.edges {} List.nodup_nil

theorem ids_of_mem_usage {key : HandleKey} {ids : List String} (h : (key, ids) ∈ g.usage) :
    ids = (g.edges.filter (·.uses key)).map Edge.id :=
  (Rows.row_of_mem g.nodup_usage h).symm.trans (g.row_usage key)

end Graph
end WorkflowCanvas
