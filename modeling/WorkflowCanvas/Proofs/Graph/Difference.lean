import WorkflowCanvas.Graph.Change
import WorkflowCanvas.Proofs.Gesture.Settled
import WorkflowCanvas.Proofs.Graph.Comparing

/-! Comparing graphs. The undefined coordinate counts as equal to itself, so that every node is
the same as itself and no graph has to be left out. Main statements: nothing changed from one graph
to another exactly when they are the same; what changed one way is what changed the other way with
arrivals and departures exchanged; and a change of a graph tells its own footprint, that is the
identifiers that it is about and those of the edges that go with a node. -/
namespace WorkflowCanvas
set_option autoImplicit false

/-! ## Equal nodes -/

namespace Position
open Float.Model

theorem compare_self {u : UnpackedFloat} (h : u ≠ .notANumber) : u.compare u = some .eq := by
  rcases u with (_ | _) | _ | _ | ⟨_ | _, m, e, _⟩
  case notANumber => exact absurd rfl h
  case finite.negative =>
    show some ((compare e e).then (compare m m)).swap = some .eq
    rw [Std.ReflOrd.compare_self, Std.ReflOrd.compare_self]
    rfl
  case finite.positive =>
    show some ((compare e e).then (compare m m)) = some .eq
    rw [Std.ReflOrd.compare_self, Std.ReflOrd.compare_self]
    rfl
  all_goals rfl

theorem then_swap (d e : Int) (m n : Nat) :
    (compare e d).then (compare n m) = ((compare d e).then (compare m n)).swap := by
  rw [Ordering.swap_then, ← Std.OrientedCmp.eq_swap, ← Std.OrientedCmp.eq_swap]

theorem compare_swap (u v : UnpackedFloat) : v.compare u = (u.compare v).map Ordering.swap := by
  rcases u with (_ | _) | _ | _ | ⟨_ | _, m, d, _⟩
  all_goals rcases v with (_ | _) | _ | _ | ⟨_ | _, n, e, _⟩
  all_goals first
    | rfl
    | exact congrArg some (then_swap d e m n)
    | exact congrArg (fun o => some (Ordering.swap o)) (then_swap d e m n)

theorem sameCoordinate_refl (x : Float) : sameCoordinate x x = true := by
  have hbeq : (x == x) = (x.toModel.unpack.compare x.toModel.unpack == some .eq) := rfl
  by_cases hx : x.toModel.unpack = .notANumber
  · have hnan : x.isNaN = true := congrArg UnpackedFloat.isNaN hx
    rw [sameCoordinate, hnan, Bool.and_self, Bool.or_true]
  · rw [sameCoordinate, hbeq, compare_self hx]
    rfl

theorem sameCoordinate_comm (x y : Float) : sameCoordinate x y = sameCoordinate y x := by
  have hbeq : (y == x) = (x == y) := by
    show (y.toModel.unpack.compare x.toModel.unpack == some .eq) =
      (x.toModel.unpack.compare y.toModel.unpack == some .eq)
    rw [compare_swap x.toModel.unpack]
    rcases x.toModel.unpack.compare y.toModel.unpack with _ | _ | _ | _
    all_goals rfl
  rw [sameCoordinate, sameCoordinate, hbeq, Bool.and_comm]

theorem same_refl (p : Position) : p.same p = true := by
  rw [same, sameCoordinate_refl, sameCoordinate_refl, Bool.and_self]

theorem same_comm (p q : Position) : p.same q = q.same p := by
  rw [same, same, sameCoordinate_comm p.x, sameCoordinate_comm p.y]

end Position

namespace Node

theorem same_refl (n : Node) : n.same n = true := by
  rw [same, Position.same_refl, beq_self_eq_true, decide_eq_true rfl]
  rfl

theorem same_comm (m n : Node) : m.same n = n.same m := by
  have hpayload : decide (m.payload = n.payload) = decide (n.payload = m.payload) :=
    decide_eq_decide.2 eq_comm
  rw [same, same, BEq.comm, Position.same_comm, hpayload]

end Node

namespace Difference

/-! ## Comparing graphs -/

/-- No change at all. -/
def nothing : Difference := ⟨[], [], [], [], [], []⟩

/-- The same changes from the other side. -/
def reversed (d : Difference) : Difference where
  addedNodes := d.removedNodes
  removedNodes := d.addedNodes
  changedNodes := d.changedNodes
  addedEdges := d.removedEdges
  removedEdges := d.addedEdges
  changedEdges := d.changedEdges

theorem isEmpty_iff {d : Difference} : d.isEmpty = true ↔ d = nothing := by
  obtain ⟨addedNodes, removedNodes, changedNodes, addedEdges, removedEdges, changedEdges⟩ := d
  simp [isEmpty, nothing, and_assoc]

variable {g h : Graph} {n : Node} {e : Edge}

theorem between_eq_iff {d : Difference} : between g h = d ↔
    Differ Node.id Node.same g.nodes h.nodes d.addedNodes d.removedNodes d.changedNodes ∧
      Differ Edge.id (· == ·) g.edges h.edges d.addedEdges d.removedEdges d.changedEdges := by
  constructor
  · rintro rfl
    exact ⟨⟨rfl, rfl, rfl⟩, ⟨rfl, rfl, rfl⟩⟩
  · rintro ⟨hn, he⟩
    obtain ⟨addedNodes, removedNodes, changedNodes, addedEdges, removedEdges, changedEdges⟩ := d
    exact Difference.mk.injEq .. ▸
      ⟨hn.came, hn.went, hn.changed, he.came, he.went, he.changed⟩

theorem isEmpty_between_iff : (between g h).isEmpty = true ↔ g.same h = true := by
  rw [isEmpty_iff, between_eq_iff]
  show Differ Node.id Node.same g.nodes h.nodes [] [] [] ∧
    Differ Edge.id (· == ·) g.edges h.edges [] [] [] ↔ _
  rw [differ_nil_iff g.nodes_distinct h.nodes_distinct,
    differ_nil_iff g.edges_distinct h.edges_distinct, Graph.same]
  simp only [Bool.and_eq_true, beq_iff_eq]
  exact ⟨fun ⟨⟨hln, hmn⟩, hle, hme⟩ => ⟨⟨⟨hln, hle⟩, hmn⟩, hme⟩,
    fun ⟨⟨⟨hln, hle⟩, hmn⟩, hme⟩ => ⟨⟨hln, hmn⟩, hle, hme⟩⟩

theorem same_nodes (hn : h.nodes = g.nodes) :
    Differ Node.id Node.same g.nodes h.nodes [] [] [] :=
  .of_perm g.nodes_distinct Node.same_refl (.of_eq hn)

theorem same_edges (he : h.edges.Perm g.edges) :
    Differ Edge.id (· == ·) g.edges h.edges [] [] [] :=
  .of_perm g.edges_distinct (fun _ => beq_self_eq_true _) he

/-- Graphs with the same nodes are the same in whatever order they list the same edges. -/
theorem same_of_perm (hn : h.nodes = g.nodes) (he : h.edges.Perm g.edges) : g.same h = true :=
  isEmpty_between_iff.1 (isEmpty_iff.2 (between_eq_iff.2 ⟨same_nodes hn, same_edges he⟩))

theorem between_comm (g h : Graph) : between h g = (between g h).reversed := by
  obtain ⟨hn, he⟩ := between_eq_iff.1 (Eq.refl (between g h))
  exact between_eq_iff.2 ⟨hn.symm g.nodes_distinct h.nodes_distinct Node.same_comm,
    he.symm g.edges_distinct h.edges_distinct fun _ _ => BEq.comm⟩

/-! ## Footprints -/

theorem between_addNode (hok : g.addNode n = .ok h) :
    between g h = { nothing with addedNodes := [n.id] } := by
  obtain ⟨hid, hn, he⟩ := Graph.addNode_eq_ok_iff.1 hok
  exact between_eq_iff.2 ⟨hn ▸ .concat g.nodes_distinct Node.same_refl hid, same_edges (.of_eq he)⟩

theorem between_self (g : Graph) : between g g = nothing :=
  between_eq_iff.2 ⟨same_nodes rfl, same_edges (.refl _)⟩

theorem between_removeNode {id : String} : between g (g.removeNode id) =
    if id ∈ g.nodeIds then
      { nothing with
        removedNodes := [id]
        removedEdges := Text.sorted ((g.edges.filter (·.touches id)).map Edge.id) }
    else nothing := by
  by_cases hid : id ∈ g.nodeIds
  · have hn : (g.removeNode id).nodes = g.nodes.filter (·.id != id) := by
      rw [Graph.removeNode, if_pos (Graph.hasNode_iff.2 hid)]
    have he : (g.removeNode id).edges = g.edges.filter fun e => !e.touches id := by
      rw [Graph.removeNode, if_pos (Graph.hasNode_iff.2 hid)]
    have hnodes := Differ.filter g.nodes_distinct Node.same_refl (·.id != id)
    have hgone : (g.nodes.filter fun n => !(n.id != id)).map Node.id = [id] := by
      simp only [bne, Bool.not_not]
      exact (ids_filter_eq g.nodes_distinct id).trans (if_pos hid)
    have hedges : Differ Edge.id (· == ·) g.edges _ _ _ _ :=
      .filter g.edges_distinct (fun _ => beq_self_eq_true _) fun e => !e.touches id
    rw [← hn, hgone, Text.sorted_singleton] at hnodes
    simp only [Bool.not_not] at hedges
    rw [← he] at hedges
    rw [if_pos hid]
    exact between_eq_iff.2 ⟨hnodes, hedges⟩
  · rw [Graph.removeNode, if_neg (mt Graph.hasNode_iff.1 hid), if_neg hid, between_self]

theorem between_putNode {k : Node} {id : String} (hk : g.node? id = some k) (hn : n.id = k.id) :
    between g (g.putNode n) = nothing ∨
      between g (g.putNode n) = { nothing with changedNodes := [id] } := by
  obtain ⟨hmem, rfl⟩ := Graph.node?_eq_some_iff.1 hk
  obtain ⟨changed, hchanged, hdiffer⟩ := Differ.put_same g.nodes_distinct Node.same_refl hn
  have hput : (g.putNode n).nodes = Distinct.put Node.id n k.id g.nodes := hn ▸ rfl
  rcases hchanged with rfl | rfl
  · exact .inl (between_eq_iff.2 ⟨hput ▸ hdiffer, same_edges (.refl _)⟩)
  · exact .inr (between_eq_iff.2 ⟨hput ▸ hdiffer, same_edges (.refl _)⟩)

theorem between_addEdge (hok : g.addEdge e = .ok h) :
    between g h = { nothing with addedEdges := [e.id] } := by
  obtain ⟨hid, -, hn, he⟩ := Graph.addEdge_eq_ok_iff.1 hok
  exact between_eq_iff.2
    ⟨same_nodes hn, he ▸ .concat g.edges_distinct (fun _ => beq_self_eq_true _) hid⟩

theorem between_keepEdges (test : Edge → Bool) : between g (g.keepEdges test) =
    { nothing with
      removedEdges := Text.sorted ((g.edges.filter fun e => !test e).map Edge.id) } :=
  between_eq_iff.2 ⟨same_nodes rfl,
    .filter g.edges_distinct (fun _ => beq_self_eq_true _) test⟩

theorem between_removeEdge {id : String} : between g (g.removeEdge id) =
    if id ∈ g.edgeIds then { nothing with removedEdges := [id] } else nothing := by
  have hgone : (g.edges.filter fun e => !(e.id != id)).map Edge.id =
      if id ∈ g.edgeIds then [id] else [] := by
    simp only [bne, Bool.not_not]
    exact ids_filter_eq g.edges_distinct id
  rw [Graph.removeEdge, between_keepEdges, hgone]
  split
  · rw [Text.sorted_singleton]
  · rw [Text.sorted_nil]
    rfl

theorem between_removeEdges {ids : List String} : between g (g.removeEdges ids) =
    { nothing with removedEdges := Text.sorted (g.edgeIds.filter ids.contains) } := by
  have hgone : g.edgeIds.filter ids.contains =
      (g.edges.filter fun e => ids.contains e.id).map Edge.id := List.filter_map
  rw [Graph.removeEdges, between_keepEdges, hgone]
  simp only [Bool.not_not]

theorem between_replaceEdge {id : String} (hok : g.replaceEdge id e = .ok h) :
    (e.id = id → between g h = nothing ∨ between g h = { nothing with changedEdges := [id] }) ∧
      (e.id ≠ id → between g h = { nothing with addedEdges := [e.id], removedEdges := [id] }) := by
  obtain ⟨hid, hnew, -, hn, he⟩ := Graph.replaceEdge_eq_ok_iff.1 hok
  constructor
  · intro hsame
    have hedges : ∃ changed, (changed = [] ∨ changed = [id]) ∧
        Differ Edge.id (· == ·) g.edges h.edges [] [] changed :=
      he ▸ Differ.put_same g.edges_distinct (fun _ => beq_self_eq_true _) hsame
    obtain ⟨changed, rfl | rfl, hdiffer⟩ := hedges
    · exact .inl (between_eq_iff.2 ⟨same_nodes hn, hdiffer⟩)
    · exact .inr (between_eq_iff.2 ⟨same_nodes hn, hdiffer⟩)
  · intro hne
    exact between_eq_iff.2 ⟨same_nodes hn,
      he ▸ .put_new g.edges_distinct (fun _ => beq_self_eq_true _) hid (hnew.resolve_left hne)⟩

end Difference

namespace Change
open Difference

/-- What a change can make of a graph: the identifiers that it is about, and the edges that go with
a node. -/
def Footprint (g : Graph) : Change → Difference → Prop
  | addNode n, d => d = { nothing with addedNodes := [n.id] }
  | removeNode id, d => d =
    if id ∈ g.nodeIds then
      { nothing with
        removedNodes := [id]
        removedEdges := Text.sorted ((g.edges.filter (·.touches id)).map Edge.id) }
    else nothing
  | updateData id _, d => d = nothing ∨ d = { nothing with changedNodes := [id] }
  | moveNode id _ _, d => d = nothing ∨ d = { nothing with changedNodes := [id] }
  | addEdge e, d => d = { nothing with addedEdges := [e.id] }
  | removeEdge id, d => d =
    if id ∈ g.edgeIds then { nothing with removedEdges := [id] } else nothing
  | removeEdges ids, d =>
    d = { nothing with removedEdges := Text.sorted (g.edgeIds.filter ids.contains) }
  | replaceEdge id e, d =>
    (e.id = id → d = nothing ∨ d = { nothing with changedEdges := [id] }) ∧
      (e.id ≠ id → d = { nothing with addedEdges := [e.id], removedEdges := [id] })

theorem footprint_of_apply {g h : Graph} {c : Change} (hok : c.apply g = .ok h) :
    c.Footprint g (between g h) := by
  cases c with
  | addNode n => exact between_addNode (Graph.orFault_eq_ok_iff.1 hok)
  | removeNode id =>
    cases hok
    exact between_removeNode
  | updateData id changes =>
    obtain ⟨n, m, hn, hm, rfl⟩ := Graph.updateData_eq_ok_iff.1 (Graph.orFault_eq_ok_iff.1 hok)
    exact between_putNode hn (Node.id_of_withData hm).1
  | moveNode id x y =>
    obtain ⟨n, m, hn, hm, rfl⟩ := Graph.moveNode_eq_ok_iff.1 hok
    exact between_putNode hn (Node.id_of_movedTo (Checked.orFail_eq_ok_iff.1 hm))
  | addEdge e => exact between_addEdge (Graph.orFault_eq_ok_iff.1 hok)
  | removeEdge id =>
    cases hok
    exact between_removeEdge
  | removeEdges ids =>
    cases hok
    exact between_removeEdges
  | replaceEdge id e => exact between_replaceEdge (Graph.orFault_eq_ok_iff.1 hok)

end Change

namespace Difference

theorem told_between (g h : Graph) :
    ((between g h).isEmpty = true ↔ g.same h = true) ∧
      between h g = (between g h).reversed ∧
      ∀ c : Change, c.apply g = .ok h → c.Footprint g (between g h) :=
  ⟨isEmpty_between_iff, between_comm g h, fun _ => Change.footprint_of_apply⟩

/-- Every edge goes with the node that it touches. -/
theorem told_between_tangle :
    Change.apply Graph.tangle (.removeNode "b") = .ok (Graph.tangle.removeNode "b") ∧
      between Graph.tangle (Graph.tangle.removeNode "b") =
        { nothing with removedNodes := ["b"], removedEdges := ["1", "2", "3", "4"] } := by
  have hok : Change.apply Graph.tangle (.removeNode "b") = .ok (Graph.tangle.removeNode "b") := rfl
  have hgone : (Graph.tangle.edges.filter (·.touches "b")).map Edge.id = ["1", "2", "3", "4"] := rfl
  have htold := (told_between Graph.tangle (Graph.tangle.removeNode "b")).2.2 _ hok
  rw [Change.Footprint, if_pos (by decide), hgone, Text.sorted_of_pairwise (by decide)] at htold
  exact ⟨hok, htold⟩

end Difference
end WorkflowCanvas
