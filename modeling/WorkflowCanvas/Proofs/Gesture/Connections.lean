import WorkflowCanvas.Proofs.Gesture.Failing

/-! The connections that gestures leave, whichever edges they are made of. A gesture between ends
leaves its own connection and those of before that are on neither of its handles. Main statements:
two gestures that share no handle leave the same connections in either order; connecting moves the
edge that is in the way as if it were dragged; an edge that is moved leaves the connections that it
would leave if it were removed and drawn anew; and a gesture that is made again changes nothing. -/
namespace WorkflowCanvas
set_option autoImplicit false

namespace Ends

/-- Whether two connections leave one handle or enter one. -/
def meets (a b : Ends) : Bool := a.sourceKey == b.sourceKey || a.targetKey == b.targetKey

theorem meets_eq_false {a b : Ends} (hs : a.sourceKey ≠ b.sourceKey)
    (ht : a.targetKey ≠ b.targetKey) : a.meets b = false := by
  rw [meets, beq_false_of_ne hs, beq_false_of_ne ht, Bool.or_false]

theorem Allowed.of_nodes_eq {s : ConnectionSettings} {g h : Graph} {ends : Ends}
    (ha : ends.Allowed s g) (hn : h.nodes = g.nodes) : ends.Allowed s h where
  source := by
    rw [Graph.nodeIds, hn]
    exact ha.source
  target := by
    rw [Graph.nodeIds, hn]
    exact ha.target
  loop := ha.loop

end Ends

namespace Graph
variable {s : ConnectionSettings} {g h : Graph} {e : Edge} {ends : Ends} {fresh : Identifier}

/-! ## What is left -/

/-- The connections of a graph, in the order of its edges. -/
def connections (g : Graph) : List Ends := g.edges.map Edge.ends

/-- The connections of a graph that are on neither handle of ends. -/
def connectionsOff (g : Graph) (ends : Ends) : List Ends :=
  g.connections.filter fun c => !c.meets ends

theorem connectionsOff_eq (g : Graph) (ends : Ends) :
    g.connectionsOff ends = (g.edges.filter fun f => !f.meets ends).map Edge.ends := by
  rw [connectionsOff, connections, List.filter_map]
  rfl

/-- An edge that is moved keeps its place; of the edges before it and after it those on the two
handles are gone. -/
theorem edgesMoving_of_split {before after : List Edge} (heq : g.edges = before ++ e :: after)
    (hother : ∀ f ∈ before ++ after, f.id ≠ e.id) (ends : Ends) :
    g.edgesMoving e ends = before.filter (fun f => !f.meets ends) ++
      e.rewired ends :: after.filter fun f => !f.meets ends := by
  have hrest : ∀ (moved : Edge) (fs : List Edge), fs ⊆ before ++ after →
      (fs.filterMap fun f => if f = e then some moved
        else if f.meets ends then none else some f) = fs.filter fun f => !f.meets ends := by
    intro moved fs hfs
    rw [← List.filterMap_eq_filter]
    refine List.filterMap_congr fun f hf => ?_
    have hne : f ≠ e := fun hfe => hother f (hfs hf) (congrArg Edge.id hfe)
    rw [if_neg hne, Option.guard]
    cases f.meets ends <;> rfl
  rw [edgesMoving, heq, List.filterMap_append, List.filterMap_cons,
    hrest _ before (List.subset_append_left _ _), hrest _ after (List.subset_append_right _ _),
    if_pos rfl]
  rfl

/-- Besides its own, a gesture leaves the connections that are on neither of its handles. -/
theorem connections_of_moving (he : e ∈ g.edges) (hedges : h.edges = g.edgesMoving e ends) :
    h.connections.Perm (ends :: (g.removeEdge e.id).connectionsOff ends) := by
  obtain ⟨before, after, heq, hother⟩ := exists_split he
  rw [connectionsOff_eq, edges_removeEdge_of_split heq hother, List.filter_append, connections,
    hedges, edgesMoving_of_split heq hother, List.map_append, List.map_cons, List.map_append]
  exact List.perm_middle

theorem connectionsOff_removeEdge (he : e ∈ g.edges) (hm : e.meets ends = true) :
    (g.removeEdge e.id).connectionsOff ends = g.connectionsOff ends := by
  have hedges : (g.removeEdge e.id).edges = g.edges.filter fun f => f.id != e.id := rfl
  rw [connectionsOff_eq, connectionsOff_eq, hedges, List.filter_filter]
  congr 1
  refine List.filter_congr fun f hf => ?_
  cases hmeets : f.meets ends with
  | true => rfl
  | false =>
    have hne : f.id ≠ e.id := fun hid => by
      rw [edge_eq_of_id_eq hf he hid, hm] at hmeets
      cases hmeets
    rw [bne_iff_ne.2 hne]
    rfl

/-! ## Connecting and reconnecting -/

theorem edges_of_connect (ha : ends.Allowed s g) (hok : g.connect s fresh ends.drop = .ok h) :
    h.nodes = g.nodes ∧ h.edges = g.edgesConnecting fresh ends := by
  cases hs : g.survivor? ends with
  | some e =>
    obtain ⟨manner, hm, hr⟩ :=
      resolveConnect_of_survivor fresh (Drop.ends_eq_ok_iff.2 ⟨rfl, ha⟩) hs
    obtain ⟨k, hk, hn, hedges⟩ := apply_plan_of_mem hm (mem_of_survivor? hs) ha
    rw [connect, hr] at hok
    cases hok.symm.trans hk
    rw [edgesConnecting, hs]
    exact ⟨hn, hedges⟩
  | none =>
    rw [connect_of_no_survivor fresh ha hs] at hok
    obtain ⟨-, -, hn, hedges⟩ := addEdge_eq_ok_iff.1 hok
    rw [edgesConnecting, hs]
    exact ⟨hn, hedges⟩

theorem edges_of_reconnect (ha : ends.Allowed s g) (he : e ∈ g.edges)
    (hok : g.reconnect s (some e.id) ends.drop = .ok h) :
    h.nodes = g.nodes ∧ h.edges = g.edgesMoving e ends := by
  obtain ⟨k, hk, hn, hedges⟩ := reconnect_eq ha he
  cases hok.symm.trans hk
  exact ⟨hn, hedges⟩

theorem connections_of_connect (ha : ends.Allowed s g)
    (hok : g.connect s fresh ends.drop = .ok h) :
    h.connections.Perm (ends :: g.connectionsOff ends) := by
  have hedges := (edges_of_connect ha hok).2
  rw [edgesConnecting] at hedges
  cases hs : g.survivor? ends with
  | some e =>
    rw [hs] at hedges
    have he := mem_of_survivor? hs
    rw [← connectionsOff_removeEdge he (meets_of_survivor? hs)]
    exact connections_of_moving he hedges
  | none =>
    rw [hs] at hedges
    have hoff : g.connectionsOff ends = g.connections := by
      rw [connectionsOff_eq, connections, List.filter_eq_self.2]
      intro f hf
      rw [survivor?_eq_none_iff.1 hs f hf]
      rfl
    rw [hoff, connections, hedges, List.map_append]
    exact List.perm_append_singleton _ _

/-! ## Two gestures in either order -/

theorem connections_of_two {a b : Ends} {x y : Identifier} {k : Graph} (ha : a.Allowed s g)
    (hb : b.Allowed s g) (hs : a.sourceKey ≠ b.sourceKey) (ht : a.targetKey ≠ b.targetKey)
    (hfirst : g.connect s x a.drop = .ok h) (hsecond : h.connect s y b.drop = .ok k) :
    k.nodes = g.nodes ∧
      k.connections.Perm (b :: a :: (g.connectionsOff a).filter fun c => !c.meets b) := by
  have hn := (edges_of_connect ha hfirst).1
  have hb' : b.Allowed s h := hb.of_nodes_eq hn
  refine ⟨(edges_of_connect hb' hsecond).1.trans hn, ?_⟩
  -- The second gesture leaves the connection of the first, with which it shares no handle.
  have hkept : (a :: g.connectionsOff a).filter (fun c => !c.meets b) =
      a :: (g.connectionsOff a).filter fun c => !c.meets b := by
    rw [List.filter_cons, Ends.meets_eq_false hs ht]
    rfl
  have hoff : (h.connectionsOff b).Perm (a :: (g.connectionsOff a).filter fun c => !c.meets b) :=
    hkept ▸ (connections_of_connect ha hfirst).filter _
  exact (connections_of_connect hb' hsecond).trans (hoff.cons b)

theorem connect_either_order {a b : Ends} {x y : Identifier} (ha : a.Allowed s g)
    (hb : b.Allowed s g) (hs : a.sourceKey ≠ b.sourceKey) (ht : a.targetKey ≠ b.targetKey)
    (hx : ¬ g.Collides s x a.drop) (hy : ¬ g.Collides s y b.drop) :
    ∃ ga gb, g.connect s x a.drop = .ok ga ∧ g.connect s y b.drop = .ok gb ∧
      ∀ x' y', ¬ ga.Collides s y' b.drop → ¬ gb.Collides s x' a.drop →
        ∃ h k, ga.connect s y' b.drop = .ok h ∧ gb.connect s x' a.drop = .ok k ∧
          h.nodes = g.nodes ∧ k.nodes = g.nodes ∧ h.edges.length = k.edges.length ∧
          (h.edges.map Edge.ends).Perm (k.edges.map Edge.ends) := by
  obtain ⟨ga, hga⟩ := exists_connect_of_not_collides hx
  obtain ⟨gb, hgb⟩ := exists_connect_of_not_collides hy
  refine ⟨ga, gb, hga, hgb, fun x' y' hy' hx' => ?_⟩
  obtain ⟨h, hh⟩ := exists_connect_of_not_collides hy'
  obtain ⟨k, hk⟩ := exists_connect_of_not_collides hx'
  obtain ⟨hnodes, hleft⟩ := connections_of_two ha hb hs ht hga hh
  obtain ⟨hnodes', hright⟩ := connections_of_two hb ha hs.symm ht.symm hgb hk
  -- Whichever of them comes first, the old connections that stay are those on none of the handles.
  have hoff : (g.connectionsOff a).filter (fun c => !c.meets b) =
      (g.connectionsOff b).filter fun c => !c.meets a := List.filter_comm _ _ _
  rw [← hoff] at hright
  have hperm : h.connections.Perm k.connections :=
    hleft.trans ((List.Perm.swap a b _).trans hright.symm)
  have hlength : h.edges.length = k.edges.length := by
    simpa [connections] using hperm.length_eq
  exact ⟨h, k, hh, hk, hnodes, hnodes', hlength, hperm⟩

/-- Ends that every edge of the tangle is in the way of. -/
def crossing : Ends := ⟨"a", none, "c", none⟩

/-- Ends that the first edge of the tangle is moved to. -/
def entering : Ends := ⟨"b", none, "c", some "x"⟩

/-- In one order an edge is new, and in the other one every edge is an old one. -/
theorem connect_either_order_tangle :
    (crossing.Allowed {} tangle ∧ entering.Allowed {} tangle ∧
      crossing.sourceKey ≠ entering.sourceKey ∧ crossing.targetKey ≠ entering.targetKey) ∧
    ∃ ga gb h k,
      tangle.connect {} ⟨"5", by decide⟩ crossing.drop = .ok ga ∧
        ga.connect {} ⟨"5", by decide⟩ entering.drop = .ok h ∧ h.edgeIds = ["2", "5"] ∧
      tangle.connect {} ⟨"5", by decide⟩ entering.drop = .ok gb ∧
        gb.connect {} ⟨"5", by decide⟩ crossing.drop = .ok k ∧ k.edgeIds = ["1", "2"] ∧
      (h.edges.map Edge.ends).Perm (k.edges.map Edge.ends) := by
  have ha : crossing.Allowed {} tangle := ⟨by decide, by decide, by decide⟩
  have hb : entering.Allowed {} tangle := ⟨by decide, by decide, by decide⟩
  have hs : crossing.sourceKey ≠ entering.sourceKey := by decide
  have ht : crossing.targetKey ≠ entering.targetKey := by decide
  have hnew : ∀ d, ¬ tangle.Collides {} ⟨"5", by decide⟩ d := fun d hc => absurd hc.1 (by decide)
  obtain ⟨ga, gb, hga, hgb, hboth⟩ := connect_either_order ha hb hs ht (hnew _) (hnew _)
  obtain ⟨hna, hea⟩ := edges_of_connect ha hga
  obtain ⟨hnb, heb⟩ := edges_of_connect hb hgb
  have hida : "5" ∉ ga.edgeIds := by
    rw [edgeIds, hea]
    decide
  have hidb : "5" ∉ gb.edgeIds := by
    rw [edgeIds, heb]
    decide
  obtain ⟨h, k, hh, hk, -, -, -, hperm⟩ :=
    hboth ⟨"5", by decide⟩ ⟨"5", by decide⟩ (fun hc => hida hc.1) (fun hc => hidb hc.1)
  have hids : h.edgeIds = ["2", "5"] := by
    rw [edgeIds, (edges_of_connect (hb.of_nodes_eq hna) hh).2]
    simp only [edgesConnecting, survivor?, edgesMoving, hea]
    rfl
  have hids' : k.edgeIds = ["1", "2"] := by
    rw [edgeIds, (edges_of_connect (ha.of_nodes_eq hnb) hk).2]
    simp only [edgesConnecting, survivor?, edgesMoving, heb]
    rfl
  exact ⟨⟨ha, hb, hs, ht⟩, ga, gb, h, k, hga, hh, hids, hgb, hk, hids', hperm⟩

/-! ## Dragging and drawing -/

theorem mem_edgesMoving_cases {f : Edge} (hf : f ∈ g.edgesMoving e ends) :
    f = e.rewired ends ∨ f ∈ g.edges ∧ f.meets ends = false := by
  obtain ⟨k, hk, hkf⟩ := List.mem_filterMap.1 hf
  split at hkf
  · cases hkf
    exact .inl rfl
  · split at hkf
    · cases hkf
    · rename_i hmeets
      cases hkf
      exact .inr ⟨hk, Bool.eq_false_iff.2 hmeets⟩

theorem rewired_mem_edgesMoving (he : e ∈ g.edges) : e.rewired ends ∈ g.edgesMoving e ends :=
  List.mem_filterMap.2 ⟨e, he, if_pos rfl⟩

/-- After a gesture one edge joins its ends, and no other is on its handles. -/
theorem exists_joining_of_connect (ha : ends.Allowed s g)
    (hok : g.connect s fresh ends.drop = .ok h) :
    ∃ m ∈ h.edges, m.ends = ends ∧ ∀ f ∈ h.edges, f.meets ends = true → f = m := by
  have hedges := (edges_of_connect ha hok).2
  rw [edgesConnecting] at hedges
  cases hs : g.survivor? ends with
  | some e =>
    rw [hs] at hedges
    refine ⟨e.rewired ends, hedges ▸ rewired_mem_edgesMoving (mem_of_survivor? hs), rfl, ?_⟩
    intro f hf hm
    rcases mem_edgesMoving_cases (hedges ▸ hf) with rfl | ⟨-, hfree⟩
    · rfl
    · rw [hm] at hfree
      cases hfree
  | none =>
    rw [hs] at hedges
    refine ⟨⟨fresh.1, ends, none, fresh.ne_empty⟩, by rw [hedges]; simp, rfl, fun f hf hm => ?_⟩
    rw [hedges, List.mem_append, List.mem_singleton] at hf
    rcases hf with hf | hf
    · have hfree := survivor?_eq_none_iff.1 hs f hf
      rw [hm] at hfree
      cases hfree
    · exact hf

theorem connect_again (ha : ends.Allowed s g) (hok : g.connect s fresh ends.drop = .ok h)
    (next : Identifier) :
    h.connect s next ends.drop = .ok h ∧ (h.resolveConnect s next ends.drop).takesName = false := by
  obtain ⟨m, hm, rfl, halone⟩ := exists_joining_of_connect ha hok
  exact connect_of_joined next (ha.of_nodes_eq (edges_of_connect ha hok).1) hm halone

theorem reconnect_again {edge : Option String} (ha : ends.Allowed s g)
    (hok : g.reconnect s edge ends.drop = .ok h) : h.reconnect s edge ends.drop = .ok h := by
  cases hf : edge.bind g.edge? with
  | none =>
    cases hok.symm.trans (reconnect_of_unknown hf)
    exact hok
  | some e =>
    obtain ⟨id, rfl, hid⟩ := Option.bind_eq_some_iff.1 hf
    obtain ⟨he, rfl⟩ := edge?_eq_some_iff.1 hid
    obtain ⟨hn, hedges⟩ := edges_of_reconnect ha he hok
    have hm : e.rewired ends ∈ h.edges := hedges ▸ rewired_mem_edgesMoving he
    have ha' : (e.rewired ends).ends.Allowed s h := ha.of_nodes_eq hn
    refine reconnect_of_joined ha' hm fun f hf hmeets => ?_
    rcases mem_edgesMoving_cases (hedges ▸ hf) with rfl | ⟨-, hfree⟩
    · rfl
    · rw [show f.meets ends = true from hmeets] at hfree
      cases hfree

/-- An edge that is in the way of a gesture is moved as if it were dragged. -/
theorem connect_eq_reconnect (fresh : Identifier) (ha : ends.Allowed s g)
    (hs : g.survivor? ends = some e) :
    g.connect s fresh ends.drop = g.reconnect s (some e.id) ends.drop := by
  obtain ⟨h, hok⟩ := exists_connect_of_survivor fresh ha hs
  obtain ⟨k, hk, hn, hedges⟩ := reconnect_eq ha (mem_of_survivor? hs)
  obtain ⟨hn', hedges'⟩ := edges_of_connect ha hok
  rw [edgesConnecting, hs] at hedges'
  rw [hok, hk, eq_of_parts (hn.trans hn'.symm) (hedges.trans hedges'.symm)]

/-- Moving an edge leaves the connections that removing it and drawing it anew would leave. -/
theorem connections_of_redrawn {k : Graph} (ha : ends.Allowed s g) (he : e ∈ g.edges)
    (hok : g.reconnect s (some e.id) ends.drop = .ok h)
    (hdrawn : (g.removeEdge e.id).connect s fresh ends.drop = .ok k) :
    h.nodes = k.nodes ∧ (h.edges.map Edge.ends).Perm (k.edges.map Edge.ends) := by
  have ha' : ends.Allowed s (g.removeEdge e.id) := ha.of_nodes_eq rfl
  obtain ⟨hn, hedges⟩ := edges_of_reconnect ha he hok
  exact ⟨hn.trans (edges_of_connect ha' hdrawn).1.symm,
    (connections_of_moving he hedges).trans (connections_of_connect ha' hdrawn).symm⟩

theorem exists_survivor {f : Edge} (hf : f ∈ g.edges)
    (hm : f.sourceKey = ends.sourceKey ∨ f.targetKey = ends.targetKey) :
    ∃ e, g.survivor? ends = some e := by
  cases hs : g.survivor? ends with
  | some e => exact ⟨e, rfl⟩
  | none =>
    have hfree := survivor?_eq_none_iff.1 hs f hf
    rw [Edge.meets_iff.2 hm] at hfree
    cases hfree

theorem gesture_paths_agree (ha : ends.Allowed s g) :
    (∀ f ∈ g.edges, f.sourceKey = ends.sourceKey ∨ f.targetKey = ends.targetKey →
      ∃ e, g.survivor? ends = some e ∧ ∀ fresh,
        g.connect s fresh ends.drop = g.reconnect s (some e.id) ends.drop) ∧
    (∀ e ∈ g.edges, ∀ fresh, ¬ (g.removeEdge e.id).Collides s fresh ends.drop →
      ∃ h k, g.reconnect s (some e.id) ends.drop = .ok h ∧
        (g.removeEdge e.id).connect s fresh ends.drop = .ok k ∧ h.nodes = k.nodes ∧
          (h.edges.map Edge.ends).Perm (k.edges.map Edge.ends)) ∧
    (∀ fresh, ¬ g.Collides s fresh ends.drop → ∃ h, g.connect s fresh ends.drop = .ok h ∧
      ∀ next, h.connect s next ends.drop = .ok h ∧
        (h.resolveConnect s next ends.drop).takesName = false) ∧
    ∀ edge, ∃ h, g.reconnect s edge ends.drop = .ok h ∧ h.reconnect s edge ends.drop = .ok h ∧
      (h.resolveReconnect s edge ends.drop).takesName = false := by
  refine ⟨fun f hf hm => ?_, fun e he fresh hfresh => ?_, fun fresh hfresh => ?_, fun edge => ?_⟩
  · obtain ⟨e, hs⟩ := exists_survivor hf hm
    exact ⟨e, hs, fun fresh => connect_eq_reconnect fresh ha hs⟩
  · obtain ⟨h, hok⟩ := exists_reconnect s g (some e.id) ends.drop
    obtain ⟨k, hk⟩ := exists_connect_of_not_collides hfresh
    exact ⟨h, k, hok, hk, connections_of_redrawn ha he hok hk⟩
  · obtain ⟨h, hok⟩ := exists_connect_of_not_collides hfresh
    exact ⟨h, hok, connect_again ha hok⟩
  · obtain ⟨h, hok⟩ := exists_reconnect s g edge ends.drop
    exact ⟨h, hok, reconnect_again ha hok, takesName_resolveReconnect edge⟩

/-- An edge out of the source of the gesture is moved, and so its name is that of the edge. -/
theorem gesture_paths_agree_tangle :
    Ends.Allowed crossing {} tangle ∧
    (tangle.connect {} ⟨"5", by decide⟩ crossing.drop =
      tangle.reconnect {} (some "2") crossing.drop) ∧
    (∃ h k, tangle.reconnect {} (some "4") crossing.drop = .ok h ∧
      (tangle.removeEdge "4").connect {} ⟨"4", by decide⟩ crossing.drop = .ok k ∧
        (h.edges.map Edge.ends).Perm (k.edges.map Edge.ends)) ∧
    (∃ h, tangle.connect {} ⟨"5", by decide⟩ crossing.drop = .ok h ∧
      h.connect {} ⟨"2", by decide⟩ crossing.drop = .ok h) ∧
    ∃ h, tangle.reconnect {} (some "4") crossing.drop = .ok h ∧
      h.reconnect {} (some "4") crossing.drop = .ok h := by
  have ha : Ends.Allowed crossing {} tangle := ⟨by decide, by decide, by decide⟩
  obtain ⟨hway, hredrawn, hconnect, hreconnect⟩ := gesture_paths_agree ha
  obtain ⟨e, hs, hmoved⟩ :=
    hway ⟨"2", ⟨"a", none, "b", none⟩, some "smooth", by decide⟩ (by decide) (.inl rfl)
  have hid : (tangle.survivor? crossing).map Edge.id = some "2" := rfl
  rw [hs] at hid
  obtain ⟨h, k, hh, hk, -, hperm⟩ :=
    hredrawn ⟨"4", ⟨"b", some "out", "c", none⟩, some "straight", by decide⟩ (by decide)
      ⟨"4", by decide⟩ fun hc => absurd hc.1 (by decide)
  obtain ⟨l, hl, hagain⟩ := hconnect ⟨"5", by decide⟩ fun hc => absurd hc.1 (by decide)
  obtain ⟨m, hm, hstill, -⟩ := hreconnect (some "4")
  exact ⟨ha, Option.some.inj hid ▸ hmoved _, ⟨h, k, hh, hk, hperm⟩, ⟨l, hl, (hagain _).1⟩,
    m, hm, hstill⟩

end Graph
end WorkflowCanvas
