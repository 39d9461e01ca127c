import WorkflowCanvas.Gesture.Resolution
import WorkflowCanvas.Proofs.Graph.Edits

/-! What a gesture leaves behind. A gesture that can be meant lays one edge between two handles:
the first that left the source, or else the first that entered the target, or else a new one.
Main statements: that edge keeps its place, its identifier and its style, every other edge on the
two handles is gone, and all else stays as it was; a gesture that cannot be meant changes nothing
and takes no identifier. -/
namespace WorkflowCanvas
set_option autoImplicit false

/-! ## Gestures that can be meant -/

namespace Ends

/-- The gesture that gives ends. -/
def drop (ends : Ends) : Drop :=
  ⟨some ends.source, ends.sourceHandle, some ends.target, ends.targetHandle⟩

/-- Both ends are nodes, and one node at both only where edges may lead back. -/
structure Allowed (ends : Ends) (s : ConnectionSettings) (g : Graph) : Prop where
  source : ends.source ∈ g.nodeIds
  target : ends.target ∈ g.nodeIds
  loop : ends.source = ends.target → s.allowSelfLoops = true

end Ends

namespace Drop
variable {s : ConnectionSettings} {g : Graph} {d : Drop}

theorem point_eq_ok_iff {node : Option String} {id : String} :
    point g node = .ok id ↔ node = some id ∧ id ∈ g.nodeIds := by
  cases node with
  | none => simp [point]
  | some name =>
    rw [← Graph.hasNode_iff]
    by_cases h : g.hasNode name = true
    · simp only [point, h, if_true, Except.ok.injEq, Option.some.injEq]
      constructor
      · rintro rfl
        exact ⟨rfl, h⟩
      · exact And.left
    · simp only [point, h, Option.some.injEq]
      constructor
      · intro he
        cases he
      · rintro ⟨rfl, hn⟩
        exact absurd hn h

theorem ends_of_points {a b : String} (hs : point g d.source = .ok a)
    (ht : point g d.target = .ok b) :
    d.ends s g = if a == b && !s.allowSelfLoops then .error (.selfLoop a)
      else .ok ⟨a, d.sourceHandle, b, d.targetHandle⟩ := by
  rw [Drop.ends, hs, ht]
  rfl

theorem points_of_ends {ends : Ends} (h : d.ends s g = .ok ends) :
    ∃ a b, point g d.source = .ok a ∧ point g d.target = .ok b := by
  cases hs : point g d.source with
  | error why =>
    rw [Drop.ends, hs] at h
    cases h
  | ok a =>
    cases ht : point g d.target with
    | error why =>
      rw [Drop.ends, hs, ht] at h
      cases h
    | ok b => exact ⟨a, b, rfl, rfl⟩

theorem ends_eq_ok_iff {ends : Ends} :
    d.ends s g = .ok ends ↔ d = ends.drop ∧ ends.Allowed s g := by
  have hloop : ∀ a b : String, (a == b && !s.allowSelfLoops) = true ↔
      ¬ (a = b → s.allowSelfLoops = true) := by simp
  constructor
  · intro h
    obtain ⟨a, b, hs, ht⟩ := points_of_ends h
    rw [ends_of_points hs ht, ite_eq_iff] at h
    obtain ⟨hd, ha⟩ := point_eq_ok_iff.1 hs
    obtain ⟨hd', hb⟩ := point_eq_ok_iff.1 ht
    rcases h with ⟨-, h⟩ | ⟨hl, h⟩
    · cases h
    · cases h
      rw [hloop, not_not] at hl
      obtain ⟨source, sourceHandle, target, targetHandle⟩ := d
      cases hd
      cases hd'
      exact ⟨rfl, ha, hb, hl⟩
  · rintro ⟨rfl, ha⟩
    have hs : point g ends.drop.source = .ok ends.source := point_eq_ok_iff.2 ⟨rfl, ha.source⟩
    have ht : point g ends.drop.target = .ok ends.target := point_eq_ok_iff.2 ⟨rfl, ha.target⟩
    rw [ends_of_points hs ht, if_neg fun hy => (hloop _ _).1 hy ha.loop]
    rfl

/-- A gesture that gives ends which are allowed. -/
def Meant (s : ConnectionSettings) (g : Graph) (d : Drop) : Prop :=
  ∃ ends, d = Ends.drop ends ∧ ends.Allowed s g

theorem exists_ends_eq_error (h : ¬ d.Meant s g) :
    ∃ why, d.ends s g = .error why := by
  cases hd : d.ends s g with
  | error why => exact ⟨why, rfl⟩
  | ok ends => exact absurd ⟨ends, ends_eq_ok_iff.1 hd⟩ h

end Drop

/-! ## Clearing the handles -/

theorem map_filter_eq_filterMap {α β : Type} {xs : List α} {p : α → Bool} {f : α → β}
    {k : α → Option β} (h : ∀ x ∈ xs, k x = if p x then some (f x) else none) :
    (xs.filter p).map f = xs.filterMap k := by
  rw [← List.filterMap_eq_map, List.filterMap_filter]
  exact (List.filterMap_congr h).symm

namespace Graph
variable {s : ConnectionSettings} {g : Graph} {e : Edge} {ends : Ends}

theorem mem_rivals_iff {id : String} :
    id ∈ g.rivals e ↔ id ≠ e.id ∧ ∃ f ∈ g.edges, f.meets e.ends = true ∧ f.id = id := by
  simp only [rivals, edgesAt_eq, Edge.uses_sourceKey, Edge.uses_targetKey, List.mem_eraseDups,
    List.mem_filter, List.mem_map, List.mem_append, bne_iff_ne, Edge.meets, Bool.or_eq_true]
  grind

/-- Cleared of its rivals a graph has on the two handles no edge but the one that comes there. -/
theorem edges_clearing (g : Graph) (e : Edge) :
    (g.removeEdges (g.rivals e)).edges =
      g.edges.filter fun f => f.id == e.id || !f.meets e.ends := by
  rw [edges_removeEdges]
  refine List.filter_congr fun f hf => ?_
  have hrival : f.id ∈ g.rivals e ↔ f.id ≠ e.id ∧ f.meets e.ends = true := by
    rw [mem_rivals_iff]
    constructor
    · rintro ⟨hne, k, hk, hm, hid⟩
      exact ⟨hne, edge_eq_of_id_eq hk hf hid ▸ hm⟩
    · rintro ⟨hne, hm⟩
      exact ⟨hne, f, hf, hm, rfl⟩
  rw [Bool.eq_iff_iff]
  simp only [Bool.not_eq_true', ← Bool.not_eq_true, List.contains_iff_mem, hrival, Bool.or_eq_true,
    beq_iff_eq]
  grind

/-! ## Placing an edge -/

/-- The edges of a graph once one of them was moved between ends: it keeps its place among them,
its identifier and its style, and every other edge on the two handles is gone. -/
def edgesMoving (g : Graph) (e : Edge) (ends : Ends) : List Edge :=
  g.edges.filterMap fun f =>
    if f = e then some { id := e.id, ends := ends, style := e.style, named := e.named }
    else if f.meets ends then none
    else some f

theorem apply_plan_of_mem {manner : Manner} (hm : manner ≠ .created) (he : e ∈ g.edges)
    (ha : ends.Allowed s g) :
    ∃ h, (g.plan manner (e.rewired ends)).apply g = .ok h ∧ h.nodes = g.nodes ∧
      h.edges = g.edgesMoving e ends := by
  have hcreates : (g.plan manner (e.rewired ends)).creates = false := by
    simpa [Plan.creates, plan] using hm
  have hcleared := g.edges_clearing (e.rewired ends)
  have hid : e.id ∈ (g.removeEdges (g.rivals (e.rewired ends))).edgeIds := by
    rw [edgeIds, hcleared]
    exact List.mem_map_of_mem (List.mem_filter.2 ⟨he, by simp [Edge.rewired]⟩)
  have hfits : (g.removeEdges (g.rivals (e.rewired ends))).misfit? (some e.id)
      (e.rewired ends) = none := by
    refine misfit?_eq_none_iff.2 ⟨ha.source, ha.target, fun f hf hi => ?_⟩
    rw [hcleared, List.mem_filter] at hf
    have hne : f.id ≠ e.id := fun heq => hi (congrArg some heq)
    simpa [Edge.rewired, hne] using hf.2
  obtain ⟨h, hok, hn, hedges⟩ :=
    exists_replaceEdge hid (show (e.rewired ends).id = e.id from rfl) hfits
  refine ⟨h, ?_, hn, ?_⟩
  · rw [Plan.apply, if_neg (by simp [hcreates])]
    exact hok
  · rw [hedges, hcleared, Distinct.put, edgesMoving]
    refine map_filter_eq_filterMap fun f hf => ?_
    by_cases hfe : f = e
    · simp [hfe, Edge.rewired]
    · have hne : f.id ≠ e.id := fun heq => hfe (edge_eq_of_id_eq hf he heq)
      cases hmeets : f.meets ends <;> simp [Edge.rewired, hfe, hne, hmeets]

/-- On free handles nothing makes way: the plan of a new edge only adds it. -/
theorem apply_plan_of_free (fresh : Identifier) (hfree : ∀ f ∈ g.edges, f.meets ends = false) :
    (g.plan .created (.plain fresh.1 ends fresh.2)).apply g =
      g.addEdge (.plain fresh.1 ends fresh.2) := by
  have hcleared : (g.removeEdges (g.rivals (.plain fresh.1 ends fresh.2))).edges = g.edges := by
    rw [edges_clearing, List.filter_eq_self]
    intro f hm
    simp [Edge.plain, hfree f hm]
  have hsame : g.removeEdges (g.rivals (.plain fresh.1 ends fresh.2)) = g :=
    eq_of_parts rfl hcleared
  have hcreates : (g.plan .created (.plain fresh.1 ends fresh.2)).creates = true := rfl
  rw [Plan.apply, if_pos hcreates]
  show (g.removeEdges (g.rivals (.plain fresh.1 ends fresh.2))).addEdge _ = _
  rw [hsame]
  rfl

theorem apply_plan_created {fresh : Identifier} (hf : fresh.1 ∉ g.edgeIds)
    (ha : ends.Allowed s g) (hfree : ∀ f ∈ g.edges, f.meets ends = false) :
    ∃ h, (g.plan .created (.plain fresh.1 ends fresh.2)).apply g = .ok h ∧ h.nodes = g.nodes ∧
      h.edges = g.edges ++ [.plain fresh.1 ends fresh.2] := by
  have hfits : g.misfit? none (.plain fresh.1 ends fresh.2) = none := by
    refine misfit?_eq_none_iff.2 ⟨ha.source, ha.target, fun f hm _ => ?_⟩
    simp [Edge.plain, hfree f hm]
  rw [apply_plan_of_free fresh hfree]
  exact exists_addEdge hf hfits

/-! ## Connecting -/

/-- The edge that a gesture between ends moves: the first that leaves the source handle, or else
the first that enters the target handle. -/
def survivor? (g : Graph) (ends : Ends) : Option Edge :=
  (g.edges.find? (·.sourceKey == ends.sourceKey)).or
    (g.edges.find? (·.targetKey == ends.targetKey))

/-- The edges of a graph once ends were connected, with a new edge, of no style, only where there is
none to be moved. -/
def edgesConnecting (g : Graph) (fresh : Identifier) (ends : Ends) : List Edge :=
  match g.survivor? ends with
  | some e => g.edgesMoving e ends
  | none => g.edges ++ [{ id := fresh.1, ends := ends, style := none, named := fresh.ne_empty }]

theorem head?_edgesAt_sourceKey :
    (g.edgesAt ends.sourceKey).head? = g.edges.find? (·.sourceKey == ends.sourceKey) := by
  rw [edgesAt_eq, List.head?_filter]
  simp only [Edge.uses_sourceKey]

theorem head?_edgesAt_targetKey :
    (g.edgesAt ends.targetKey).head? = g.edges.find? (·.targetKey == ends.targetKey) := by
  rw [edgesAt_eq, List.head?_filter]
  simp only [Edge.uses_targetKey]

theorem survivor?_eq_none_iff :
    g.survivor? ends = none ↔ ∀ f ∈ g.edges, f.meets ends = false := by
  simp only [survivor?, Option.or_eq_none_iff, List.find?_eq_none, Edge.meets,
    Bool.or_eq_false_iff, Bool.not_eq_true]
  constructor
  · exact fun h f hf => ⟨h.1 f hf, h.2 f hf⟩
  · exact fun h => ⟨fun f hf => (h f hf).1, fun f hf => (h f hf).2⟩

theorem mem_of_survivor? (h : g.survivor? ends = some e) : e ∈ g.edges := by
  rw [survivor?, Option.or_eq_some_iff] at h
  rcases h with h | ⟨-, h⟩
  · exact List.mem_of_find?_eq_some h
  · exact List.mem_of_find?_eq_some h

theorem meets_of_survivor? (h : g.survivor? ends = some e) : e.meets ends = true := by
  rw [survivor?, Option.or_eq_some_iff] at h
  rw [Edge.meets_iff]
  rcases h with h | ⟨-, h⟩
  · exact .inl (by simpa using List.find?_some h)
  · exact .inr (by simpa using List.find?_some h)

variable {fresh : Identifier} {d : Drop}

theorem resolveConnect_of_survivor (fresh : Identifier) (hd : d.ends s g = .ok ends)
    (he : g.survivor? ends = some e) :
    ∃ manner ≠ Manner.created,
      g.resolveConnect s fresh d = .planned (g.plan manner (e.rewired ends)) := by
  rw [survivor?, ← head?_edgesAt_sourceKey, ← head?_edgesAt_targetKey] at he
  simp only [resolveConnect, hd]
  cases hs : g.edgesAt ends.sourceKey with
  | cons f rest =>
    rw [hs] at he
    cases he
    exact ⟨.toNewTarget, by decide, rfl⟩
  | nil =>
    cases ht : g.edgesAt ends.targetKey with
    | cons f rest =>
      rw [hs, ht] at he
      cases he
      exact ⟨.toNewSource, by decide, rfl⟩
    | nil =>
      rw [hs, ht] at he
      cases he

theorem resolveConnect_of_free (hd : d.ends s g = .ok ends) (he : g.survivor? ends = none) :
    g.resolveConnect s fresh d = .planned (g.plan .created (.plain fresh.1 ends fresh.2)) := by
  rw [survivor?, ← head?_edgesAt_sourceKey, ← head?_edgesAt_targetKey, Option.or_eq_none_iff,
    List.head?_eq_none_iff, List.head?_eq_none_iff] at he
  simp only [resolveConnect, hd, he.1, he.2]

theorem connect_eq (ha : ends.Allowed s g) (hf : fresh.1 ∉ g.edgeIds) :
    (∃ h, g.connect s fresh ends.drop = .ok h ∧ h.nodes = g.nodes ∧
        h.edges = g.edgesConnecting fresh ends) ∧
      (g.resolveConnect s fresh ends.drop).takesName = (g.survivor? ends).isNone := by
  have hd : ends.drop.ends s g = .ok ends := Drop.ends_eq_ok_iff.2 ⟨rfl, ha⟩
  cases he : g.survivor? ends with
  | some e =>
    obtain ⟨manner, hm, hr⟩ := resolveConnect_of_survivor fresh hd he
    rw [connect, hr, edgesConnecting, he]
    exact ⟨apply_plan_of_mem hm (mem_of_survivor? he) ha,
      by simpa [Resolution.takesName, Plan.creates, plan] using hm⟩
  | none =>
    rw [connect, resolveConnect_of_free hd he, edgesConnecting, he]
    exact ⟨apply_plan_created hf ha (survivor?_eq_none_iff.1 he), rfl⟩

/-! ## Reconnecting -/

theorem edgesMoving_of_alone (halone : ∀ f ∈ g.edges, f.meets e.ends = true → f = e) :
    g.edgesMoving e e.ends = g.edges := by
  refine (List.filterMap_congr fun f hf => ?_).trans List.filterMap_some
  by_cases hfe : f = e
  · rw [if_pos hfe, hfe]
  · rw [if_neg hfe, if_neg fun hm => hfe (halone f hf hm)]

theorem edgesMoving_of_settled (he : e ∈ g.edges) (hsame : e.rewired ends = e)
    (hr : g.rivals (e.rewired ends) = []) :
    g.edgesMoving e ends = g.edges := by
  obtain rfl : ends = e.ends := congrArg Edge.ends hsame
  refine edgesMoving_of_alone fun f hf hm => ?_
  by_contra hfe
  have hrival : f.id ∈ g.rivals (e.rewired e.ends) :=
    mem_rivals_iff.2 ⟨fun hid => hfe (edge_eq_of_id_eq hf he hid), f, hf, hm, rfl⟩
  rw [hr] at hrival
  cases hrival

theorem reconnect_eq (ha : ends.Allowed s g) (he : e ∈ g.edges) :
    ∃ h, g.reconnect s (some e.id) ends.drop = .ok h ∧ h.nodes = g.nodes ∧
      h.edges = g.edgesMoving e ends := by
  have hd : ends.drop.ends s g = .ok ends := Drop.ends_eq_ok_iff.2 ⟨rfl, ha⟩
  have hfound : (some e.id).bind g.edge? = some e := edge?_eq_some_iff.2 ⟨he, rfl⟩
  rw [reconnect]
  simp only [resolveReconnect, hfound, hd]
  split
  · rename_i hsettled
    exact ⟨g, rfl, rfl, (edgesMoving_of_settled he hsettled.1 hsettled.2).symm⟩
  · exact apply_plan_of_mem (show Manner.dragged ≠ .created by decide) he ha

/-! ## Ends that are joined already -/

/-- Ends that are joined already, with no other edge on their handles, are joined by no new edge. -/
theorem connect_of_joined (fresh : Identifier) (ha : e.ends.Allowed s g) (he : e ∈ g.edges)
    (halone : ∀ f ∈ g.edges, f.meets e.ends = true → f = e) :
    g.connect s fresh e.ends.drop = .ok g ∧
      (g.resolveConnect s fresh e.ends.drop).takesName = false := by
  have hmeets : e.meets e.ends = true := Edge.meets_iff.2 (.inl rfl)
  have hd : e.ends.drop.ends s g = .ok e.ends := Drop.ends_eq_ok_iff.2 ⟨rfl, ha⟩
  cases hs : g.survivor? e.ends with
  | none =>
    have hfree := survivor?_eq_none_iff.1 hs e he
    rw [hmeets] at hfree
    cases hfree
  | some f =>
    obtain rfl : f = e := halone f (mem_of_survivor? hs) (meets_of_survivor? hs)
    obtain ⟨manner, hm, hr⟩ := resolveConnect_of_survivor fresh hd hs
    obtain ⟨h, hok, hn, hedges⟩ := apply_plan_of_mem hm he ha
    obtain rfl : h = g := eq_of_parts hn (hedges.trans (edgesMoving_of_alone halone))
    rw [connect, hr]
    exact ⟨hok, by simpa [Resolution.takesName, Plan.creates, plan] using hm⟩

theorem reconnect_of_joined (ha : e.ends.Allowed s g) (he : e ∈ g.edges)
    (halone : ∀ f ∈ g.edges, f.meets e.ends = true → f = e) :
    g.reconnect s (some e.id) e.ends.drop = .ok g := by
  obtain ⟨h, hok, hn, hedges⟩ := reconnect_eq ha he
  obtain rfl : h = g := eq_of_parts hn (hedges.trans (edgesMoving_of_alone halone))
  exact hok

theorem takesName_resolveReconnect (edge : Option String) :
    (g.resolveReconnect s edge d).takesName = false := by
  unfold resolveReconnect
  split
  · rfl
  · split
    · rfl
    · dsimp only
      split
      · rfl
      · rfl

/-! ## Gestures that are ignored -/

theorem connect_of_not_meant (h : ¬ d.Meant s g) :
    g.connect s fresh d = .ok g ∧ (g.resolveConnect s fresh d).takesName = false := by
  obtain ⟨why, hw⟩ := Drop.exists_ends_eq_error h
  have hr : g.resolveConnect s fresh d = .ignored why := by simp only [resolveConnect, hw]
  rw [connect, hr]
  exact ⟨rfl, rfl⟩

theorem reconnect_of_not_meant (h : ¬ d.Meant s g) (edge : Option String) :
    g.reconnect s edge d = .ok g := by
  obtain ⟨why, hw⟩ := Drop.exists_ends_eq_error h
  rw [reconnect]
  cases hf : edge.bind g.edge? with
  | none =>
    simp only [resolveReconnect, hf]
    rfl
  | some e =>
    simp only [resolveReconnect, hf, hw]
    rfl

theorem reconnect_of_unknown {edge : Option String} (h : edge.bind g.edge? = none) :
    g.reconnect s edge d = .ok g := by
  rw [reconnect]
  simp only [resolveReconnect, h]
  rfl

/-! ## All gestures -/

theorem gesture_outcome (s : ConnectionSettings) (fresh : Identifier) (g : Graph) :
    (∀ ends : Ends, ends.Allowed s g →
      (fresh.1 ∉ g.edgeIds →
        (∃ h, g.connect s fresh ends.drop = .ok h ∧ h.nodes = g.nodes ∧
          h.edges = g.edgesConnecting fresh ends) ∧
        (g.resolveConnect s fresh ends.drop).takesName = (g.survivor? ends).isNone) ∧
      ∀ e ∈ g.edges, ∃ h, g.reconnect s (some e.id) ends.drop = .ok h ∧ h.nodes = g.nodes ∧
        h.edges = g.edgesMoving e ends) ∧
    (∀ d : Drop, ¬ d.Meant s g →
      g.connect s fresh d = .ok g ∧ (g.resolveConnect s fresh d).takesName = false ∧
        ∀ edge, g.reconnect s edge d = .ok g) ∧
    ∀ (edge : Option String) (d : Drop),
      (edge.bind g.edge? = none → g.reconnect s edge d = .ok g) ∧
        (g.resolveReconnect s edge d).takesName = false := by
  refine ⟨fun ends ha => ⟨fun hf => connect_eq ha hf, fun e he => reconnect_eq ha he⟩,
    fun d hd => ?_, fun edge d => ⟨reconnect_of_unknown, takesName_resolveReconnect edge⟩⟩
  obtain ⟨hc, hn⟩ := connect_of_not_meant hd
  exact ⟨hc, hn, reconnect_of_not_meant hd⟩

/-! ## Handles that were shared before -/

/-- An edge that leaves a handle which another edge leaves as well. -/
def tangled : Edge := .plain "3" ⟨"a", none, "b", some "in"⟩ (by decide)

/-- Three nodes with two edges out of the first and two into the last, some with a style. -/
def tangle : Graph where
  nodes := [⟨"a", {}, .start ⟨"Start", none⟩, by decide⟩,
    ⟨"b", {}, .agent ⟨"writer", none, "writer", none, none⟩, by decide⟩,
    ⟨"c", {}, .finish ⟨"End", none⟩, by decide⟩]
  edges := [.plain "1" ⟨"b", none, "c", none⟩ (by decide),
    ⟨"2", ⟨"a", none, "b", none⟩, some "smooth", by decide⟩,
    tangled,
    ⟨"4", ⟨"b", some "out", "c", none⟩, some "straight", by decide⟩]
  nodes_distinct := by decide
  edges_distinct := by decide
  anchored := by decide

theorem gesture_tangle :
    (("5" ∉ tangle.edgeIds ∧ Ends.Allowed ⟨"a", none, "c", none⟩ {} tangle ∧
      ∃ h, tangle.connect {} ⟨"5", by decide⟩ (Ends.drop ⟨"a", none, "c", none⟩) = .ok h ∧
        h.edges = [⟨"2", ⟨"a", none, "c", none⟩, some "smooth", by decide⟩]) ∧
      (∃ h, tangle.reconnect {} (some "4") (Ends.drop ⟨"a", none, "c", none⟩) = .ok h ∧
        h.edges = [⟨"4", ⟨"a", none, "c", none⟩, some "straight", by decide⟩]) ∧
      Ends.Allowed ⟨"a", some "new", "c", some "new"⟩ {} tangle ∧
      ∃ h, tangle.connect {} ⟨"5", by decide⟩ (Ends.drop ⟨"a", some "new", "c", some "new"⟩) =
          .ok h ∧
        h.edges = tangle.edges ++
          [⟨"5", ⟨"a", some "new", "c", some "new"⟩, none, by decide⟩]) ∧
    (¬ Drop.Meant {} tangle ⟨some "a", none, some "a", none⟩ ∧
      tangle.connect {} ⟨"5", by decide⟩ ⟨some "a", none, some "a", none⟩ = .ok tangle) ∧
    (some "5").bind tangle.edge? = none ∧
      tangle.reconnect {} (some "5") (Ends.drop ⟨"a", none, "c", none⟩) = .ok tangle := by
  have hnew : "5" ∉ tangle.edgeIds := by decide
  have ha : Ends.Allowed ⟨"a", none, "c", none⟩ {} tangle := ⟨by decide, by decide, by decide⟩
  have hfree : Ends.Allowed ⟨"a", some "new", "c", some "new"⟩ {} tangle :=
    ⟨by decide, by decide, by decide⟩
  have hloop : ¬ Drop.Meant {} tangle ⟨some "a", none, some "a", none⟩ := by
    rintro ⟨⟨_, _, _, _⟩, hd, -, -, hl⟩
    cases hd
    exact absurd (hl rfl) (by decide)
  have hunknown : (some "5").bind tangle.edge? = none := by decide
  obtain ⟨hall, hignored, hother⟩ := gesture_outcome {} ⟨"5", by decide⟩ tangle
  obtain ⟨hconnect, hreconnect⟩ := hall _ ha
  obtain ⟨h, hok, -, hedges⟩ := (hconnect hnew).1
  obtain ⟨k, hok', -, hedges'⟩ :=
    hreconnect ⟨"4", ⟨"b", some "out", "c", none⟩, some "straight", by decide⟩ (by decide)
  obtain ⟨j, hok'', -, hedges''⟩ := ((hall _ hfree).1 hnew).1
  exact ⟨⟨⟨hnew, ha, h, hok, hedges⟩, ⟨k, hok', hedges'⟩, hfree, j, hok'', hedges''⟩,
    ⟨hloop, (hignored _ hloop).1⟩, hunknown, (hother _ _).1 hunknown⟩

end Graph
end WorkflowCanvas
