import WorkflowCanvas.Proofs.Workflow.Compiled
import WorkflowCanvas.Proofs.Workflow.Wording

/-! What a verdict tells of paths. Main statement: the search along edges, or against them, is over
within one turn for the origin, one for each edge and one in which it is seen to be over, and it
finds exactly what a path joins to the origin; so a verdict on a graph with one start and one end
tells whether the end is reached, which step groups the start does not reach, and which of the
others do not reach the end. -/
namespace WorkflowCanvas.Graph
open Relation
set_option autoImplicit false

variable {g : Graph}

/-! ## Searching along edges and against them -/

theorem length_following (g : Graph) (node : String) :
    (g.following node).length = (g.edges.map Edge.source).count node := by
  rw [following, List.length_map, outgoing_eq, List.count, List.countP_map,
    List.countP_eq_length_filter]
  rfl

theorem length_preceding (g : Graph) (node : String) :
    (g.preceding node).length = (g.edges.map Edge.target).count node := by
  rw [preceding, List.length_map, incoming_eq, List.count, List.countP_map,
    List.countP_eq_length_filter]
  rfl

theorem reachFor_following (g : Graph) (origin : String) :
    Search.reachFor g.following (g.edges.length + 2) [origin] [] = some (g.reachable origin) := by
  apply Search.reachFor_eq (g.edges.map Edge.source)
  · simp
  · exact g.closed_following_cons origin
  · exact g.length_following
  · rw [Search.unknown_nil, List.length_map, List.length_singleton]
    omega

theorem reachFor_preceding (g : Graph) (goal : String) :
    Search.reachFor g.preceding (g.edges.length + 2) [goal] [] = some (g.reaching goal) := by
  apply Search.reachFor_eq (g.edges.map Edge.target)
  · simp
  · exact g.closed_preceding_cons goal
  · exact g.length_preceding
  · rw [Search.unknown_nil, List.length_map, List.length_singleton]
    omega

/-! ## Rows of step groups -/

/-- The identifiers of the step groups that have a property, in the order of the nodes and each
once. -/
structure ListsGroups (g : Graph) (P : String → Prop) (ids : List String) : Prop where
  ordered : ids.Sublist g.nodeIds
  distinct : ids.Nodup
  exact : ∀ n ∈ g.nodes, n.id ∈ ids ↔ n.kind = .stepGroup ∧ P n.id

theorem listsGroups_groupsWhere {test : String → Bool} {P : String → Prop}
    (h : ∀ id, test id = true ↔ P id) : g.ListsGroups P (g.groupsWhere test) := by
  have hordered : (g.groupsWhere test).Sublist g.nodeIds :=
    (List.filter_sublist.trans List.filter_sublist).map Node.id
  refine ⟨hordered, g.nodes_distinct.sublist hordered, fun n hn => ?_⟩
  rw [← h, groupsWhere, nodesOfKind]
  constructor
  · intro hm
    obtain ⟨m, hm, hid⟩ := List.mem_map.1 hm
    rw [List.mem_filter, List.mem_filter, beq_iff_eq] at hm
    rw [← node_eq_of_id_eq hm.1.1 hn hid]
    exact ⟨hm.1.2, hm.2⟩
  · rintro ⟨hk, ht⟩
    refine List.mem_map_of_mem (List.mem_filter.2 ⟨List.mem_filter.2 ⟨hn, ?_⟩, ht⟩)
    exact beq_iff_eq.2 hk

theorem listsGroups_disconnectedFrom (g : Graph) (start : Node) :
    g.ListsGroups (fun id => ¬ ReflTransGen g.Joins start.id id) (g.disconnectedFrom start) := by
  rw [disconnectedFrom]
  refine listsGroups_groupsWhere fun id => ?_
  rw [Bool.not_eq_true', ← Bool.not_eq_true, List.contains_iff_mem, mem_reachable_iff]

theorem listsGroups_deadEndsBetween (g : Graph) (start finish : Node) :
    g.ListsGroups
      (fun id => ReflTransGen g.Joins start.id id ∧ ¬ ReflTransGen g.Joins id finish.id)
      (g.deadEndsBetween start finish) := by
  rw [deadEndsBetween]
  refine listsGroups_groupsWhere fun id => ?_
  rw [Bool.and_eq_true, Bool.not_eq_true', ← Bool.not_eq_true, List.contains_iff_mem,
    List.contains_iff_mem, mem_reachable_iff, mem_reaching_iff]

/-! ## An end that is not reached -/

theorem endUnreachable_mem_violations {start finish : Node}
    (ht : g.terminals? = some (start, finish)) :
    .endUnreachable ∈ g.violations ↔ ¬ ReflTransGen g.Joins start.id finish.id := by
  have hstarts : .endUnreachable ∉ countViolations .noStart .severalStarts
      (g.nodesOfKind .start).length := fun h => by
    rcases mem_countViolations h with h | h <;> cases h
  have hends : .endUnreachable ∉ countViolations .noEnd .severalEnds
      (g.nodesOfKind .finish).length := fun h => by
    rcases mem_countViolations h with h | h <;> cases h
  have hpath : .endUnreachable ∈ g.pathViolations start finish ↔
      ¬ ReflTransGen g.Joins start.id finish.id := by
    rw [← mem_reachable_iff, pathViolations]
    simp
  rw [← hpath]
  simp [violations, ht, hstarts, hends, sharedHandles, branchings]

theorem endUnreachable_told_iff {start finish : Node}
    (ht : g.terminals? = some (start, finish)) :
    Violation.endUnreachable.message ∈ g.verdict.structural ↔
      ¬ ReflTransGen g.Joins start.id finish.id := by
  rw [← endUnreachable_mem_violations ht]
  constructor
  · intro hm
    obtain ⟨v, hv, hmessage⟩ := List.mem_map.1 hm
    rwa [Violation.message_eq_endUnreachable_iff.1 hmessage] at hv
  · exact List.mem_map_of_mem

/-! ## The verdict -/

theorem only?_eq_none {α : Type} {xs : List α} (h : xs.length ≠ 1) : only? xs = none := by
  match xs with
  | [] => rfl
  | [a] => exact absurd rfl h
  | a :: b :: rest => rfl

theorem terminals?_eq_none
    (h : (g.nodesOfKind .start).length ≠ 1 ∨ (g.nodesOfKind .finish).length ≠ 1) :
    g.terminals? = none := by
  rw [terminals?, start?, finish?]
  rcases h with hs | hf
  · rw [only?_eq_none hs]
    rfl
  · rw [only?_eq_none hf]
    cases only? (g.nodesOfKind .start) <;> rfl

theorem paths_told (g : Graph) :
    (∀ origin,
      Search.reachFor g.following (g.edges.length + 2) [origin] [] = some (g.reachable origin) ∧
      Search.reachFor g.preceding (g.edges.length + 2) [origin] [] = some (g.reaching origin) ∧
      ∀ n, (n ∈ g.reachable origin ↔ ReflTransGen g.Joins origin n) ∧
        (n ∈ g.reaching origin ↔ ReflTransGen g.Joins n origin)) ∧
    (∀ start finish, g.nodesOfKind .start = [start] → g.nodesOfKind .finish = [finish] →
      ("End node is not reachable from Start node" ∈ g.verdict.structural ↔
        ¬ ReflTransGen g.Joins start.id finish.id) ∧
      g.ListsGroups (fun id => ¬ ReflTransGen g.Joins start.id id) g.verdict.disconnected ∧
      g.ListsGroups
        (fun id => ReflTransGen g.Joins start.id id ∧ ¬ ReflTransGen g.Joins id finish.id)
        g.verdict.deadEnds) ∧
    ((g.nodesOfKind .start).length ≠ 1 ∨ (g.nodesOfKind .finish).length ≠ 1 →
      g.verdict.disconnected = [] ∧ g.verdict.deadEnds = []) := by
  refine ⟨fun origin => ?_, fun start finish hs hf => ?_, fun h => ?_⟩
  · exact ⟨g.reachFor_following origin, g.reachFor_preceding origin,
      fun n => ⟨mem_reachable_iff, mem_reaching_iff⟩⟩
  · have ht := terminals?_eq_some hs hf
    have hdisconnected : g.verdict.disconnected = g.disconnectedFrom start := by
      simp [verdict, Verdict.ofReview, review, ht]
    have hdeadEnds : g.verdict.deadEnds = g.deadEndsBetween start finish := by
      simp [verdict, Verdict.ofReview, review, ht]
    rw [hdisconnected, hdeadEnds]
    exact ⟨endUnreachable_told_iff ht, g.listsGroups_disconnectedFrom start,
      g.listsGroups_deadEndsBetween start finish⟩
  · simp [verdict, Verdict.ofReview, review, terminals?_eq_none h]

/-- A draft that leads nowhere, and a check that nothing leads to. -/
def scattered : Graph where
  nodes := [sampleCheck, sampleStart, sampleDraft, sampleFinish]
  edges := [.plain "leaving" ⟨"s", none, "draft", none⟩ (by decide),
    .plain "arriving" ⟨"check", none, "e", none⟩ (by decide)]
  nodes_distinct := by decide
  edges_distinct := by decide
  anchored := by decide

theorem paths_told_scattered :
    (Search.reachFor scattered.following 4 ["s"] [] = some ["draft", "s"] ∧
      scattered.reachable "s" = ["draft", "s"]) ∧
    ((scattered.nodesOfKind .start = [sampleStart] ∧
        scattered.nodesOfKind .finish = [sampleFinish]) ∧
      "End node is not reachable from Start node" ∈ scattered.verdict.structural ∧
      ("check" ∈ scattered.verdict.disconnected ∧ "draft" ∉ scattered.verdict.disconnected) ∧
      "draft" ∈ scattered.verdict.deadEnds ∧ "check" ∉ scattered.verdict.deadEnds) ∧
    (empty.nodesOfKind .start).length ≠ 1 ∧
      empty.verdict.disconnected = [] ∧ empty.verdict.deadEnds = [] := by
  obtain ⟨hsearch, hverdict, -⟩ := paths_told scattered
  have hfrom : scattered.reachable "s" = ["draft", "s"] := by
    have hturns : Search.reachFor scattered.following 4 ["s"] [] = some ["draft", "s"] := by decide
    exact Option.some.inj ((hsearch "s").1.symm.trans hturns)
  have hto : scattered.reaching "e" = ["check", "e"] := by
    have hturns : Search.reachFor scattered.preceding 4 ["e"] [] = some ["check", "e"] := by decide
    exact Option.some.inj ((hsearch "e").2.1.symm.trans hturns)
  have hpath : ∀ n, ReflTransGen scattered.Joins "s" n ↔ n = "draft" ∨ n = "s" := by
    intro n
    rw [← ((hsearch "s").2.2 n).1, hfrom]
    simp
  have hback : ∀ n, ReflTransGen scattered.Joins n "e" ↔ n = "check" ∨ n = "e" := by
    intro n
    rw [← ((hsearch "e").2.2 n).2, hto]
    simp
  have hs : scattered.nodesOfKind .start = [sampleStart] := rfl
  have hf : scattered.nodesOfKind .finish = [sampleFinish] := rfl
  have hnone : (empty.nodesOfKind .start).length ≠ 1 := by decide
  obtain ⟨hend, hdisconnected, hdeadEnds⟩ := hverdict _ _ hs hf
  have hcheck : sampleCheck ∈ scattered.nodes := .head _
  have hdraft : sampleDraft ∈ scattered.nodes := .tail _ (.tail _ (.head _))
  refine ⟨⟨(hsearch "s").1.trans (congrArg some hfrom), hfrom⟩, ⟨⟨hs, hf⟩, ?_, ⟨?_, ?_⟩, ?_, ?_⟩,
    hnone, (paths_told empty).2.2 (.inl hnone)⟩
  · exact hend.2 fun hp => absurd ((hpath "e").1 hp) (by decide)
  · refine (hdisconnected.exact sampleCheck hcheck).2 ⟨rfl, fun hp => ?_⟩
    exact absurd ((hpath "check").1 hp) (by decide)
  · intro hm
    exact ((hdisconnected.exact sampleDraft hdraft).1 hm).2 ((hpath "draft").2 (.inl rfl))
  · refine (hdeadEnds.exact sampleDraft hdraft).2 ⟨rfl, (hpath "draft").2 (.inl rfl), fun hp => ?_⟩
    exact absurd ((hback "draft").1 hp) (by decide)
  · intro hm
    have hp := ((hdeadEnds.exact sampleCheck hcheck).1 hm).2.1
    exact absurd ((hpath "check").1 hp) (by decide)

end WorkflowCanvas.Graph
