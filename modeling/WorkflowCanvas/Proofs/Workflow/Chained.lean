import WorkflowCanvas.Graph.Draft
import WorkflowCanvas.Proofs.Workflow.Rebuilt

/-! Rows of nodes that are chained. Main statement: a start, step groups and an end that are chained
in a draft give a graph exactly when no name of an edge can be cut at two places into neighbours;
that graph is one line, which compiles to the steps in their order, and otherwise an edge is told
as repeated. -/
namespace WorkflowCanvas
set_option autoImplicit false

/-! ## Flaws of a chain -/

namespace Graph
variable {nodes groups : List Node} {edges : List Edge} {flaw : Flaw} {g : Graph}
  {start finish : Node}

/-- Edges between nodes are flawed only in what they are called. -/
theorem exists_repeat_of_edgesFlaw? {ids taken : List String}
    (h : edgesFlaw? ids taken edges = some flaw)
    (ha : ∀ e ∈ edges, e.source ∈ ids ∧ e.target ∈ ids) :
    ∃ e ∈ edges, flaw = .repeatedEdge e.id := by
  induction edges generalizing taken with
  | nil => cases h
  | cons e rest ih =>
    obtain ⟨⟨hs, ht⟩, hrest⟩ := List.forall_mem_cons.1 ha
    rw [edgesFlaw?] at h
    by_cases hid : e.id ∈ taken
    · have hrepeat : edgeFlaw? ids taken e = some (.repeatedEdge e.id) := if_pos hid
      rw [hrepeat, Option.some_or] at h
      cases h
      exact ⟨e, List.mem_cons_self, rfl⟩
    · rw [edgeFlaw?_eq_none_iff.2 ⟨hid, hs, ht⟩, Option.none_or] at h
      obtain ⟨f, hf, rfl⟩ := ih h hrest
      exact ⟨f, List.mem_cons_of_mem _ hf, rfl⟩

theorem exists_repeat_of_flaw? (h : flaw? nodes edges = some flaw)
    (hn : (nodes.map Node.id).Nodup)
    (ha : ∀ e ∈ edges, e.source ∈ nodes.map Node.id ∧ e.target ∈ nodes.map Node.id) :
    ∃ e ∈ edges, flaw = .repeatedEdge e.id := by
  have hnodes : firstRepeat [] (nodes.map Node.id) = none :=
    firstRepeat_eq_none_iff.2 ⟨hn, by simp⟩
  rw [flaw?, hnodes] at h
  exact exists_repeat_of_edgesFlaw? h ha

end Graph

/-! ## Chained drafts -/

namespace GraphDraft
variable {start finish : Node} {groups nodes : List Node} {batches : List (List Node)} {g : Graph}

/-- A draft of nodes that come one by one or several at a time, and then of a chain. -/
def chained (batches : List (List Node)) (ids : List String) : GraphDraft :=
  (batches.foldl addNodes {}).chain ids

theorem foldl_addNodes (d : GraphDraft) (batches : List (List Node)) :
    batches.foldl addNodes d = d.addNodes batches.flatten := by
  induction batches generalizing d with
  | nil => simp [addNodes]
  | cons nodes rest ih =>
    rw [List.foldl_cons, ih]
    simp [addNodes]

theorem build_chained (batches : List (List Node)) (ids : List String) :
    (chained batches ids).build = Graph.build batches.flatten (Chain.links ids) := by
  rw [chained, foldl_addNodes]
  rfl

theorem anchored_chain {ids : List String} (h : (nodes.map Node.id).Perm ids) :
    ∀ e ∈ Chain.links ids, e.source ∈ nodes.map Node.id ∧ e.target ∈ nodes.map Node.id := by
  intro e he
  rw [h.mem_iff, h.mem_iff]
  exact Chain.anchored_links he

theorem exists_chained_iff {ids : List String} (hn : ids.Nodup)
    (hp : (batches.flatten.map Node.id).Perm ids) :
    (∃ g, (chained batches ids).build = .ok g) ↔ ¬ Chain.Ambiguous ids := by
  rw [build_chained, ← Chain.nodup_links_iff hn]
  constructor
  · rintro ⟨g, hg⟩
    rw [← (Graph.build_eq_ok_iff.1 hg).2]
    exact g.edges_distinct
  · intro hlinks
    exact Graph.exists_build
      (Graph.flaw?_eq_none_iff.2 ⟨hp.nodup_iff.2 hn, hlinks, anchored_chain hp⟩)

theorem chained_of_ambiguous {ids : List String} (hn : ids.Nodup)
    (hp : (batches.flatten.map Node.id).Perm ids) (h : Chain.Ambiguous ids) :
    ∃ e ∈ Chain.links ids,
      (chained batches ids).build = .error (.integrity (.repeatedEdge e.id)) := by
  have hnone : ¬ ∃ g, (chained batches ids).build = .ok g :=
    fun hg => (exists_chained_iff hn hp).1 hg h
  rw [build_chained] at hnone ⊢
  rcases Graph.build_cases batches.flatten (Chain.links ids) with hg | ⟨flaw, hflaw, herror⟩
  · exact absurd hg hnone
  · obtain ⟨e, he, rfl⟩ :=
      Graph.exists_repeat_of_flaw? hflaw (hp.nodup_iff.2 hn) (anchored_chain hp)
    exact ⟨e, he, herror⟩

theorem chained_iff {ids : List String} (hs : start.kind = .start)
    (hg : ∀ n ∈ groups, n.kind = .stepGroup) (hf : finish.kind = .finish)
    (hids : (Graph.row start groups finish).map Node.id = ids) (hn : ids.Nodup)
    (hp : batches.flatten.Perm (Graph.row start groups finish)) :
    ((∃ g, (chained batches ids).build = .ok g) ↔ ¬ Chain.Ambiguous ids) ∧
    (∀ g, (chained batches ids).build = .ok g → g.nodes = batches.flatten ∧
      g.edges.map (fun e => (e.source, e.target)) = neighbours ids ∧
      ∀ m, ∃ steps, g.compile m = .ok ⟨m, steps⟩ ∧
        List.Forall₂ Payload.Becomes (groups.map Node.payload) steps) ∧
    (Chain.Ambiguous ids → ∃ e ∈ Chain.links ids,
      (chained batches ids).build = .error (.integrity (.repeatedEdge e.id))) := by
  have hadded : (batches.flatten.map Node.id).Perm ids := hids ▸ hp.map Node.id
  refine ⟨exists_chained_iff hn hadded, fun g hbuild => ?_, chained_of_ambiguous hn hadded⟩
  rw [build_chained] at hbuild
  obtain ⟨hnodes, hedges⟩ := Graph.build_eq_ok_iff.1 hbuild
  have hends : g.edges.map (fun e => (e.source, e.target)) = neighbours ids := by
    rw [hedges, Chain.ends_links]
  have hline : g.Line start groups finish :=
    ⟨hs, hg, hf, hnodes ▸ hp, hids ▸ hends ▸ List.Perm.refl _⟩
  exact ⟨hnodes, hends, fun m => ⟨g.steps, hline.compile_eq m, hline.becomes_steps⟩⟩

/-- The nodes come out of order, two of them at once. -/
def sampleBatches : List (List Node) :=
  [[Graph.sampleCheck, Graph.sampleFinish], [Graph.sampleStart], [Graph.sampleDraft]]

theorem chained_sample : ∃ g,
    (chained sampleBatches ["s", "draft", "check", "e"]).build = .ok g ∧
      g.compile Graph.sampleMetadata = .ok ⟨Graph.sampleMetadata, Graph.sampleSteps⟩ := by
  have hline := Graph.sample_line
  have hadded : sampleBatches.flatten.Perm _ := hline.covers
  obtain ⟨hbuilt, hcompiles, -⟩ :=
    chained_iff hline.starts hline.steps hline.finishes rfl (by decide) hadded
  obtain ⟨g, hg⟩ := hbuilt.2 (Chain.not_ambiguous_of_plain (by decide))
  obtain ⟨steps, hc, hs⟩ := (hcompiles g hg).2.2 Graph.sampleMetadata
  rw [Graph.eq_sampleSteps hs] at hc
  exact ⟨g, hg, hc⟩

/-! ## Hyphens that meet -/

def hyphenedStart : Node := { Graph.sampleStart with id := "x", named := by decide }

def hyphenedGroups : List Node :=
  [{ Graph.sampleDraft with id := "y-z", named := by decide },
    { Graph.sampleCheck with id := "x-y", named := by decide }]

def hyphenedFinish : Node := { Graph.sampleFinish with id := "z", named := by decide }

/-- The first edge and the last are both named for x, y and z. -/
theorem build_hyphened :
    (hyphenedStart.kind = .start ∧ (∀ n ∈ hyphenedGroups, n.kind = .stepGroup) ∧
      hyphenedFinish.kind = .finish) ∧
    ((Graph.row hyphenedStart hyphenedGroups hyphenedFinish).map Node.id).Nodup ∧
    (chained [Graph.row hyphenedStart hyphenedGroups hyphenedFinish]
      ((Graph.row hyphenedStart hyphenedGroups hyphenedFinish).map Node.id)).build =
        .error (.integrity (.repeatedEdge "e-x-y-z")) :=
  ⟨⟨rfl, by decide, rfl⟩, by decide, rfl⟩

end GraphDraft
end WorkflowCanvas
