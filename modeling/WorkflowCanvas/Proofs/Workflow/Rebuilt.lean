import WorkflowCanvas.Proofs.Workflow.Compiled
import WorkflowCanvas.Proofs.Workflow.Linked
import WorkflowCanvas.Workflow.Archive

/-! Graphs that are rebuilt from steps. Main statements: the identifiers of nodes and edges that a
rebuilt graph gets never meet, so that every row of steps gives a graph; with a step that graph is
one line, which compiles to the very steps it was rebuilt from; without steps it is two ends that
do not compile. -/
namespace WorkflowCanvas
set_option autoImplicit false

/-! ## Identifiers of steps -/

namespace Decimal

theorem digitsOf_injective {m n : Nat} (h : digitsOf m = digitsOf n) : m = n := by
  rw [← ofDigits_digitsOf m, h, ofDigits_digitsOf]

theorem hyphen_not_mem_digitsOf (n : Nat) : '-' ∉ digitsOf n := by
  have hdigit : ∀ k : Fin 10, '-' ≠ digitChar k := by decide
  induction n using digitsOf.induct with
  | case1 n h =>
    rw [digitsOf, if_pos h, List.mem_singleton]
    exact hdigit ⟨n, h⟩
  | case2 n h ih =>
    rw [digitsOf, if_neg h, List.mem_append, List.mem_singleton, not_or]
    exact ⟨ih, hdigit ⟨n % 10, Nat.mod_lt _ (by decide)⟩⟩

end Decimal

namespace Rebuild

theorem toList_stepId (index : Nat) :
    (stepId index).toList = 's' :: 't' :: 'e' :: 'p' :: '-' :: Decimal.digitsOf index := by
  simp [stepId]

theorem stepId_injective {m n : Nat} (h : stepId m = stepId n) : m = n := by
  have hl := congrArg String.toList h
  rw [toList_stepId, toList_stepId] at hl
  simp only [List.cons.injEq, true_and] at hl
  exact Decimal.digitsOf_injective hl

theorem startId_ne_stepId (n : Nat) : startId ≠ stepId n := by
  intro h
  have hl := congrArg String.toList h
  rw [toList_stepId] at hl
  simp [startId] at hl

theorem finishId_ne_stepId (n : Nat) : finishId ≠ stepId n := by
  intro h
  have hl := congrArg String.toList h
  rw [toList_stepId] at hl
  simp [finishId] at hl

/-! ## Identifiers of nodes -/

variable {layout : Layout} {steps : List Step}

theorem ids_tail (index : Nat) (y : Float) (steps : List Step) :
    (tail layout index y steps).map Node.id =
      (List.range' index steps.length).map stepId ++ [finishId] := by
  induction steps generalizing index y with
  | nil => rfl
  | cons s rest ih =>
    rw [tail, List.map_cons, ih, List.length_cons, List.range'_succ]
    rfl

theorem ids_nodes (layout : Layout) (steps : List Step) :
    (nodes layout steps).map Node.id =
      startId :: ((List.range' 1 steps.length).map stepId ++ [finishId]) := by
  rw [nodes, List.map_cons, ids_tail]
  rfl

theorem nodup_ids_nodes (layout : Layout) (steps : List Step) :
    ((nodes layout steps).map Node.id).Nodup := by
  have hsteps : ((List.range' 1 steps.length).map stepId).Nodup :=
    List.Nodup.map_on (fun _ _ _ _ h => stepId_injective h) List.nodup_range'
  rw [ids_nodes, List.nodup_cons, List.nodup_append]
  refine ⟨?_, hsteps, by simp, ?_⟩
  · simp only [List.mem_append, List.mem_map, List.mem_singleton, not_or, not_exists, not_and]
    exact ⟨fun n _ h => startId_ne_stepId n h.symm, by decide⟩
  · intro a ha b hb
    obtain ⟨n, -, rfl⟩ := List.mem_map.1 ha
    rw [List.mem_singleton.1 hb]
    exact (finishId_ne_stepId n).symm

/-! ## Identifiers of edges -/

theorem not_ambiguous_ids (layout : Layout) (steps : List Step) :
    ¬ Chain.Ambiguous ((nodes layout steps).map Node.id) := by
  have hfirst : ∀ p ∈ neighbours ((nodes layout steps).map Node.id),
      p.1 = startId ∨ ∃ n, p.1 = stepId n := by
    intro p hp
    have hm := List.mem_map_of_mem (f := Prod.fst) hp
    rw [map_fst_neighbours, ids_nodes, ← List.cons_append, List.dropLast_concat, List.mem_cons,
      List.mem_map] at hm
    rcases hm with hstart | ⟨n, -, hn⟩
    · exact .inl hstart
    · exact .inr ⟨n, hn.symm⟩
  rintro ⟨a, m, d, hlong, hshort⟩
  rcases hfirst _ hshort with hstart | ⟨n, hn⟩
  · have hmem : '-' ∈ startId.toList := by
      rw [← hstart]
      simp
    exact absurd hmem (by decide)
  · have hchars : a.toList ++ '-' :: m.toList = (stepId n).toList := by simp [← hn]
    rcases hfirst _ hlong with rfl | ⟨k, rfl⟩
    · simp [toList_stepId, startId] at hchars
    · simp only [toList_stepId, List.cons_append, List.cons.injEq, true_and] at hchars
      exact Decimal.hyphen_not_mem_digitsOf n (by simp [← hchars])

theorem nodup_ids_links (layout : Layout) (steps : List Step) :
    ((Chain.links ((nodes layout steps).map Node.id)).map Edge.id).Nodup :=
  (Chain.nodup_links_iff (nodup_ids_nodes layout steps)).2 (not_ambiguous_ids layout steps)

end Rebuild

/-! ## The rebuilt graph -/

theorem Graph.build_cases (nodes : List Node) (edges : List Edge) :
    (∃ g, Graph.build nodes edges = .ok g) ∨
      ∃ flaw, Graph.flaw? nodes edges = some flaw ∧
        Graph.build nodes edges = .error (.integrity flaw) := by
  unfold Graph.build
  split
  · rename_i flaw hf
    exact .inr ⟨flaw, hf, rfl⟩
  · exact .inl ⟨_, rfl⟩

theorem Graph.exists_build {nodes : List Node} {edges : List Edge}
    (h : Graph.flaw? nodes edges = none) : ∃ g, Graph.build nodes edges = .ok g := by
  rcases Graph.build_cases nodes edges with hg | ⟨flaw, hf, -⟩
  · exact hg
  · rw [h] at hf
    cases hf

namespace Rebuild
variable {layout : Layout} {steps : List Step}

theorem flaw?_eq_none (layout : Layout) (steps : List Step) :
    Graph.flaw? (nodes layout steps) (edges layout steps) = none := by
  rw [Graph.flaw?_eq_none_iff, edges]
  refine ⟨nodup_ids_nodes layout steps, ?_, ?_⟩
  · split
    · exact List.nodup_nil
    · exact nodup_ids_links layout steps
  · split
    · simp
    · exact fun e he => Chain.anchored_links he

theorem exists_graph (layout : Layout) (steps : List Step) :
    ∃ g, graph layout steps = .ok g ∧ g.nodes = nodes layout steps ∧
      g.edges = edges layout steps := by
  obtain ⟨g, hg⟩ := Graph.exists_build (flaw?_eq_none layout steps)
  exact ⟨g, hg, Graph.build_eq_ok_iff.1 hg⟩

theorem tail_eq (layout : Layout) (index : Nat) (y : Float) (steps : List Step) :
    ∃ groups finish, tail layout index y steps = groups ++ [finish] ∧
      (∀ n ∈ groups, n.kind = .stepGroup) ∧ finish.kind = .finish ∧
        List.Forall₂ Payload.Becomes (groups.map Node.payload) steps := by
  induction steps generalizing index y with
  | nil => exact ⟨[], finishNode layout y, rfl, by simp, rfl, .nil⟩
  | cons s rest ih =>
    obtain ⟨groups, finish, ht, hk, hf, hs⟩ := ih (index + 1) (y + layout.spacing)
    refine ⟨⟨stepId index, ⟨layout.x, y⟩, .stepGroup (groupOf s), stepId_ne_empty index⟩ :: groups,
      finish, ?_, ?_, hf, .cons (.stepGroup (groupOf s)) hs⟩
    · rw [tail, ht, List.cons_append]
    · exact List.forall_mem_cons.2 ⟨rfl, hk⟩

theorem exists_line {g : Graph} (hn : g.nodes = nodes layout steps)
    (he : g.edges = edges layout steps) (hs : steps ≠ []) :
    ∃ groups finish, g.Line (startNode layout) groups finish ∧
      List.Forall₂ Payload.Becomes (groups.map Node.payload) steps := by
  obtain ⟨groups, finish, ht, hk, hf, hsteps⟩ := tail_eq layout 1 layout.firstStepY steps
  have hrow : nodes layout steps = Graph.row (startNode layout) groups finish := by
    rw [nodes, ht]
    rfl
  refine ⟨groups, finish, ⟨rfl, hk, hf, ?_, ?_⟩, hsteps⟩
  · rw [hn, hrow]
  · rw [he, edges, if_neg (by simpa using hs), Chain.ends_links, hrow]

/-! ## Compiling again -/

end Rebuild

theorem Archive.definitionOf_payload (d : Definition) : Archive.definitionOf d.payload = .ok d := by
  have hd : Definition.ofFields d.payload = .accepted d := Definition.ofFields_fields .durable d
  rw [Archive.definitionOf, hd]

theorem Archive.parse_payload (d : Definition) : Archive.parse (.obj d.payload) = .ok d :=
  Archive.definitionOf_payload d

namespace Rebuild
variable {layout : Layout} {steps : List Step}

theorem compile_of_steps {g : Graph} (hn : g.nodes = nodes layout steps)
    (he : g.edges = edges layout steps) (hs : steps ≠ []) (m : Metadata) :
    g.review.passes = true ∧ g.compile m = .ok ⟨m, steps⟩ := by
  obtain ⟨groups, finish, hline, hsteps⟩ := exists_line hn he hs
  rw [hline.compile_eq, hline.steps_eq_of_becomes hsteps]
  exact ⟨Graph.passes_iff_line.2 ⟨_, _, _, hline⟩, rfl⟩

/-- No edge leads away from the start, and there are no agents to blame. -/
theorem compile_of_no_steps {g : Graph} (hn : g.nodes = nodes layout [])
    (he : g.edges = edges layout []) (m : Metadata) :
    g.compile m = .error (.structural g.review.errors) := by
  apply Graph.compile_of_violations
  intro hv
  have ha : g.looseAgents = [] := by
    rw [Graph.looseAgents_eq_nil_iff, hn]
    simp [nodes, tail, startNode, finishNode, Node.kind, Payload.kind]
  have hp : g.review.passes = true := Graph.passes_iff.2 ⟨hv, ha⟩
  obtain ⟨start, groups, finish, hline⟩ := Graph.passes_iff_line.1 hp
  exact hline.edges_ne_nil he

theorem reconstruct_compile (layout : Layout) (d : Definition) :
    ∃ g, graph layout d.steps = .ok g ∧
      (∀ v, Archive.parse v = .ok d → Archive.reconstruct layout v = .ok g) ∧
      (∀ n ∈ g.nodes, Node.ofFields (Form.inner.fields (n.entries .inner)) = .accepted n) ∧
      (∀ e ∈ g.edges, Edge.ofFields (Form.inner.fields e.entries) = .accepted e) ∧
      (d.steps ≠ [] → g.verdict.isValid = true ∧ g.compile d.metadata = .ok d ∧
        (g.compile d.metadata).map Definition.payload = .ok d.payload) ∧
      (d.steps = [] → g.nodes = [startNode layout, finishNode layout layout.firstStepY] ∧
        g.edges = [] ∧ ∀ m, ∃ violations, g.compile m = .error (.structural violations)) := by
  obtain ⟨g, hg, hn, he⟩ := exists_graph layout d.steps
  refine ⟨g, hg, ?_, fun n _ => Node.ofFields_fields .inner n,
    fun e _ => Edge.ofFields_fields .inner e, ?_, ?_⟩
  · intro v hv
    rw [Archive.reconstruct, hv]
    show Graph.orFault (graph layout d.steps) = .ok g
    rw [hg]
    rfl
  · intro hs
    obtain ⟨hp, hc⟩ := compile_of_steps hn he hs d.metadata
    rw [hc]
    exact ⟨Graph.isValid_iff_passes.2 hp, rfl, rfl⟩
  · intro hs
    rw [hs] at hn he
    exact ⟨hn, he, fun m => ⟨_, compile_of_no_steps hn he m⟩⟩

/-! ## A workflow whose purposes differ in being told -/

def sampleWorkflow : Definition :=
  ⟨Graph.sampleMetadata,
    [⟨Graph.draftTitle, .sequential, some Graph.emptyPurpose, ["writer", "editor"]⟩,
      ⟨Graph.checkTitle, .parallel, none, []⟩]⟩

theorem reconstruct_sample :
    (sampleWorkflow.steps ≠ [] ∧ Archive.parse (.obj sampleWorkflow.payload) = .ok sampleWorkflow ∧
      ∃ g, Archive.reconstruct {} (.obj sampleWorkflow.payload) = .ok g ∧
        g.compile sampleWorkflow.metadata = .ok sampleWorkflow) ∧
      ∃ g, graph {} [] = .ok g ∧ g.edges = [] ∧
        ∃ violations, g.compile sampleWorkflow.metadata = .error (.structural violations) := by
  have hs : sampleWorkflow.steps ≠ [] := List.cons_ne_nil _ _
  have hp := Archive.parse_payload sampleWorkflow
  obtain ⟨g, -, hsource, -, -, hsteps, -⟩ := reconstruct_compile {} sampleWorkflow
  obtain ⟨k, hk, -, -, -, -, hnone⟩ := reconstruct_compile {} ⟨Graph.sampleMetadata, []⟩
  obtain ⟨-, hedges, hc⟩ := hnone rfl
  exact ⟨⟨hs, hp, g, hsource _ hp, (hsteps hs).2.1⟩, k, hk, hedges, hc _⟩

end Rebuild
end WorkflowCanvas
