import WorkflowCanvas.Proofs.Workflow.Rebuilt

/-! Compiling, rebuilding and compiling again. Main statement: what is rebuilt from the workflow of
a graph compiles to that workflow again, whatever the graph looked like, as long as it has a step
group; a start that leads straight to the end compiles as well, but to no step, and from no step
two ends are rebuilt that nothing joins. -/
namespace WorkflowCanvas.Graph
set_option autoImplicit false

variable {g : Graph} {m : Metadata} {d : Definition}

/-! ## Steps and step groups -/

theorem Line.length_steps {start finish : Node} {groups : List Node}
    (h : g.Line start groups finish) : g.steps.length = groups.length := by
  rw [← h.becomes_steps.length_eq, List.length_map]

/-- The steps of a graph that passes are as many as its step groups: none for none. -/
theorem steps_eq_nil_iff (hp : g.review.passes = true) :
    g.steps = [] ↔ ∀ n ∈ g.nodes, n.kind ≠ .stepGroup := by
  obtain ⟨start, groups, finish, hline⟩ := passes_iff_line.1 hp
  rw [← List.length_eq_zero_iff, hline.length_steps, List.length_eq_zero_iff]
  constructor
  · intro hnil n hn
    rcases hline.mem_nodes_iff.1 hn with rfl | hn | rfl
    · simp [hline.starts]
    · rw [hnil] at hn
      cases hn
    · simp [hline.finishes]
  · intro hnone
    refine List.eq_nil_iff_forall_not_mem.2 fun n hn => ?_
    exact hnone n (hline.mem_nodes_iff.2 (.inr (.inl hn))) (hline.steps n hn)

/-! ## Compiling again -/

theorem reconstruct_payload (layout : Layout) (d : Definition) {k : Graph}
    (hk : Rebuild.graph layout d.steps = .ok k) :
    Archive.reconstruct layout (.obj d.payload) = .ok k := by
  rw [Archive.reconstruct, Archive.parse_payload]
  show orFault (Rebuild.graph layout d.steps) = .ok k
  rw [hk]
  rfl

theorem compile_rebuilt (layout : Layout) (h : g.compile m = .ok d) :
    ∃ k, Rebuild.graph layout d.steps = .ok k ∧
      Archive.reconstruct layout (.obj d.payload) = .ok k ∧
      ((∃ n ∈ g.nodes, n.kind = .stepGroup) → k.compile m = .ok d) ∧
      ((∀ n ∈ g.nodes, n.kind ≠ .stepGroup) →
        d.steps = [] ∧ ∃ violations, k.compile m = .error (.structural violations)) := by
  obtain ⟨hp, rfl⟩ := compile_eq_ok_iff.1 h
  obtain ⟨k, hk, hn, he⟩ := Rebuild.exists_graph layout g.steps
  refine ⟨k, hk, reconstruct_payload layout ⟨m, g.steps⟩ hk, ?_, ?_⟩
  · rintro ⟨n, hmem, hkind⟩
    have hsteps : g.steps ≠ [] := fun hnil => (steps_eq_nil_iff hp).1 hnil n hmem hkind
    exact (Rebuild.compile_of_steps hn he hsteps m).2
  · intro hnone
    have hnil : g.steps = [] := (steps_eq_nil_iff hp).2 hnone
    rw [hnil] at hn he
    exact ⟨hnil, _, Rebuild.compile_of_no_steps hn he m⟩

theorem compile_rebuilt_sample :
    ∃ d, sample.compile sampleMetadata = .ok d ∧ sampleDraft ∈ sample.nodes ∧
      sampleDraft.kind = .stepGroup ∧
      ∃ k, Archive.reconstruct {} (.obj d.payload) = .ok k ∧ k.compile sampleMetadata = .ok d := by
  have hc := sample_line.compile_eq sampleMetadata
  have hmem : sampleDraft ∈ sample.nodes := by simp [sample]
  obtain ⟨k, -, hk, hagain, -⟩ := compile_rebuilt {} hc
  exact ⟨_, hc, hmem, rfl, k, hk, hagain ⟨_, hmem, rfl⟩⟩

/-! ## A start that leads straight to the end -/

def bare : Graph where
  nodes := [sampleStart, sampleFinish]
  edges := [.plain "straight" ⟨"s", none, "e", none⟩ (by decide)]
  nodes_distinct := show ["s", "e"].Nodup by decide
  edges_distinct := by decide
  anchored := by decide

theorem bare_line : bare.Line sampleStart [] sampleFinish where
  starts := rfl
  steps := by simp
  finishes := rfl
  covers := .refl _
  links := by decide

theorem bare_not_compiled_again :
    ∃ d, bare.compile sampleMetadata = .ok d ∧
      ∃ k, Archive.reconstruct {} (.obj d.payload) = .ok k ∧
        ¬ ∃ again, k.compile sampleMetadata = .ok again ∧ again.payload = d.payload := by
  have hnil : bare.steps = [] := List.length_eq_zero_iff.1 bare_line.length_steps
  obtain ⟨k, hk, hn, he⟩ := Rebuild.exists_graph {} bare.steps
  refine ⟨_, bare_line.compile_eq sampleMetadata, k,
    reconstruct_payload {} ⟨sampleMetadata, bare.steps⟩ hk, ?_⟩
  rintro ⟨again, hagain, -⟩
  rw [hnil] at hn he
  rw [Rebuild.compile_of_no_steps hn he] at hagain
  cases hagain

end WorkflowCanvas.Graph
