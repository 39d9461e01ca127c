import WorkflowCanvas.Proofs.Graph.Snapshot
import WorkflowCanvas.Proofs.Workflow.Rebuilt

/-! Graphs that are saved and loaded. Main statements: what a graph is saved as is loaded as that
graph with its metadata, and is saved again as the same document; and a document that was read as a
record loads as its saved form does exactly when it carries no nodes and edges, for those are not
looked at in the record. -/
namespace WorkflowCanvas
set_option autoImplicit false

/-! ## The fields of a document -/

namespace Definition
variable (d : Definition)

theorem get?_payload_name :
    d.payload.get? "workflowName" = some (.str d.metadata.name.text) := by
  simp [payload, Form.fields, entries, Metadata.entries, Fields.get?, Fields.dropNulls]

theorem get?_payload_steps :
    d.payload.get? "workflowSteps" = some (.arr (d.steps.map (Step.toJson .durable))) := by
  obtain ⟨⟨name, purpose, model, hint⟩, steps⟩ := d
  cases model <;> cases hint <;>
    simp [payload, Form.fields, entries, Metadata.entries, Fields.get?, Fields.dropNulls,
      Json.ofText?, List.lookup_cons]

/-- No field of a definition goes by the name of a part of a graph. -/
theorem not_isGraphPart_of_mem_payload {f : String × Json} (h : f ∈ d.payload) :
    Archive.isGraphPart f.1 = false := by
  have hkeys : ∀ key ∈ ["workflowName", "workflowPurpose", "workflowModel",
      "workflowArgumentHint", "workflowSteps"], Archive.isGraphPart key = false := by decide
  have hmem := List.mem_map_of_mem (f := Prod.fst) (List.mem_of_mem_filter h)
  apply hkeys
  simpa [entries, Metadata.entries] using hmem

theorem get?_payload_of_part {name : String} (h : Archive.isGraphPart name = true) :
    d.payload.get? name = none := by
  rw [Fields.get?, List.lookup_eq_none_iff]
  intro f hf
  rw [bne_iff_ne]
  rintro rfl
  rw [d.not_isGraphPart_of_mem_payload hf] at h
  cases h

end Definition

/-- Nodes and edges as the fields that a document carries them in. -/
def graphParts (nodes : List Node) (edges : List Edge) : Fields :=
  [("nodes", .arr (nodes.map (Node.toJson .durable))), ("edges", .arr (edges.map Edge.toJson))]

namespace Archive
variable {layout : Layout} {g : Graph} {m : Metadata} {d : Definition} {fields : Fields}
  {nodes : List Node} {edges : List Edge}

/-! ## Loading what was saved -/

theorem lacks_payload (d : Definition) (more : Fields) : lacks (d.payload ++ more) = [] := by
  have hname : Fields.get? (d.payload ++ more) "workflowName" =
      some (.str d.metadata.name.text) := by
    rw [Fields.get?_append, d.get?_payload_name, Option.some_or]
  have hsteps : Fields.get? (d.payload ++ more) "workflowSteps" =
      some (.arr (d.steps.map (Step.toJson .durable))) := by
    rw [Fields.get?_append, d.get?_payload_steps, Option.some_or]
  have hne : d.metadata.name.text ≠ "" := Text.not_isBlank_empty d.metadata.name.notBlank
  simp [lacks, hname, hsteps, Json.isHollow, hne]

theorem keep_payload : d.payload.keep (fun name => !isGraphPart name) = d.payload := by
  rw [Fields.keep, List.filter_eq_self]
  intro f hf
  rw [d.not_isGraphPart_of_mem_payload hf]
  rfl

/-- A definition alone carries no graph: one is rebuilt. -/
theorem loadFields_payload (layout : Layout) (d : Definition) :
    ∃ g, Rebuild.graph layout d.steps = .ok g ∧
      loadFields layout d.payload = .ok ⟨d, g, true⟩ := by
  obtain ⟨g, hg, -⟩ := Rebuild.exists_graph layout d.steps
  have hcarries : carries d.payload "nodes" = false := by
    rw [carries, d.get?_payload_of_part (by decide)]
  have hlacks : lacks d.payload = [] := by simpa using lacks_payload d []
  refine ⟨g, hg, ?_⟩
  simp only [loadFields, hlacks, keep_payload, definitionOf_payload, hcarries, hg,
    Graph.orFault_ok, bind, Except.bind, Bool.false_and, Bool.false_eq_true, if_false]
  rfl

theorem get?_written_nodes (d : Definition) (nodes : List Node) (edges : List Edge) :
    Fields.get? (d.payload ++ graphParts nodes edges) "nodes" =
      some (.arr (nodes.map (Node.toJson .durable))) := by
  rw [Fields.get?_append, d.get?_payload_of_part (by decide)]
  rfl

theorem get?_written_edges (d : Definition) (nodes : List Node) (edges : List Edge) :
    Fields.get? (d.payload ++ graphParts nodes edges) "edges" =
      some (.arr (edges.map Edge.toJson)) := by
  rw [Fields.get?_append, d.get?_payload_of_part (by decide)]
  rfl

theorem keep_written :
    Fields.keep (d.payload ++ graphParts nodes edges) (fun name => !isGraphPart name) =
      d.payload := by
  have hparts : Fields.keep (graphParts nodes edges) (fun name => !isGraphPart name) = [] := rfl
  rw [Fields.keep, List.filter_append]
  exact (congrArg₂ (· ++ ·) keep_payload hparts).trans (List.append_nil _)

/-- The parts that a document carries make its graph, or their flaw is told. -/
theorem loadFields_written (layout : Layout) (d : Definition) (nodes : List Node)
    (edges : List Edge) :
    loadFields layout (d.payload ++ graphParts nodes edges) =
      ((Graph.orFault (Graph.build nodes edges)).mapError asDocumentFault).map
        fun g => ⟨d, g, false⟩ := by
  have hlacks := lacks_payload d (graphParts nodes edges)
  have hn : carries (d.payload ++ graphParts nodes edges) "nodes" = true := by
    rw [carries, get?_written_nodes]
  have he : carries (d.payload ++ graphParts nodes edges) "edges" = true := by
    rw [carries, get?_written_edges]
  have hgraph := Graph.ofSnapshot_of_written (get?_written_nodes d nodes edges)
    (get?_written_edges d nodes edges)
  simp only [loadFields, hlacks, keep_written, definitionOf_payload, hn, he, hgraph, bind,
    Except.bind, Bool.and_self, if_true]
  cases (Graph.orFault (Graph.build nodes edges)).mapError asDocumentFault <;> rfl

/-! ## Saving -/

theorem setAll_snapshot (d : Definition) (g : Graph) :
    d.payload.setAll g.snapshot = d.payload ++ graphParts g.nodes g.edges := by
  have hn : d.payload.get? "nodes" = none := d.get?_payload_of_part (by decide)
  have he : Fields.get? (d.payload ++ [("nodes", .arr (g.nodes.map (Node.toJson .durable)))])
      "edges" = none := by
    rw [Fields.get?_append, d.get?_payload_of_part (by decide)]
    rfl
  rw [Fields.setAll, Graph.snapshot, List.foldl_cons, List.foldl_cons, List.foldl_nil,
    Fields.set_of_absent _ hn, Fields.set_of_absent _ he, List.append_assoc]
  rfl

theorem dump_eq_ok_iff : dump g m true = .ok fields ↔
    ∃ d, g.compile m = .ok d ∧ fields = d.payload ++ graphParts g.nodes g.edges := by
  rw [dump]
  cases hc : g.compile m with
  | error fault => simp [Except.map]
  | ok d => simp [Except.map, setAll_snapshot, eq_comm]

theorem load_dump (layout : Layout) (h : dump g m true = .ok fields) :
    ∃ l, load layout (.obj fields) = .ok l ∧ l.reconstructed = false ∧ l.graph = g ∧
      l.metadata = m ∧ dump l.graph l.metadata true = .ok fields := by
  obtain ⟨d, hc, hfields⟩ := dump_eq_ok_iff.1 h
  have hm : d.metadata = m := congrArg Definition.metadata (Graph.compile_eq_ok_iff.1 hc).2
  refine ⟨⟨d, g, false⟩, ?_, rfl, rfl, hm, ?_⟩
  · show loadFields layout fields = .ok ⟨d, g, false⟩
    rw [hfields, loadFields_written, Graph.build_parts]
    rfl
  · show dump g d.metadata true = .ok fields
    rw [hm, h]

/-! ## A graph with everything that steps do not tell -/

def drawnStart : Node := ⟨"s", ⟨-20.5, 3.0⟩, .start ⟨"Go", some ""⟩, Graph.sampleStart.named⟩

def drawnGroup : Node :=
  ⟨"g", ⟨1.0, 2.0⟩, .stepGroup ⟨Graph.draftTitle, .parallel, some Graph.emptyPurpose,
    ["writer", "writer"], ⟨"Sketch", by decide⟩, some "by hand"⟩, by decide⟩

def drawnFinish : Node := ⟨"e", {}, .finish ⟨"", none⟩, Graph.sampleFinish.named⟩

/-- One step, with places, labels, handles and styles. -/
def drawn : Graph where
  nodes := [drawnGroup, drawnStart, drawnFinish]
  edges := [⟨"below", ⟨"g", some "", "e", none⟩, none, by decide⟩,
    ⟨"above", ⟨"s", none, "g", some "in"⟩, some "smooth", by decide⟩]
  nodes_distinct := by decide
  edges_distinct := by decide
  anchored := by decide

theorem drawn_line : drawn.Line drawnStart [drawnGroup] drawnFinish where
  starts := rfl
  steps := by simp [drawnGroup, Node.kind, Payload.kind]
  finishes := rfl
  covers := List.Perm.swap drawnStart drawnGroup [drawnFinish]
  links := by decide

theorem load_dump_drawn :
    ∃ fields, dump drawn Graph.sampleMetadata true = .ok fields ∧
      ∃ l, load {} (.obj fields) = .ok l ∧ l.reconstructed = false ∧ l.graph = drawn ∧
        l.metadata = Graph.sampleMetadata ∧ dump l.graph l.metadata true = .ok fields := by
  have hd := dump_eq_ok_iff.2 ⟨_, drawn_line.compile_eq Graph.sampleMetadata, rfl⟩
  exact ⟨_, hd, load_dump {} hd⟩

/-! ## Documents that were read as records -/

/-- Two outcomes of loading that nobody can tell apart: the same graph with the same metadata and of
the same origin, or a document that is refused both times. -/
def Agree (x y : Except Failure Loaded) : Prop :=
  (∃ l k, x = .ok l ∧ y = .ok k ∧ l.graph = k.graph ∧ l.metadata = k.metadata ∧
      l.reconstructed = k.reconstructed) ∨
    ∃ violations others, x = .error (.fault (.badDocument violations)) ∧
      y = .error (.fault (.badDocument others))

theorem Agree.refl_ok (l : Loaded) : Agree (.ok l) (.ok l) := .inl ⟨l, l, rfl, rfl, rfl, rfl, rfl⟩

theorem savedFields_of_parts {doc : Document} (hn : doc.nodes = some nodes)
    (he : doc.edges = some edges) :
    doc.savedFields = doc.definition.payload ++ graphParts nodes edges := by
  rw [Document.savedFields, hn, he]
  rfl

theorem savedFields_of_no_snapshot {doc : Document} (h : doc.hasSnapshot = false) :
    doc.savedFields = doc.definition.payload := by
  obtain ⟨d, nodes, edges⟩ := doc
  cases nodes with
  | none => rfl
  | some nodes =>
    cases edges with
    | none => rfl
    | some edges => cases h

/-- The parts of a saved document decide: its graph is theirs, or their flaw is its fault. -/
theorem load_savedFields (layout : Layout) {doc : Document} (hn : doc.nodes = some nodes)
    (he : doc.edges = some edges) :
    (∃ g, Graph.build nodes edges = .ok g ∧
        load layout (.obj doc.savedFields) = .ok ⟨doc.definition, g, false⟩) ∨
      ∃ flaw, Graph.build nodes edges = .error (.integrity flaw) ∧
        load layout (.obj doc.savedFields) =
          .error (.fault (.badDocument [flaw.message])) := by
  have hload : load layout (.obj doc.savedFields) = loadFields layout doc.savedFields := rfl
  rw [hload, savedFields_of_parts hn he, loadFields_written]
  rcases Graph.build_cases nodes edges with ⟨g, hg⟩ | ⟨flaw, -, hf⟩
  · rw [hg]
    exact .inl ⟨g, rfl, rfl⟩
  · rw [hf]
    exact .inr ⟨flaw, rfl, rfl⟩

theorem exists_parts {doc : Document} (h : doc.hasSnapshot = true) :
    ∃ nodes edges, doc.nodes = some nodes ∧ doc.edges = some edges := by
  rw [Document.hasSnapshot, Bool.and_eq_true, Option.isSome_iff_exists,
    Option.isSome_iff_exists] at h
  obtain ⟨⟨nodes, hn⟩, edges, he⟩ := h
  exact ⟨nodes, edges, hn, he⟩

/-- A rebuilt graph is told apart from one that a document carried. -/
theorem not_agree_of_snapshot (layout : Layout) {doc : Document} (h : doc.hasSnapshot = true) :
    ¬ Agree (loadDefinition layout doc.definition) (load layout (.obj doc.savedFields)) := by
  obtain ⟨nodes, edges, hn, he⟩ := exists_parts h
  obtain ⟨g, -, hrecord⟩ := loadFields_payload layout doc.definition
  rintro (⟨l, k, hl, hk, -, -, hflag⟩ | ⟨violations, others, hl, -⟩)
  · have hlflag : l.reconstructed = true := by
      cases hrecord.symm.trans hl
      rfl
    have hkflag : k.reconstructed = false := by
      rcases load_savedFields layout hn he with ⟨_, -, hload⟩ | ⟨_, -, hload⟩
      · cases hload.symm.trans hk
        rfl
      · cases hload.symm.trans hk
    rw [hlflag, hkflag] at hflag
    cases hflag
  · cases hrecord.symm.trans hl

theorem agree_iff_no_snapshot (layout : Layout) (doc : Document) :
    (Agree (loadDefinition layout doc.definition) (load layout (.obj doc.savedFields)) ↔
        doc.hasSnapshot = false) ∧
      (∃ g, Rebuild.graph layout doc.definition.steps = .ok g ∧
        loadDefinition layout doc.definition = .ok ⟨doc.definition, g, true⟩) ∧
      match doc.nodes, doc.edges with
      | some nodes, some edges =>
        (∃ g, Graph.build nodes edges = .ok g ∧
            load layout (.obj doc.savedFields) = .ok ⟨doc.definition, g, false⟩) ∨
          ∃ flaw, Graph.build nodes edges = .error (.integrity flaw) ∧
            load layout (.obj doc.savedFields) = .error (.fault (.badDocument [flaw.message]))
      | _, _ => load layout (.obj doc.savedFields) = loadDefinition layout doc.definition := by
  obtain ⟨g, hg, hrecord⟩ := loadFields_payload layout doc.definition
  have hsame : doc.hasSnapshot = false →
      load layout (.obj doc.savedFields) = loadDefinition layout doc.definition := by
    intro h
    show loadFields layout doc.savedFields = loadFields layout doc.definition.payload
    rw [savedFields_of_no_snapshot h]
  refine ⟨⟨?_, ?_⟩, ⟨g, hg, hrecord⟩, ?_⟩
  · intro hagree
    by_contra h
    exact not_agree_of_snapshot layout (by simpa using h) hagree
  · intro h
    rw [hsame h, loadDefinition, hrecord]
    exact .refl_ok _
  · split
    · rename_i nodes edges hn he
      exact load_savedFields layout hn he
    · rename_i hnone
      apply hsame
      by_contra h
      obtain ⟨nodes, edges, hn, he⟩ := exists_parts (by simpa using h)
      exact hnone nodes edges hn he

/-! ## A node beside the steps -/

/-- No steps, and a start that the canvas holds all the same. -/
def scratch : Document := ⟨⟨Graph.sampleMetadata, []⟩, some [Graph.sampleStart], some []⟩

theorem not_agree_scratch :
    (∃ g, load {} (.obj scratch.savedFields) = .ok ⟨scratch.definition, g, false⟩ ∧
      g.nodes = [Graph.sampleStart]) ∧
    (∃ g, loadDefinition {} scratch.definition = .ok ⟨scratch.definition, g, true⟩ ∧
      g.nodes ≠ [Graph.sampleStart]) ∧
    ¬ Agree (loadDefinition {} scratch.definition) (load {} (.obj scratch.savedFields)) := by
  refine ⟨?_, ?_, not_agree_of_snapshot {} rfl⟩
  · have hflaw : Graph.flaw? [Graph.sampleStart] [] = none := by decide
    obtain ⟨g, hg⟩ := Graph.exists_build hflaw
    have hload : load {} (.obj scratch.savedFields) = loadFields {} scratch.savedFields := rfl
    rw [hload, savedFields_of_parts rfl rfl, loadFields_written, hg]
    exact ⟨g, rfl, (Graph.build_eq_ok_iff.1 hg).1⟩
  · obtain ⟨g, hg, hrecord⟩ := loadFields_payload {} scratch.definition
    refine ⟨g, hrecord, fun hnodes => ?_⟩
    have hlength := congrArg List.length ((Graph.build_eq_ok_iff.1 hg).1.symm.trans hnodes)
    cases hlength

end Archive
end WorkflowCanvas
