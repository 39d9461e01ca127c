import WorkflowCanvas.Proofs.Decode.Names
import WorkflowCanvas.Proofs.Workflow.Archived

/-! Documents that are read and written again. Main statements: a definition is read as itself from
its fields in every spelling, whatever else the document holds; a document that carries both parts
of a graph or neither is read as itself; and what is written of a value that could be read stays as
it is however often that is done again. -/
namespace WorkflowCanvas
set_option autoImplicit false

/-! ## Definitions -/

/-- No field of a definition goes by the name of a part of a graph, in any spelling. -/
theorem Definition.get?_graphParts_of_mem_names (d : Definition) {name : String}
    (h : name ∈ d.names) (nodes : List Node) (edges : List Edge) :
    (graphParts nodes edges).get? name = none := by
  have hpart : ∀ other ∈ ["workflow_name", "workflowName", "workflow_purpose", "workflowPurpose",
      "workflow_model", "workflowModel", "workflow_argument_hint", "workflowArgumentHint",
      "workflow_steps", "workflowSteps"], other ≠ "nodes" ∧ other ≠ "edges" := by decide
  have hother : name ≠ "nodes" ∧ name ≠ "edges" := hpart name h
  rw [Fields.get?, List.lookup_eq_none_iff]
  simpa [graphParts] using hother

namespace Archive
variable {v : Json} {written : Fields}

/-- Whatever stands beside the fields of a definition goes by other names. -/
theorem parse_spelled (form : Form) (d : Definition) {extra : Fields}
    (h : ∀ name ∈ d.names, extra.get? name = none) :
    parse (.obj (form.fields (d.entries form) ++ extra)) = .ok d := by
  have hread : Definition.ofFields (form.fields (d.entries form) ++ extra) = .accepted d := by
    rw [d.ofFields_congr (Fields.agreeOn_append h), Definition.ofFields_fields]
  show definitionOf _ = .ok d
  rw [definitionOf, hread]

/-- The fields that are saved of what a value is read as. -/
def recode (v : Json) : Except Failure Fields := (parse v).map Definition.payload

theorem recode_eq_ok_iff : recode v = .ok written ↔ ∃ d, parse v = .ok d ∧ written = d.payload := by
  rw [recode]
  cases parse v with
  | error failure => simp [Except.map]
  | ok d => simp [Except.map, eq_comm]

theorem recode_settles (h : recode v = .ok written) : recode (.obj written) = .ok written := by
  obtain ⟨d, -, rfl⟩ := recode_eq_ok_iff.1 h
  exact recode_eq_ok_iff.2 ⟨d, parse_payload d, rfl⟩

end Archive

/-! ## Documents -/

namespace Document

theorem ofFields_written (d : Definition) (nodes : List Node) (edges : List Edge) :
    ofFields (d.payload ++ graphParts nodes edges) = .accepted ⟨d, some nodes, some edges⟩ := by
  have hd : Definition.ofFields (d.payload ++ graphParts nodes edges) = .accepted d := by
    rw [d.ofFields_congr (Fields.agreeOn_append fun _ hname =>
      d.get?_graphParts_of_mem_names hname nodes edges)]
    exact Definition.ofFields_fields .durable d
  have hn : Checked.list Node.ofJson (.arr (nodes.map (Node.toJson .durable))) = .accepted nodes :=
    Checked.list_map (Node.ofJson_toJson .durable) nodes
  have he : Checked.list Edge.ofJson (.arr (edges.map Edge.toJson)) = .accepted edges :=
    Checked.list_map Edge.ofJson_toJson edges
  simp only [ofFields, hd, Checked.optional, Checked.find?, Archive.get?_written_nodes,
    Archive.get?_written_edges, Checked.nullable, hn, he, Checked.map_accepted,
    Checked.under_accepted, Checked.ap_accepted]

theorem ofFields_payload (d : Definition) : ofFields d.payload = .accepted ⟨d, none, none⟩ := by
  have hd : Definition.ofFields d.payload = .accepted d := Definition.ofFields_fields .durable d
  have hn : d.payload.get? "nodes" = none := d.get?_payload_of_part (by decide)
  have he : d.payload.get? "edges" = none := d.get?_payload_of_part (by decide)
  simp [ofFields, hd, Checked.optional, Checked.find?, hn, he]

/-- A document is read as it was, but for a part of a graph that lacks the other one. -/
theorem ofFields_savedFields (doc : Document) : ofFields doc.savedFields =
    .accepted (if doc.hasSnapshot then doc else ⟨doc.definition, none, none⟩) := by
  obtain ⟨d, nodes, edges⟩ := doc
  cases nodes with
  | none => exact ofFields_payload d
  | some nodes =>
    cases edges with
    | none => exact ofFields_payload d
    | some edges => exact ofFields_written d nodes edges

theorem ofFields_savedFields_eq_iff (doc : Document) :
    ofFields doc.savedFields = .accepted doc ↔ doc.nodes.isSome = doc.edges.isSome := by
  rw [ofFields_savedFields]
  obtain ⟨d, nodes, edges⟩ := doc
  cases nodes <;> cases edges <;> simp [hasSnapshot]

end Document

/-! ## Reading what was written -/

namespace Archive

theorem written_reads_back :
    (∀ d : Definition, parse (.obj d.payload) = .ok d) ∧
      (∀ doc : Document, Document.ofFields doc.savedFields = .accepted doc ↔
        doc.nodes.isSome = doc.edges.isSome) ∧
      (∀ (form : Form) (d : Definition) (extra : Fields),
        (∀ name ∈ d.names, extra.get? name = none) →
          parse (.obj (form.fields (d.entries form) ++ extra)) = .ok d) ∧
      ∀ v written, recode v = .ok written → recode (.obj written) = .ok written :=
  ⟨parse_payload, Document.ofFields_savedFields_eq_iff, fun form d _ h => parse_spelled form d h,
    fun _ _ h => recode_settles h⟩

/-! ## A document in mixed spelling -/

/-- Names of both kinds, a null, a default left out, and fields that no workflow has. -/
def mixedSpelling : Fields :=
  [("version", .int 2), ("workflow_name", .str "outline"), ("workflowModel", .null),
    ("workflowSteps", .arr [.obj [("title", .str "Collect"), ("colour", .str "red")]])]

/-- The same with nothing but what differs from the defaults. -/
def plainSpelling : Fields :=
  [("workflowName", .str "outline"), ("workflowPurpose", .str ""),
    ("workflowSteps", .arr [.obj [("title", .str "Collect"), ("mode", .str "sequential"),
      ("agents", .arr [])]])]

theorem written_reads_back_mixed :
    recode (.obj mixedSpelling) = .ok plainSpelling ∧
      recode (.obj plainSpelling) = .ok plainSpelling ∧
      parse (.obj (Form.inner.fields (Rebuild.sampleWorkflow.entries .inner) ++
        [("version", .int 2)])) = .ok Rebuild.sampleWorkflow := by
  have hmixed : recode (.obj mixedSpelling) = .ok plainSpelling := rfl
  obtain ⟨-, -, hspelled, hsettles⟩ := written_reads_back
  exact ⟨hmixed, hsettles _ _ hmixed, hspelled .inner Rebuild.sampleWorkflow _ (by decide)⟩

end Archive
end WorkflowCanvas
