import WorkflowCanvas.Proofs.Json.Spelled
import WorkflowCanvas.Proofs.Workflow.Compiled

/-! Workflows and other data as text. Main statement: data that spells a legible object is written
in every style as a text that is read as that object, and so is what a graph compiles to. -/
namespace WorkflowCanvas
set_option autoImplicit false

/-! ## What a graph compiles to -/

theorem legible_ofText? (s : Option String) : (Json.ofText? s).Legible := by
  cases s with
  | none => exact .null
  | some s => exact .str s

theorem legible_ofTexts (items : List String) : (Json.ofTexts items).Legible := by
  refine .arr fun item hitem => ?_
  obtain ⟨s, -, rfl⟩ := List.mem_map.1 hitem
  exact .str s

theorem legible_durable {entries : List Entry} (hkeys : (entries.map Entry.key).Nodup)
    (hvalues : ∀ e ∈ entries, e.value.Legible) : (Form.durable.object entries).Legible := by
  have hfields : (Form.durable.fields entries).Sublist (entries.map fun e => (e.key, e.value)) :=
    List.filter_sublist
  refine .obj ?_ fun field hfield => ?_
  · have hnames := hfields.map Prod.fst
    rw [List.map_map] at hnames
    exact hnames.nodup hkeys
  · obtain ⟨e, he, rfl⟩ := List.mem_map.1 (hfields.mem hfield)
    exact hvalues e he

theorem Step.legible (s : Step) : (s.toJson .durable).Legible := by
  have hkeys : s.entries.map Entry.key = ["title", "mode", "purpose", "agents"] := rfl
  refine legible_durable (by rw [hkeys]; decide) ?_
  simp only [Step.entries, List.forall_mem_cons, Entry.plain]
  exact ⟨.str _, .str _, legible_ofText? _, legible_ofTexts _, List.forall_mem_nil _⟩

theorem Definition.legible (d : Definition) : (Json.obj d.payload).Legible := by
  have hkeys : (d.entries .durable).map Entry.key = ["workflowName", "workflowPurpose",
    "workflowModel", "workflowArgumentHint", "workflowSteps"] := rfl
  refine legible_durable (by rw [hkeys]; decide) ?_
  simp only [Definition.entries, Metadata.entries, List.cons_append, List.nil_append,
    List.forall_mem_cons]
  refine ⟨.str _, .str _, legible_ofText? _, legible_ofText? _, .arr fun item hitem => ?_,
    List.forall_mem_nil _⟩
  obtain ⟨s, -, rfl⟩ := List.mem_map.1 hitem
  exact s.legible

/-! ## Reading back -/

namespace Datum

theorem render_read_back :
    (∀ (d : Datum) (fields : Fields), d.Spells (.obj fields) → Json.Legible (.obj fields) →
      ∀ style : Json.Style, ∃ text written, d.render style = .ok text ∧
        Json.readObject text = .ok written ∧ Json.Same (.obj written) (.obj fields) ∧
        (style.sortKeys = false → written = fields)) ∧
    ∀ (g : Graph) (m : Metadata) (d : Definition), g.compile m = .ok d →
      Json.readObject (Json.render {} (.obj d.payload)) = .ok d.payload := by
  refine ⟨fun d fields hspells hlegible style => ?_, fun g m d _ =>
    Json.readObject_write d.legible (some 2)⟩
  obtain ⟨w, hsettle, hw, hsame, hkept⟩ := hspells.settle hlegible
  obtain ⟨written, rfl⟩ : ∃ written, w = .obj written := by
    cases hsame with
    | refl => exact ⟨fields, rfl⟩
    | obj => exact ⟨_, rfl⟩
  refine ⟨_, written, ?_, Json.readObject_write hw style.indent, hsame, fun hsort => ?_⟩
  · rw [render, hsettle]
    rfl
  · exact Json.obj.inj (hkept hsort)

/-! ## A table with a list and a nested table -/

def sampleItems : List (Datum × Json) :=
  [(.plain .null, .null), (.plain (.float 0.5), .float 0.5), (.plain (.int (-7)), .int (-7))]

def sampleRows : List (String × Datum × Json) :=
  [("steps", .list (sampleItems.map Prod.fst), .arr (sampleItems.map Prod.snd)),
    ("name", .plain (.str "\"é\" \\ 😀\n"), .str "\"é\" \\ 😀\n"), ("", .table [], .obj [])]

def sampleFields : Fields := sampleRows.map fun row => (row.1, row.2.2)

def sampleTable : Datum := .table (sampleRows.map fun row => (.text row.1, row.2.1))

theorem spells_sample : sampleTable.Spells (.obj sampleFields) := by
  have hitems : ∀ row ∈ sampleItems, Spells row.1 row.2 := by
    simp only [sampleItems, List.forall_mem_cons]
    exact ⟨.plain _, .plain _, .plain _, List.forall_mem_nil _⟩
  have hempty : ∀ row ∈ ([] : List (String × Datum × Json)), Spells row.2.1 row.2.2 :=
    List.forall_mem_nil _
  refine .table ?_
  simp only [sampleRows, List.forall_mem_cons]
  exact ⟨.list hitems, .plain _, .table hempty, List.forall_mem_nil _⟩

theorem legible_sample : Json.Legible (.obj sampleFields) := by
  have hhalf : Decimal.ReadsBack 0.5 := by
    rw [Decimal.ReadsBack]
    decide +kernel
  have hseven : Json.isLong (-7) = false := by
    have hdigits : Decimal.digitCount 7 = 1 := by
      rw [Decimal.digitCount, Decimal.digitsOf, if_pos (by decide)]
      rfl
    show decide (Json.digitLimit < Decimal.digitCount 7) = false
    rw [hdigits]
    rfl
  have hempty : Json.Legible (.obj []) := .obj List.nodup_nil (List.forall_mem_nil _)
  have hitems : Json.Legible (.arr (sampleItems.map Prod.snd)) := by
    refine .arr ?_
    simp only [sampleItems, List.map_cons, List.map_nil, List.forall_mem_cons]
    exact ⟨.null, .float hhalf, .int hseven, List.forall_mem_nil _⟩
  refine .obj (by decide) ?_
  simp only [sampleFields, sampleRows, List.map_cons, List.map_nil, List.forall_mem_cons]
  exact ⟨hitems, .str _, hempty, List.forall_mem_nil _⟩

theorem render_read_back_sample :
    (sampleTable.Spells (.obj sampleFields) ∧ Json.Legible (.obj sampleFields) ∧
      ∃ text written, sampleTable.render ⟨some 3, true⟩ = .ok text ∧
        Json.readObject text = .ok written ∧ Json.Same (.obj written) (.obj sampleFields)) ∧
    ∃ d, Graph.sample.compile Graph.sampleMetadata = .ok d ∧
      Json.readObject (Json.render {} (.obj d.payload)) = .ok d.payload := by
  obtain ⟨text, written, htext, hread, hsame, -⟩ :=
    render_read_back.1 sampleTable sampleFields spells_sample legible_sample ⟨some 3, true⟩
  have hcompile := Graph.sample_line.compile_eq Graph.sampleMetadata
  exact ⟨⟨spells_sample, legible_sample, text, written, htext, hread, hsame⟩, _, hcompile,
    render_read_back.2 _ _ _ hcompile⟩

end Datum
end WorkflowCanvas
