import WorkflowCanvas.Workflow.Definition

/-! Reading what was written. Main statements: the fields of a step, of a payload, of a node, of
an edge and of a definition read as the record they were written from, whatever the form they are
spelled in; and the texts, modes and kinds inside them do so first. -/
namespace WorkflowCanvas
set_option autoImplicit false

/-! ## Values -/

namespace Checked
variable {α β : Type}

@[simp] theorem under_accepted (s : Segment) (a : α) : (accepted a).under s = accepted a := rfl

@[simp] theorem map_accepted (f : α → β) (a : α) : (accepted a).map f = accepted (f a) := rfl

@[simp] theorem ap_accepted (f : α → β) (a : α) : (accepted f).ap (accepted a) = accepted (f a) :=
  rfl

@[simp] theorem andThen_accepted (a : α) (f : α → Checked β) : (accepted a).andThen f = f a := rfl

@[simp] theorem text_str (s : String) : text (.str s) = accepted s := rfl

@[simp] theorem number_float (x : Float) : number (.float x) = accepted x := rfl

@[simp] theorem nullable_null (decode : Json → Checked α) : nullable decode .null = accepted none :=
  rfl

@[simp] theorem nullable_str (decode : Json → Checked α) (s : String) :
    nullable decode (.str s) = (decode (.str s)).map some := rfl

@[simp] theorem nonempty_str (s : String) (h : s ≠ "") :
    nonempty (.str s) = accepted ⟨s, h⟩ := by
  rw [nonempty, dif_pos h]

@[simp] theorem bounded_str {limit : Nat} (b : Bounded limit) :
    bounded limit (.str b.text) = accepted b := by
  rw [bounded, dif_pos b.fits]

theorem each_map {decode : Json → Checked α} {encode : α → Json}
    (h : ∀ a, decode (encode a) = accepted a) (index : Nat) (items : List α) :
    each decode index (items.map encode) = accepted items := by
  induction items generalizing index with
  | nil => rfl
  | cons a rest ih =>
    rw [List.map_cons, each, h, ih]
    rfl

theorem list_map {decode : Json → Checked α} {encode : α → Json}
    (h : ∀ a, decode (encode a) = accepted a) (items : List α) :
    list decode (.arr (items.map encode)) = accepted items := each_map h 0 items

@[simp] theorem list_texts (texts : List String) :
    list text (.arr (texts.map .str)) = accepted texts := list_map text_str texts

end Checked

@[simp] theorem StepMode.ofJson_word (m : StepMode) :
    StepMode.ofJson (.str m.word) = .accepted m := by
  rw [StepMode.ofJson, Checked.choice, StepMode.ofWord?_word]

@[simp] theorem NodeKind.ofJson_word (k : NodeKind) :
    NodeKind.ofJson (.str k.word) = .accepted (some k) := by
  rw [NodeKind.ofJson, NodeKind.ofWord?_word]

/-! ## Records -/

section Records
variable (form : Form)

theorem Step.ofFields_fields (s : Step) : Step.ofFields (form.fields s.entries) = .accepted s := by
  obtain ⟨title, mode, purpose, agents⟩ := s
  cases form <;> cases purpose <;>
    simp [Step.ofFields, Form.fields, Step.entries, Entry.plain, Checked.required,
      Checked.optional, Checked.find?, Fields.get?, Fields.dropNulls, Json.ofText?, Json.ofTexts,
      List.lookup_cons, Title.ofJson_text]

theorem TerminalData.ofFields_fields (d : TerminalData) :
    TerminalData.ofFields (form.fields d.entries) = .accepted d := by
  obtain ⟨label, description⟩ := d
  cases form <;> cases description <;>
    simp [TerminalData.ofFields, Form.fields, TerminalData.entries, Entry.plain, Checked.required,
      Checked.optional, Checked.find?, Fields.get?, Fields.dropNulls, Json.ofText?,
      List.lookup_cons]

theorem AgentData.ofFields_fields (d : AgentData) :
    AgentData.ofFields (form.fields d.entries) = .accepted d := by
  obtain ⟨name, path, label, description, category⟩ := d
  cases form <;> cases path <;> cases description <;> cases category <;>
    simp [AgentData.ofFields, Form.fields, AgentData.entries, Entry.plain, Checked.required,
      Checked.optional, Checked.find?, Fields.get?, Fields.dropNulls, Json.ofText?,
      List.lookup_cons]

/-- A label that is written is not empty, so that nothing is filled in. -/
theorem StepGroup.complete_fields (d : StepGroup) :
    StepGroup.complete (form.fields d.entries) = form.fields d.entries := by
  obtain ⟨title, mode, purpose, agents, ⟨label, hl⟩, description⟩ := d
  have hollow : (Json.str label).isHollow = false := by simpa [Json.isHollow] using hl
  cases form <;> cases purpose <;> cases description <;>
    simp [StepGroup.complete, Form.fields, StepGroup.entries, Entry.plain, Fields.get?,
      Fields.dropNulls, Json.ofText?, Json.ofTexts, List.lookup_cons, hollow]

theorem StepGroup.ofFields_fields (d : StepGroup) :
    StepGroup.ofFields (form.fields d.entries) = .accepted d := by
  rw [StepGroup.ofFields, StepGroup.complete_fields]
  obtain ⟨title, mode, purpose, agents, ⟨label, hl⟩, description⟩ := d
  cases form <;> cases purpose <;> cases description <;>
    simp [StepGroup.ofCompleted, StepGroup.make, Form.fields, StepGroup.entries, Entry.plain,
      Checked.required, Checked.optional, Checked.find?, Fields.get?, Fields.dropNulls,
      Json.ofText?, Json.ofTexts, List.lookup_cons, Title.ofJson_text, hl]

theorem Payload.ofFields_fields (p : Payload) :
    Payload.ofFields p.kind (form.fields p.entries) = .accepted p := by
  cases p with
  | start d =>
    rw [Payload.kind, Payload.ofFields, Payload.entries, TerminalData.ofFields_fields]
    rfl
  | finish d =>
    rw [Payload.kind, Payload.ofFields, Payload.entries, TerminalData.ofFields_fields]
    rfl
  | agent d =>
    rw [Payload.kind, Payload.ofFields, Payload.entries, AgentData.ofFields_fields]
    rfl
  | stepGroup d =>
    rw [Payload.kind, Payload.ofFields, Payload.entries, StepGroup.ofFields_fields]
    rfl

theorem Position.ofJson_object (p : Position) :
    Position.ofJson (form.object p.entries) = .accepted p := by
  cases form <;>
    simp [Position.ofJson, Checked.record, Form.object, Position.ofFields, Form.fields,
      Position.entries, Entry.plain, Checked.optional, Checked.find?, Fields.get?,
      Fields.dropNulls, List.lookup_cons]

theorem Node.ofFields_fields (n : Node) :
    Node.ofFields (form.fields (n.entries form)) = .accepted n := by
  obtain ⟨id, position, payload, named⟩ := n
  have hp := Payload.ofFields_fields form payload
  have hq := Position.ofJson_object form position
  cases form <;>
    simp_all [Node.ofFields, Node.kindValue, Node.ofKind, Node.frameOf, Node.idOf,
      Node.positionOf, Form.fields, Form.object, Node.entries, Node.kind, Entry.plain,
      Checked.required, Checked.optional, Checked.find?, Fields.get?, Fields.dropNulls,
      List.lookup_cons]

theorem Edge.ofFields_fields (e : Edge) : Edge.ofFields (form.fields e.entries) = .accepted e := by
  obtain ⟨id, ⟨source, sourceHandle, target, targetHandle⟩, style, named⟩ := e
  cases form <;> cases sourceHandle <;> cases targetHandle <;> cases style <;>
    simp [Edge.ofFields, Form.fields, Edge.entries, Edge.coreEntries, Edge.styleEntry,
      Entry.plain, Checked.required, Checked.optional, Checked.find?, Fields.get?,
      Fields.dropNulls, Json.ofText?, List.lookup_cons, named]

theorem Definition.ofFields_fields (d : Definition) :
    Definition.ofFields (form.fields (d.entries form)) = .accepted d := by
  obtain ⟨⟨name, purpose, model, hint⟩, steps⟩ := d
  have hs : Checked.list Step.ofJson (.arr (steps.map (Step.toJson form))) = .accepted steps :=
    Checked.list_map (Step.ofFields_fields form) steps
  cases form <;> cases model <;> cases hint <;>
    simp [Definition.ofFields, Metadata.ofFields, Form.fields, Definition.entries,
      Metadata.entries, Checked.required, Checked.optional, Checked.find?, Fields.get?,
      Fields.dropNulls, Json.ofText?, List.lookup_cons, WorkflowName.ofJson_text, hs]

end Records
end WorkflowCanvas
