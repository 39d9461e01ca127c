import WorkflowCanvas.Workflow.Definition

/-! The names that decoding looks up. A record is read from the values under the two names of each
of its fields; what an object holds under any other name makes no difference. Main statements:
objects that agree on the names of a definition, or of a payload, are read alike. -/
namespace WorkflowCanvas
set_option autoImplicit false

/-- The two names of a field. -/
def Entry.names (e : Entry) : List String := [e.inner, e.key]

namespace Fields
variable {names : List String} {these those : Fields}

/-- Objects that hold the same under some names. -/
def AgreeOn (names : List String) (these those : Fields) : Prop :=
  ∀ name ∈ names, these.get? name = those.get? name

theorem get?_keep (fields : Fields) (test : String → Bool) (name : String) :
    (fields.keep test).get? name = if test name then fields.get? name else none := by
  induction fields with
  | nil => simp [keep, get?]
  | cons field rest ih =>
    obtain ⟨key, v⟩ := field
    rw [keep, List.filter_cons, ← keep]
    by_cases hname : name = key
    · subst hname
      cases htest : test name with
      | true => simp [get?]
      | false => simpa [htest] using ih
    · have hkey : (name == key) = false := by simpa using hname
      have hrest : get? ((key, v) :: rest) name = get? rest name := by
        rw [get?, List.lookup_cons, hkey]
        rfl
      rw [hrest, ← ih]
      split
      · rw [get?, List.lookup_cons, hkey]
        rfl
      · rfl

/-- Fields behind those of an object count for nothing under names that they do not use. -/
theorem agreeOn_append (h : ∀ name ∈ names, those.get? name = none) :
    AgreeOn names (these ++ those) these := by
  intro name hname
  rw [get?_append, h name hname, Option.or_none]

theorem AgreeOn.mono {some : List String} (h : AgreeOn names these those) (hsome : some ⊆ names) :
    AgreeOn some these those := fun name hname => h name (hsome hname)

theorem AgreeOn.set (name : String) (v : Json) (h : AgreeOn names these those) :
    AgreeOn names (these.set name v) (those.set name v) := by
  intro other hother
  by_cases heq : other = name
  · rw [heq, get?_set_self, get?_set_self]
  · rw [get?_set_of_ne these v heq, get?_set_of_ne those v heq, h other hother]

end Fields

/-! ## Definitions -/

/-- The names of the fields of a definition, which are the same for all. -/
def Definition.names (d : Definition) : List String := (d.entries .durable).flatMap Entry.names

theorem Definition.ofFields_congr (d : Definition) {these those : Fields}
    (h : Fields.AgreeOn d.names these those) : ofFields these = ofFields those := by
  have hnames : d.names = ["workflow_name", "workflowName", "workflow_purpose", "workflowPurpose",
    "workflow_model", "workflowModel", "workflow_argument_hint", "workflowArgumentHint",
    "workflow_steps", "workflowSteps"] := rfl
  rw [hnames] at h
  simp only [Fields.AgreeOn, List.forall_mem_cons] at h
  obtain ⟨hname, hname', hpurpose, hpurpose', hmodel, hmodel', hhint, hhint', hsteps, hsteps',
    -⟩ := h
  simp only [ofFields, Metadata.ofFields, Checked.required, Checked.optional, Checked.find?, hname,
    hname', hpurpose, hpurpose', hmodel, hmodel', hhint, hhint', hsteps, hsteps']

/-! ## Payloads -/

section Payloads
variable {these those : Fields}

theorem TerminalData.ofFields_congr (h : Fields.AgreeOn ["label", "description"] these those) :
    ofFields these = ofFields those := by
  simp only [Fields.AgreeOn, List.forall_mem_cons] at h
  obtain ⟨hlabel, hdescription, -⟩ := h
  simp only [ofFields, Checked.required, Checked.optional, Checked.find?, hlabel, hdescription]

theorem AgentData.ofFields_congr (h : Fields.AgreeOn ["agent_name", "agentName", "agent_path",
    "agentPath", "label", "description", "category"] these those) :
    ofFields these = ofFields those := by
  simp only [Fields.AgreeOn, List.forall_mem_cons] at h
  obtain ⟨hname, hname', hpath, hpath', hlabel, hdescription, hcategory, -⟩ := h
  simp only [ofFields, Checked.required, Checked.optional, Checked.find?, hname, hname', hpath,
    hpath', hlabel, hdescription, hcategory]

/-- What is filled in depends on the title and the label alone. -/
theorem StepGroup.complete_congr {names : List String} (h : Fields.AgreeOn names these those)
    (htitle : "title" ∈ names) (hlabel : "label" ∈ names) :
    Fields.AgreeOn names (complete these) (complete those) := by
  simp only [complete, h _ htitle, h _ hlabel]
  split
  · split
    · exact h.set _ _
    · exact h
  · split
    · exact h
    · exact h.set _ _

theorem StepGroup.ofFields_congr (h : Fields.AgreeOn ["title", "mode", "purpose", "agents",
    "label", "description"] these those) : ofFields these = ofFields those := by
  have hcomplete := complete_congr h (by simp) (by simp)
  simp only [Fields.AgreeOn, List.forall_mem_cons] at hcomplete
  obtain ⟨htitle, hmode, hpurpose, hagents, hlabel, hdescription, -⟩ := hcomplete
  simp only [ofFields, ofCompleted, Checked.required, Checked.optional, Checked.find?, htitle,
    hmode, hpurpose, hagents, hlabel, hdescription]

end Payloads

/-- The names of the fields of a payload, which are the same for all of its kind. -/
def Payload.names (p : Payload) : List String := p.entries.flatMap Entry.names

theorem Payload.ofFields_congr (p : Payload) {these those : Fields}
    (h : Fields.AgreeOn p.names these those) :
    ofFields p.kind these = ofFields p.kind those := by
  cases p with
  | start d =>
    have hnames : ["label", "description"] ⊆ (start d).names := by
      simp [names, entries, TerminalData.entries, Entry.names, Entry.plain]
    exact congrArg (Checked.map start) (TerminalData.ofFields_congr (h.mono hnames))
  | finish d =>
    have hnames : ["label", "description"] ⊆ (finish d).names := by
      simp [names, entries, TerminalData.entries, Entry.names, Entry.plain]
    exact congrArg (Checked.map finish) (TerminalData.ofFields_congr (h.mono hnames))
  | agent d =>
    have hnames : ["agent_name", "agentName", "agent_path", "agentPath", "label", "description",
        "category"] ⊆ (agent d).names := by
      simp [names, entries, AgentData.entries, Entry.names, Entry.plain]
    exact congrArg (Checked.map agent) (AgentData.ofFields_congr (h.mono hnames))
  | stepGroup d =>
    have hnames : ["title", "mode", "purpose", "agents", "label", "description"] ⊆
        (stepGroup d).names := by
      simp [names, entries, StepGroup.entries, Entry.names, Entry.plain]
    exact congrArg (Checked.map stepGroup) (StepGroup.ofFields_congr (h.mono hnames))

end WorkflowCanvas
