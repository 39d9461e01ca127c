import WorkflowCanvas.Decode.Form
import WorkflowCanvas.Node.Kind
import WorkflowCanvas.Node.Title

/-! What a node carries, by its kind: a label for the two ends, an agent, or a group of
agents that becomes one step. A step group may be given by its title or by its label alone;
an empty label is the title. -/
namespace WorkflowCanvas
set_option autoImplicit false

/-- The start or the end of a workflow. -/
structure TerminalData where
  label : String
  description : Option String
deriving DecidableEq

/-- An agent on the canvas. -/
structure AgentData where
  name : String
  path : Option String
  label : String
  description : Option String
  category : Option String
deriving DecidableEq

/-- A group of agents that becomes one step. -/
structure StepGroup where
  title : Title
  mode : StepMode
  purpose : Option Purpose
  agents : List String
  label : { s : String // s ≠ "" }
  description : Option String
deriving DecidableEq

/-- The payload of a node; its shape is its kind. -/
inductive Payload where
  | start (data : TerminalData)
  | finish (data : TerminalData)
  | agent (data : AgentData)
  | stepGroup (data : StepGroup)
deriving DecidableEq

/-! ## Ends -/

namespace TerminalData

def model : String := "TerminalNodeData"

def entries (d : TerminalData) : List Entry :=
  [.plain "label" (.str d.label), .plain "description" (.ofText? d.description)]

def ofFields (fields : Fields) : Checked TerminalData :=
  ((Checked.required fields "label" "label" Checked.text).map TerminalData.mk).ap
    (Checked.optional fields "description" "description" none (Checked.nullable Checked.text))

def ofJson : Json → Checked TerminalData := Checked.record model ofFields

end TerminalData

/-! ## Agents -/

namespace AgentData

def model : String := "AgentNodeData"

def entries (d : AgentData) : List Entry :=
  [⟨"agent_name", "agentName", .str d.name⟩, ⟨"agent_path", "agentPath", .ofText? d.path⟩,
    .plain "label" (.str d.label), .plain "description" (.ofText? d.description),
    .plain "category" (.ofText? d.category)]

def ofFields (fields : Fields) : Checked AgentData :=
  let texts? (key inner : String) :=
    Checked.optional fields key inner none (Checked.nullable Checked.text)
  (((((Checked.required fields "agentName" "agent_name" Checked.text).map AgentData.mk).ap
    (texts? "agentPath" "agent_path")).ap
    (Checked.required fields "label" "label" Checked.text)).ap
    (texts? "description" "description")).ap
    (texts? "category" "category")

def ofJson : Json → Checked AgentData := Checked.record model ofFields

end AgentData

/-! ## Step groups -/

namespace StepGroup

def model : String := "StepGroupNodeData"

def entries (d : StepGroup) : List Entry :=
  [.plain "title" (.str d.title.text), .plain "mode" (.str d.mode.word),
    .plain "purpose" (.ofText? (d.purpose.map Bounded.text)),
    .plain "agents" (.ofTexts d.agents), .plain "label" (.str d.label.1),
    .plain "description" (.ofText? d.description)]

/-- Fills in a label from the title when it is missing or empty, or a missing title from the
label. -/
def complete (fields : Fields) : Fields :=
  let label := (fields.get? "label").getD .null
  match fields.get? "title" with
  | some title =>
    if label.isHollow && !title.isHollow then fields.set "label" title else fields
  | none => if label.isHollow then fields else fields.set "title" label

/-- A step group whose empty label is its title. -/
def make (title : Title) (mode : StepMode) (purpose : Option Purpose) (agents : List String)
    (label : String) (description : Option String) : StepGroup :=
  if labelled : label ≠ "" then ⟨title, mode, purpose, agents, ⟨label, labelled⟩, description⟩
  else ⟨title, mode, purpose, agents, ⟨title.text, title.text_ne_empty⟩, description⟩

/-- Decodes a step group whose label and title are filled in. -/
def ofCompleted (fields : Fields) : Checked StepGroup :=
  ((((((Checked.required fields "title" "title" (Title.ofJson .blankGroupTitle)).map make).ap
    (Checked.optional fields "mode" "mode" .sequential StepMode.ofJson)).ap
    (Checked.optional fields "purpose" "purpose" none
      (Checked.nullable (Checked.bounded 500)))).ap
    (Checked.optional fields "agents" "agents" [] (Checked.list Checked.text))).ap
    (Checked.optional fields "label" "label" "" Checked.text)).ap
    (Checked.optional fields "description" "description" none (Checked.nullable Checked.text))

def ofFields (fields : Fields) : Checked StepGroup := ofCompleted (complete fields)

def ofJson : Json → Checked StepGroup := Checked.record model ofFields

end StepGroup

/-! ## Payloads -/

namespace Payload

def kind : Payload → NodeKind
  | start _ => .start
  | finish _ => .finish
  | agent _ => .agent
  | stepGroup _ => .stepGroup

def label : Payload → String
  | start d | finish d => d.label
  | agent d => d.label
  | stepGroup d => d.label.1

def entries : Payload → List Entry
  | start d | finish d => d.entries
  | agent d => d.entries
  | stepGroup d => d.entries

/-- The step group, if the payload is one. -/
def stepGroup? : Payload → Option StepGroup
  | stepGroup d => some d
  | _ => none

/-- The name of the model that a kind's payload follows. -/
def modelOf : NodeKind → String
  | .start | .finish => TerminalData.model
  | .agent => AgentData.model
  | .stepGroup => StepGroup.model

def ofFields (kind : NodeKind) (fields : Fields) : Checked Payload :=
  match kind with
  | .start => (TerminalData.ofFields fields).map start
  | .finish => (TerminalData.ofFields fields).map finish
  | .agent => (AgentData.ofFields fields).map agent
  | .stepGroup => (StepGroup.ofFields fields).map stepGroup

/-- What is wrong with a value as a payload of whichever kind: nothing if one model accepts it,
else the problems under the name of each model. -/
def anyProblems (v : Json) : List Problem :=
  let step := StepGroup.ofJson v
  let agent := AgentData.ofJson v
  let terminal := TerminalData.ofJson v
  if step.value?.isSome || agent.value?.isSome || terminal.value?.isSome then []
  else
    (step.under (.field StepGroup.model)).problems ++
      (agent.under (.field AgentData.model)).problems ++
      (terminal.under (.field TerminalData.model)).problems

theorem kind_of_ofFields {kind : NodeKind} {fields : Fields} {p : Payload}
    (h : ofFields kind fields = .accepted p) : p.kind = kind := by
  cases kind <;> simp only [ofFields, Checked.map_eq_accepted_iff] at h <;>
    obtain ⟨_, _, rfl⟩ := h <;> rfl

end Payload
end WorkflowCanvas
