import WorkflowCanvas.Fault
import WorkflowCanvas.Node.AgentInfo
import WorkflowCanvas.Node.Reading
import WorkflowCanvas.Supply

/-! Drafts of nodes: a node that is put together setting by setting. Settings are not looked at
until the draft is finished; an identifier is then taken from the supply when none was given. -/
namespace WorkflowCanvas
set_option autoImplicit false

/-- A node in the making. -/
structure NodeDraft where
  kind : NodeKind
  id : Json := .null
  x : Json := .float 0.0
  y : Json := .float 0.0
  data : Fields := []

namespace NodeDraft

/-! ## Settings -/

def setting (d : NodeDraft) (name : String) (v : Json) : NodeDraft :=
  { d with data := d.data.set name v }

def withId (d : NodeDraft) (id : Json) : NodeDraft := { d with id }

def placed (d : NodeDraft) (x y : Json) : NodeDraft := { d with x, y }

def withLabel (d : NodeDraft) (label : Json) : NodeDraft := d.setting "label" label

def withDescription (d : NodeDraft) (text : Json) : NodeDraft := d.setting "description" text

def withMode (d : NodeDraft) (mode : Json) : NodeDraft := d.setting "mode" mode

def withPurpose (d : NodeDraft) (purpose : Json) : NodeDraft := d.setting "purpose" purpose

/-- The members of a value: items of a list, characters of a text, names of fields. -/
def members? : Json → Option (List Json)
  | .arr items => some items
  | .str s => some (s.toList.map fun c => .str (String.ofList [c]))
  | .obj fields => some (fields.map fun f => .str f.1)
  | _ => none

/-- Sets the agents of a step group to the members of a value. -/
def withAgents (d : NodeDraft) (agents : Json) : Except Failure NodeDraft :=
  match members? agents with
  | some items => .ok (d.setting "agents" (.arr items))
  | none => .error (.unlistable agents.kindName)

def addAgent (d : NodeDraft) (agent : Json) : NodeDraft :=
  match d.data.get? "agents" with
  | some (.arr items) => d.setting "agents" (.arr (items ++ [agent]))
  | _ => d.setting "agents" (.arr [agent])

/-! ## Beginnings -/

def start (label : Json) : NodeDraft := NodeDraft.withLabel { kind := .start } label

def finish (label : Json) : NodeDraft := NodeDraft.withLabel { kind := .finish } label

/-- An agent, labelled with its name when the label is hollow. -/
def agent (name label : Json) : NodeDraft :=
  (NodeDraft.setting { kind := .agent } "agent_name" name).withLabel
    (if label.isHollow then name else label)

/-- An agent from what is known about it. -/
def agentOf (info : AgentInfo) : NodeDraft :=
  (((agent (.str info.id) (.str info.name)).setting "agent_path" (.ofText? info.path)).setting
    "category" (.ofText? info.category)).withDescription (.ofText? info.description)

def stepGroup (title : Json) : NodeDraft where
  kind := .stepGroup
  data := [("title", title), ("mode", .str StepMode.sequential.word), ("agents", .arr [])]

/-! ## Finishing -/

/-- Whether an identifier has to be taken from the supply. -/
def takesName (d : NodeDraft) : Bool := d.id.isHollow

def finished (d : NodeDraft) (supply : Supply) : Checked Node :=
  let id := if d.takesName then .str (supply.next d.kind.word).1 else d.id
  (Position.ofFields [("x", d.x), ("y", d.y)]).andThen fun position =>
    Node.ofFields [("id", id), ("kind", .str d.kind.word),
      ("position", Form.inner.object position.entries), ("data", .obj d.data.dropNulls)]

/-- The node of a draft, and the supply after it; an identifier is taken even when the draft
cannot be finished. -/
def build (d : NodeDraft) (supply : Supply) : Except Failure Node × Supply :=
  ((d.finished supply).orFail, supply.spentIf d.takesName)

end NodeDraft
end WorkflowCanvas
