import WorkflowCanvas.Node.Basic

/-! Reading nodes. The kind decides which payload the data must be: with a known kind, an
object that is not that payload is reported alone, by its own problems. Everything else about
a node is reported together, in the order of its fields. Main statement: a node that is read
has the kind that its text names. -/
namespace WorkflowCanvas.Node
set_option autoImplicit false

/-- The value that names the kind: under `type`, or else under `kind`. -/
def kindValue (fields : Fields) : Json :=
  match Checked.find? fields "type" "kind" with
  | some (_, v) => v
  | none => .null

/-- What is wrong with a value that names no kind. -/
def kindProblem (fields : Fields) : Problem :=
  match Checked.find? fields "type" "kind" with
  | some (key, _) => ⟨[.field key], NodeKind.unknown⟩
  | none => ⟨[.field "type"], .missing⟩

def idOf (fields : Fields) : Checked { s : String // s ≠ "" } :=
  Checked.required fields "id" "id" Checked.nonempty

def positionOf (fields : Fields) : Checked Position :=
  Checked.optional fields "position" "position" {} Position.ofJson

/-- The identifier and position, still without a payload. -/
def frameOf (fields : Fields) : Checked (Payload → Node) :=
  ((idOf fields).map fun ⟨id, named⟩ position payload => Node.mk id position payload named).ap
    (positionOf fields)

/-- What is wrong with data that is no payload whatever the kind. -/
def dataProblems (data : Json) : List Problem :=
  (Payload.anyProblems data).map (Problem.under (.field "data"))

def ofKind (kind : NodeKind) (fields : Fields) : Checked Node :=
  match (fields.get? "data").getD .null with
  | .obj data => (Payload.ofFields kind data).andThen fun p => (frameOf fields).map (· p)
  | data => (frameOf fields).ap (.refused (dataProblems data))

/-- All that is wrong with a node whose kind is unknown. -/
def strayProblems (fields : Fields) : List Problem :=
  (idOf fields).problems ++ [kindProblem fields] ++ (positionOf fields).problems ++
    match fields.get? "data" with
    | some data => dataProblems data
    | none => [⟨[.field "data"], .missing⟩]

def ofFields (fields : Fields) : Checked Node :=
  (NodeKind.ofJson (kindValue fields)).andThen fun
    | some kind => ofKind kind fields
    | none => .refused (strayProblems fields)

def ofJson : Json → Checked Node := Checked.record "NodeSpec" ofFields

/-! ## Nodes around finished data -/

/-- Data that has already been read, before it belongs to a node. -/
inductive Cargo where
  | terminal (data : TerminalData)
  | agent (data : AgentData)
  | stepGroup (data : StepGroup)

namespace Cargo

def model : Cargo → String
  | terminal _ => TerminalData.model
  | agent _ => AgentData.model
  | stepGroup _ => StepGroup.model

/-- Reads data of a named model; other names are of no model. -/
def ofJson? (model : String) (v : Json) : Option (Checked Cargo) :=
  if model = TerminalData.model then some ((TerminalData.ofJson v).map terminal)
  else if model = AgentData.model then some ((AgentData.ofJson v).map agent)
  else if model = StepGroup.model then some ((StepGroup.ofJson v).map stepGroup)
  else none

/-- The payload that the data is for a kind, if it fits. -/
def payload? : NodeKind → Cargo → Option Payload
  | .start, terminal d => some (.start d)
  | .finish, terminal d => some (.finish d)
  | .agent, agent d => some (.agent d)
  | .stepGroup, stepGroup d => some (.stepGroup d)
  | _, _ => none

end Cargo

/-- A node around finished data; data that does not fit the kind is reported alone. -/
def around (fields : Fields) (cargo : Cargo) : Checked Node :=
  (NodeKind.ofJson (kindValue fields)).andThen fun
    | some kind =>
      match cargo.payload? kind with
      | some p => (frameOf fields).map (· p)
      | none => .stop (.wrongPayload kind.word (Payload.modelOf kind) cargo.model)
    | none =>
      .refused ((idOf fields).problems ++ [kindProblem fields] ++ (positionOf fields).problems)

/-! ## The kind of what is read -/

theorem kind_of_ofKind {kind : NodeKind} {fields : Fields} {n : Node}
    (h : ofKind kind fields = .accepted n) : n.kind = kind := by
  unfold ofKind at h
  split at h
  · rename_i data _
    cases hp : Payload.ofFields kind data with
    | accepted p =>
      rw [hp] at h
      simp only [Checked.andThen, frameOf, Checked.map_eq_accepted_iff, Checked.ap_eq_accepted_iff]
        at h
      obtain ⟨_, ⟨_, _, ⟨_, _, rfl⟩, _, rfl⟩, rfl⟩ := h
      exact Payload.kind_of_ofFields hp
    | refused ps => rw [hp] at h; cases h
    | unkeyable k => rw [hp] at h; cases h
  · rw [Checked.ap_eq_accepted_iff] at h
    obtain ⟨_, _, _, hp, _⟩ := h
    cases hp

theorem kind_of_ofFields {fields : Fields} {n : Node} (h : ofFields fields = .accepted n) :
    NodeKind.ofJson (kindValue fields) = .accepted (some n.kind) := by
  unfold ofFields at h
  cases hk : NodeKind.ofJson (kindValue fields) with
  | accepted k =>
    rw [hk] at h
    cases k with
    | none => cases h
    | some kind =>
      rw [kind_of_ofKind h]
  | refused ps => rw [hk] at h; cases h
  | unkeyable k => rw [hk] at h; cases h

end WorkflowCanvas.Node
