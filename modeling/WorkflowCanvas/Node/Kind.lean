import WorkflowCanvas.Decode.Scalar

/-! Kinds of nodes, modes of steps and ends of edges, with the words that documents use for
them. Main statements: each word names what it was written for. -/
namespace WorkflowCanvas
set_option autoImplicit false

/-! ## Kinds of nodes -/

/-- The start and the end of a workflow, an agent not yet part of a step, and a step. -/
inductive NodeKind where
  | start
  | finish
  | agent
  | stepGroup
deriving DecidableEq, Repr

namespace NodeKind

def word : NodeKind → String
  | start => "start"
  | finish => "end"
  | agent => "agent"
  | stepGroup => "step-group"

/-- The kind that a word names; older documents spell the last one in camel case. -/
def ofWord? : String → Option NodeKind
  | "start" => some start
  | "end" => some finish
  | "agent" => some agent
  | "step-group" => some stepGroup
  | "stepGroup" => some stepGroup
  | _ => none

/-- Whether a kind marks an end of the workflow. -/
def isTerminal : NodeKind → Bool
  | start | finish => true
  | agent | stepGroup => false

/-- A value that names no kind. -/
def unknown : Cause := .notOneOf "start" ["end", "agent"] "step-group"

/-- The kind that a value names, if any; a list or an object cannot be looked up. -/
def ofJson : Json → Checked (Option NodeKind)
  | .str s => .accepted (ofWord? s)
  | .arr items => .unkeyable (Json.arr items).kindName
  | .obj fields => .unkeyable (Json.obj fields).kindName
  | _ => .accepted none

theorem ofWord?_word (k : NodeKind) : ofWord? k.word = some k := by cases k <;> rfl

end NodeKind

/-! ## Modes of steps -/

/-- Whether the agents of a step work one after the other or together. -/
inductive StepMode where
  | sequential
  | parallel
deriving DecidableEq, Repr

namespace StepMode

def word : StepMode → String
  | sequential => "sequential"
  | parallel => "parallel"

def ofWord? : String → Option StepMode
  | "sequential" => some sequential
  | "parallel" => some parallel
  | _ => none

def ofJson : Json → Checked StepMode :=
  Checked.choice ofWord? (.notOneOf "sequential" [] "parallel")

theorem ofWord?_word (m : StepMode) : ofWord? m.word = some m := by cases m <;> rfl

end StepMode

/-! ## Ends of edges -/

/-- Whether a handle is where an edge leaves or where it enters. -/
inductive Direction where
  | source
  | target
deriving DecidableEq, Repr

namespace Direction

def word : Direction → String
  | source => "source"
  | target => "target"

def ofWord? : String → Option Direction
  | "source" => some source
  | "target" => some target
  | _ => none

theorem ofWord?_word (d : Direction) : ofWord? d.word = some d := by cases d <;> rfl

end Direction
end WorkflowCanvas
