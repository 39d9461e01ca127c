import WorkflowCanvas.Graph.Basic
import WorkflowCanvas.Graph.Chain
import WorkflowCanvas.Settings.Basic
import WorkflowCanvas.Workflow.Definition

/-! Rebuilding a graph from steps: a start, one step group for each step, and an end, in one
column and joined by edges in that order. Without steps the start and the end stay unjoined. -/
namespace WorkflowCanvas.Rebuild
set_option autoImplicit false

def startId : String := "start"

def finishId : String := "end"

/-- The identifier of a step, counted from 1. -/
def stepId (index : Nat) : String := "step-" ++ String.ofList (Decimal.digitsOf index)

theorem stepId_ne_empty (index : Nat) : stepId index ≠ "" :=
  have h : (stepId index).toList = 's' :: ("tep-".toList ++ Decimal.digitsOf index) := by
    simp [stepId]
  Chain.ne_empty_of_toList_cons h

def startNode (layout : Layout) : Node :=
  ⟨startId, ⟨layout.x, layout.startY⟩, .start ⟨"Start", none⟩, by decide⟩

/-- The end, at a height. -/
def finishNode (layout : Layout) (y : Float) : Node :=
  ⟨finishId, ⟨layout.x, y⟩, .finish ⟨"End", none⟩, by decide⟩

/-- The step group of a step, labelled with its title. -/
def groupOf (s : Step) : StepGroup :=
  ⟨s.title, s.mode, s.purpose, s.agents, ⟨s.title.text, s.title.text_ne_empty⟩, none⟩

/-- The step groups and the end, from a height downwards. -/
def tail (layout : Layout) : Nat → Float → List Step → List Node
  | _, y, [] => [finishNode layout y]
  | index, y, s :: rest =>
    ⟨stepId index, ⟨layout.x, y⟩, .stepGroup (groupOf s), stepId_ne_empty index⟩ ::
      tail layout (index + 1) (y + layout.spacing) rest

def nodes (layout : Layout) (steps : List Step) : List Node :=
  startNode layout :: tail layout 1 layout.firstStepY steps

/-- All edges; there are none without steps. -/
def edges (layout : Layout) (steps : List Step) : List Edge :=
  if steps.isEmpty then [] else Chain.links ((nodes layout steps).map Node.id)

def graph (layout : Layout) (steps : List Step) : Except Fault Graph :=
  Graph.build (nodes layout steps) (edges layout steps)

end WorkflowCanvas.Rebuild
