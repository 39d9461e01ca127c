import WorkflowCanvas.Decode.Form
import WorkflowCanvas.Decode.Scalar
import WorkflowCanvas.Graph.Review

/-! Verdicts: what a review found, as texts that can be shown and passed on. -/
namespace WorkflowCanvas
set_option autoImplicit false

/-- The outcome of a review in words. -/
structure Verdict where
  structural : List String
  unassigned : List String
  disconnected : List String
  deadEnds : List String
  agentIds : List String
deriving DecidableEq

namespace Verdict

def ofReview (r : Review) : Verdict where
  structural := r.violations.map Violation.message
  unassigned := r.loose.map LooseAgent.message
  disconnected := r.disconnected
  deadEnds := r.deadEnds
  agentIds := r.loose.map LooseAgent.node

def errors (v : Verdict) : List String := v.structural ++ v.unassigned

def isValid (v : Verdict) : Bool := v.errors.isEmpty

def entries (v : Verdict) : List Entry :=
  [.plain "structural_errors" (.ofTexts v.structural),
    .plain "unassigned_agents" (.ofTexts v.unassigned),
    .plain "disconnected_nodes" (.ofTexts v.disconnected),
    .plain "dead_end_nodes" (.ofTexts v.deadEnds),
    .plain "unassigned_agent_ids" (.ofTexts v.agentIds)]

def ofFields (fields : Fields) : Checked Verdict :=
  let texts (name : String) :=
    Checked.optional fields name name [] (Checked.list Checked.text)
  (((((texts "structural_errors").map Verdict.mk).ap (texts "unassigned_agents")).ap
    (texts "disconnected_nodes")).ap (texts "dead_end_nodes")).ap (texts "unassigned_agent_ids")

def ofJson : Json → Checked Verdict := Checked.record "ValidationResult" ofFields

end Verdict

def Graph.verdict (g : Graph) : Verdict := .ofReview g.review

end WorkflowCanvas
