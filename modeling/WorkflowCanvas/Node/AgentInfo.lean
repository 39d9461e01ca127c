import WorkflowCanvas.Decode.Form
import WorkflowCanvas.Decode.Scalar

/-! What is known about an agent, for display, and catalogs of agents. -/
namespace WorkflowCanvas
set_option autoImplicit false

/-- What is known about an agent. -/
structure AgentInfo where
  id : String
  name : String
  description : Option String
  path : Option String
  category : Option String
deriving DecidableEq

namespace AgentInfo

def entries (a : AgentInfo) : List Entry :=
  [⟨"agent_id", "agentId", .str a.id⟩, .plain "name" (.str a.name),
    .plain "description" (.ofText? a.description), .plain "path" (.ofText? a.path),
    .plain "category" (.ofText? a.category)]

def ofFields (fields : Fields) : Checked AgentInfo :=
  let text? (name : String) :=
    Checked.optional fields name name none (Checked.nullable Checked.text)
  (((((Checked.required fields "agentId" "agent_id" Checked.text).map mk).ap
    (Checked.required fields "name" "name" Checked.text)).ap
    (text? "description")).ap (text? "path")).ap (text? "category")

def ofJson : Json → Checked AgentInfo := Checked.record "AgentInfo" ofFields

end AgentInfo

/-- The agents that are known; of equal identifiers the last counts. -/
abbrev Catalog := List AgentInfo

/-- What is known about an agent. -/
def Catalog.find? (catalog : Catalog) (agent : String) : Option AgentInfo :=
  catalog.reverse.find? (·.id == agent)

end WorkflowCanvas
