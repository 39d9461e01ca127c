/-! Records of the journal, and the levels by which they are told apart. -/
namespace WorkflowCanvas
set_option autoImplicit false

/-- How much a record matters. -/
inductive Level where
  | debug
  | info
  | warning
deriving DecidableEq, Repr

def Level.word : Level → String
  | debug => "DEBUG"
  | info => "INFO"
  | warning => "WARNING"

/-- One record of the journal. -/
structure Record where
  level : Level
  text : String
deriving DecidableEq, Repr

namespace Record

/-- A record of what happens inside. -/
def debug (text : String) : Record := ⟨.debug, text⟩

/-- A record of what was done. -/
def info (text : String) : Record := ⟨.info, text⟩

/-- A record of what needs attention. -/
def warning (text : String) : Record := ⟨.warning, text⟩

def line (r : Record) : String := s!"{r.level.word} {r.text}"

end Record
end WorkflowCanvas
