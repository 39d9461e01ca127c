import WorkflowCanvas.Json.Basic
import WorkflowCanvas.Text.Quoted

/-! Values as messages show them: texts between quotes, words for null and for the flags, and the
parts of lists and objects in their order. -/
namespace WorkflowCanvas.Json
set_option autoImplicit false

mutual

def shown : Json → String
  | null => Text.absent
  | bool true => "True"
  | bool false => "False"
  | int n => String.ofList (Decimal.intText n)
  | float x => Decimal.plainFloat x
  | str s => Text.quoted s
  | arr items => "[" ++ ", ".intercalate (shownItems items) ++ "]"
  | obj fields => "\x7b" ++ ", ".intercalate (shownFields fields) ++ "\x7d"

/-- The items of a list, each in a message. -/
def shownItems : List Json → List String
  | [] => []
  | v :: rest => shown v :: shownItems rest

/-- The fields of an object, each in a message. -/
def shownFields : Fields → List String
  | [] => []
  | (name, v) :: rest => (Text.quoted name ++ ": " ++ shown v) :: shownFields rest

end

end WorkflowCanvas.Json
