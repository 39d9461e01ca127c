import WorkflowCanvas.Json.Basic

/-! What can be wrong with a value that should be a record: each problem has a place inside
the value and a cause, and each cause its wording. -/
namespace WorkflowCanvas
set_option autoImplicit false

/-- One step into a value. -/
inductive Segment where
  | field (name : String)
  | item (index : Nat)
deriving DecidableEq, Repr

/-- A step as it is written in a place. -/
def Segment.text : Segment → String
  | field name => name
  | item index => toString index

/-- Why a value is refused. -/
inductive Cause where
  | missing
  | notRecord (model : String)
  | notText
  | tooLong (limit : Nat)
  | tooShort
  | offPattern (pattern : String)
  | blankGroupTitle
  | blankStepTitle
  | blankName
  | wrongPayload (kind needed given : String)
  | notNumber
  | badNumeral
  | notPositive
  | notFlag
  | badFlag
  | notList
  | notOneOf (first : String) (others : List String) (last : String)
deriving DecidableEq, Repr

def Cause.message : Cause → String
  | missing => "Field required"
  | notRecord model => s!"Input should be a valid dictionary or instance of {model}"
  | notText => "Input should be a valid string"
  | tooLong limit => s!"String should have at most {limit} characters"
  | tooShort => "String should have at least 1 character"
  | offPattern pattern => s!"String should match pattern '{pattern}'"
  | blankGroupTitle => "Value error, Group title cannot be empty"
  | blankStepTitle => "Value error, Step title cannot be empty"
  | blankName => "Value error, Workflow name is required"
  | wrongPayload kind needed given =>
    s!"Value error, {kind} node requires {needed}, got {given}"
  | notNumber => "Input should be a valid number"
  | badNumeral => "Input should be a valid number, unable to parse string as a number"
  | notPositive => "Input should be greater than 0"
  | notFlag => "Input should be a valid boolean"
  | badFlag => "Input should be a valid boolean, unable to interpret input"
  | notList => "Input should be a valid list"
  | notOneOf first others last =>
    let quoted := (first :: others).map fun word => s!"'{word}'"
    let listed := ", ".intercalate quoted
    s!"Input should be {listed} or '{last}'"

/-- A cause at a place. -/
structure Problem where
  place : List Segment
  cause : Cause
deriving DecidableEq, Repr

namespace Problem

def message (p : Problem) : String := p.cause.message

/-- The wording of the cause behind its place; a problem of the whole value has no place. -/
def line (p : Problem) : String :=
  let place := ".".intercalate (p.place.map Segment.text)
  if place.isEmpty then p.message else s!"{place}: {p.message}"

/-- The same problem, seen from one step further out. -/
def under (s : Segment) (p : Problem) : Problem := { p with place := s :: p.place }

end Problem
end WorkflowCanvas
