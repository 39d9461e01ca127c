import WorkflowCanvas.Json.Basic

/-! The spellings of a record. Documents spell the fields of a record by their keys and
leave empty fields out; inside the canvas each field also has an inner name, and its
absence is a null. -/
namespace WorkflowCanvas
set_option autoImplicit false

/-- A field of a record with both of its names. -/
structure Entry where
  inner : String
  key : String
  value : Json

/-- A field whose two names are the same. -/
def Entry.plain (name : String) (value : Json) : Entry := ⟨name, name, value⟩

/-- How the fields of a record are spelled. -/
inductive Form where
  /-- Inner names, empty fields as nulls. -/
  | inner
  /-- Document keys, empty fields as nulls. -/
  | keyed
  /-- Document keys, empty fields left out. -/
  | durable
deriving DecidableEq, Repr

def Form.fields (form : Form) (entries : List Entry) : Fields :=
  match form with
  | inner => entries.map fun e => (e.inner, e.value)
  | keyed => entries.map fun e => (e.key, e.value)
  | durable => Fields.dropNulls (entries.map fun e => (e.key, e.value))

def Form.object (form : Form) (entries : List Entry) : Json := .obj (form.fields entries)

end WorkflowCanvas
