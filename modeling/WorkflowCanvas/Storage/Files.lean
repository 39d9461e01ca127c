import WorkflowCanvas.Fault
import WorkflowCanvas.Journal.Record
import WorkflowCanvas.Storage.Basic
import WorkflowCanvas.Text.Sorted

/-! Workflow documents as files. Each document is a file of one directory, named for its workflow:
a character that is no ASCII letter or digit becomes a hyphen, so that several names may share a
file. -/
namespace WorkflowCanvas
set_option autoImplicit false

/-- A directory of documents, with the ending of their names. -/
structure FileStorage where
  directory : Path
  ending : String := ".json"
deriving DecidableEq

namespace FileStorage

/-! ## Names -/

/-- The name of a file, without its ending. -/
def fileName (name : String) : String :=
  String.ofList (name.toList.map fun c => if c.isAlphanum then c else '-')

def pathFor (s : FileStorage) (name : String) : Path :=
  s.directory.child (fileName name ++ s.ending)

/-! ## Contents of files -/

/-- Why the content of a file is no document. -/
inductive ContentFault where
  | notText (why : Text.Utf8.Fault)
  | notJson (why : Json.ReadFault)
deriving DecidableEq

def ContentFault.message : ContentFault → String
  | notText why => s!"File is not valid UTF-8: {why.message}"
  | notJson why => why.message

/-- The text of a file, its line breaks all alike. -/
def textOf (content : List UInt8) : Except Text.Utf8.Fault String :=
  (Text.Utf8.decode content).map fun cs => String.ofList (Text.Utf8.plainBreaks cs)

/-- The document in the content of a file. -/
def documentOf (content : List UInt8) : Except ContentFault Fields :=
  match textOf content with
  | .error why => .error (.notText why)
  | .ok text => (Json.readObject text).mapError .notJson

/-! ## Documents -/

/-- Saves data as the document of a name, and gives its path. Data that cannot be written changes
nothing; directories on the way are made. -/
def save (s : FileStorage) (v : Volume) (name : String) (document : Datum) :
    Except Failure String × Volume :=
  let p := s.pathFor name
  let refuse (why : String) : Except Failure String :=
    .error (.fault (.storage s!"Failed to save workflow '{name}': {why}" (some p.text)))
  match document.render {} with
  | .error why => (refuse why.message, v)
  | .ok text =>
    match v.makeDirectories p.parent with
    | (.error why, v) => (refuse why.message, v)
    | (.ok (), v) =>
      match v.write p (Text.Utf8.encode text.toList) with
      | .error why => (refuse why.message, v)
      | .ok v => (.ok p.text, v)

/-- Loads the document of a name. A number with too many digits is told as it is. -/
def load (s : FileStorage) (v : Volume) (name : String) : Except Failure Fields :=
  let p := s.pathFor name
  let refuse (why : String) : Except Failure Fields :=
    .error (.fault (.storage s!"Failed to read workflow '{name}': {why}" (some p.text)))
  match v.has? p with
  | .error why => .error (.unreachable why)
  | .ok false => .error (.fault (.workflowUnknown name (some p.text)))
  | .ok true =>
    match v.read p with
    | .error why => refuse why.message
    | .ok content =>
      match documentOf content with
      | .ok fields => .ok fields
      | .error (.notJson (.longNumber digits)) => .error (.unreadable (.longNumber digits))
      | .error why => refuse why.message

/-- Deletes the document of a name; tells whether there was one. -/
def delete (s : FileStorage) (v : Volume) (name : String) : Except Failure (Bool × Volume) :=
  let p := s.pathFor name
  match v.has? p with
  | .error why => .error (.unreachable why)
  | .ok false => .ok (false, v)
  | .ok true =>
    match v.remove p with
    | .ok v => .ok (true, v)
    | .error why =>
      .error (.fault (.storage s!"Failed to delete workflow '{name}': {why.message}"
        (some p.text)))

/-- The names of all files with the ending, without their last suffix, in order. -/
def names (s : FileStorage) (v : Volume) : Except Failure (List String) :=
  match v.hasDirectory s.directory with
  | .error why => .error (.unreachable why)
  | .ok false => .ok []
  | .ok true =>
    .ok (Text.sorted (((v.namesIn s.directory).filter (·.endsWith s.ending)).map Path.stem))

def asStorage (s : FileStorage) : Storage Volume where
  save v name fields := s.save v name (.plain (.obj fields))
  load v name := s.load v name

/-! ## Journal -/

def saveRecords (name : String) (saved : Except Failure String) : List Record :=
  match saved with
  | .ok path => [.info s!"Saved workflow '{name}' to {path}"]
  | .error _ => []

def loadRecords (s : FileStorage) (name : String) (loaded : Except Failure Fields) : List Record :=
  let path := (s.pathFor name).text
  match loaded with
  | .ok _ => [.info s!"Loaded workflow '{name}' from {path}"]
  | .error _ => []

def deleteRecords (name : String) (deleted : Except Failure (Bool × Volume)) : List Record :=
  match deleted with
  | .ok (true, _) => [.info s!"Deleted workflow '{name}'"]
  | _ => []

end FileStorage
end WorkflowCanvas
