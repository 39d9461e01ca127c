import WorkflowCanvas.Storage.Path
import WorkflowCanvas.Text.Utf8

/-! Volumes: directories and files under paths. A path is followed name by name; each name on
the way must be a directory. Names are limited to 255 bytes. -/
namespace WorkflowCanvas
set_option autoImplicit false

/-! ## Faults -/

/-- Why a volume refuses something. -/
inductive VolumeFault where
  | missing
  | taken
  | notDirectory
  | isDirectory
  | nameTooLong
deriving DecidableEq, Repr

namespace VolumeFault

def number : VolumeFault → Nat
  | missing => 2
  | taken => 17
  | notDirectory => 20
  | isDirectory => 21
  | nameTooLong => 36

def wording : VolumeFault → String
  | missing => "No such file or directory"
  | taken => "File exists"
  | notDirectory => "Not a directory"
  | isDirectory => "Is a directory"
  | nameTooLong => "File name too long"

end VolumeFault

/-- A fault with the path that was asked for. -/
structure PathFault where
  fault : VolumeFault
  path : String
deriving DecidableEq, Repr

def PathFault.message (f : PathFault) : String :=
  let shown := Text.quoted f.path
  s!"[Errno {f.fault.number}] {f.fault.wording}: {shown}"

/-! ## Volumes -/

/-- What a path leads to. -/
inductive Item where
  | directory
  | file (content : List UInt8)
deriving DecidableEq

/-- The items of a volume under the names that lead to them from the top; the top itself is a
directory. -/
structure Volume where
  items : List (List String × Item) := []

namespace Volume

/-- The longest name, in bytes. -/
def nameLimit : Nat := 255

/-- The item under names without steps upwards. -/
def item? (v : Volume) (names : List String) : Option Item :=
  if names.isEmpty then some .directory else v.items.lookup names

/-- One name further from a directory. -/
def enter (here : List String) (name : String) : Except VolumeFault (List String) :=
  if name == ".." then .ok here.dropLast
  else if nameLimit < name.utf8ByteSize then .error .nameTooLong
  else .ok (here ++ [name])

/-- Follows names from a directory; the last may lead to nothing. -/
def follow (v : Volume) (here : List String) : List String → Except VolumeFault (List String)
  | [] => .ok here
  | [name] => enter here name
  | name :: rest => do
    let next ← enter here name
    match v.item? next with
    | some .directory => v.follow next rest
    | some (.file _) => .error .notDirectory
    | none => .error .missing

/-- The place of a path, and the item that is there. -/
def find (v : Volume) (p : Path) : Except VolumeFault (List String × Option Item) :=
  (v.follow [] p.names).map fun place => (place, v.item? place)

def item (v : Volume) (p : Path) : Except VolumeFault Item := do
  match ← v.find p with
  | (_, some item) => .ok item
  | (_, none) => .error .missing

def told {α : Type} (p : Path) (x : Except VolumeFault α) : Except PathFault α :=
  x.mapError fun fault => ⟨fault, p.text⟩

/-- Whether there is an item of a kind; a path that leads nowhere has none. -/
def has (v : Volume) (p : Path) (test : Item → Bool) : Except PathFault Bool :=
  match v.item p with
  | .ok item => .ok (test item)
  | .error .missing | .error .notDirectory => .ok false
  | .error fault => .error ⟨fault, p.text⟩

def has? (v : Volume) (p : Path) : Except PathFault Bool := v.has p fun _ => true

def hasDirectory (v : Volume) (p : Path) : Except PathFault Bool := v.has p (· == .directory)

/-! ## Changing -/

/-- The volume with an item at a place, instead of what was there. -/
def put (v : Volume) (place : List String) (item : Item) : Volume :=
  ⟨v.items.filter (·.1 != place) ++ [(place, item)]⟩

def make (v : Volume) (p : Path) : Except VolumeFault Volume := do
  match ← v.find p with
  | (_, some _) => .error .taken
  | (place, none) => .ok (v.put place .directory)

/-- Makes a directory, unless it is there already. -/
def makeOrKeep (v : Volume) (p : Path) : Except VolumeFault Volume :=
  match v.make p with
  | .ok v => .ok v
  | .error fault =>
    match v.item p with
    | .ok .directory => .ok v
    | _ => .error fault

/-- Makes a directory and all above it, from the names of its path; what was made before a fault
stays. -/
def makeAll (root : String) (v : Volume) (names : List String) : Except PathFault Unit × Volume :=
  let p : Path := ⟨root, names⟩
  match v.makeOrKeep p with
  | .ok v => (.ok (), v)
  | .error fault =>
    if fault = .missing ∧ names ≠ [] then
      match makeAll root v names.dropLast with
      | (.error above, v) => (.error above, v)
      | (.ok (), v) =>
        match v.makeOrKeep p with
        | .ok v => (.ok (), v)
        | .error fault => (.error ⟨fault, p.text⟩, v)
    else (.error ⟨fault, p.text⟩, v)
termination_by names.length
decreasing_by
  rename_i h
  have : 0 < names.length := List.length_pos_iff.2 h.2
  simp only [List.length_dropLast]
  omega

/-- Makes the directory of a path and all above it. -/
def makeDirectories (v : Volume) (p : Path) : Except PathFault Unit × Volume :=
  v.makeAll p.root p.names

/-- Writes a file, instead of a file that was there. -/
def write (v : Volume) (p : Path) (content : List UInt8) : Except PathFault Volume :=
  told p do
    match ← v.find p with
    | (_, some .directory) => .error .isDirectory
    | (place, _) => .ok (v.put place (.file content))

def read (v : Volume) (p : Path) : Except PathFault (List UInt8) :=
  told p do
    match ← v.item p with
    | .directory => .error .isDirectory
    | .file content => .ok content

def remove (v : Volume) (p : Path) : Except PathFault Volume :=
  told p do
    match ← v.find p with
    | (_, none) => .error .missing
    | (_, some .directory) => .error .isDirectory
    | (place, some (.file _)) => .ok ⟨v.items.filter (·.1 != place)⟩

def namesIn (v : Volume) (p : Path) : List String :=
  match v.follow [] p.names with
  | .ok place => v.items.filterMap fun i =>
      if i.1.dropLast == place && !i.1.isEmpty then i.1.getLast? else none
  | .error _ => []

end Volume
end WorkflowCanvas
