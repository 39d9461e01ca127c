/-! Paths. A path is a row of names from a root, if it has one; empty names and the name of the
place itself are dropped, and steps upwards are kept. -/
namespace WorkflowCanvas
set_option autoImplicit false

/-- A path: how it is rooted, and its names. -/
structure Path where
  root : String
  names : List String
deriving DecidableEq, Repr

namespace Path

/-- Pieces between slashes. -/
def pieces : List Char → List (List Char)
  | [] => [[]]
  | c :: rest =>
    if c == '/' then [] :: pieces rest
    else
      match pieces rest with
      | piece :: others => (c :: piece) :: others
      | [] => [[c]]

/-- How many slashes start a text decides the root: two are a root of their own, any other number
is the root. -/
def rootOf (cs : List Char) : String :=
  match (cs.takeWhile (· == '/')).length with
  | 0 => ""
  | 2 => "//"
  | _ => "/"

def ofText (s : String) : Path where
  root := rootOf s.toList
  names := ((pieces s.toList).map String.ofList).filter fun name => name != "" && name != "."

/-- The text of a path; a path that leads nowhere else is a dot. -/
def text (p : Path) : String :=
  if p.root.isEmpty && p.names.isEmpty then "." else p.root ++ "/".intercalate p.names

/-- A path below another; a rooted path stands for itself. -/
def join (p q : Path) : Path := if q.root.isEmpty then { p with names := p.names ++ q.names } else q

/-- The path of a name below a path. -/
def child (p : Path) (name : String) : Path := p.join (ofText name)

/-- The path above; there is none above the top. -/
def parent (p : Path) : Path := { p with names := p.names.dropLast }

/-- A name without its last suffix; a dot at either end of a name starts no suffix. -/
def stem (name : String) : String :=
  let cs := name.toList
  let suffix := (cs.reverse.takeWhile (· != '.')).length
  let kept := cs.length - suffix - 1
  if suffix = 0 ∨ suffix ≥ cs.length ∨ kept = 0 then name else String.ofList (cs.take kept)

end Path
end WorkflowCanvas
