import WorkflowCanvas.Json.Basic
import WorkflowCanvas.Text.Quoted

/-! Writing document text, in ASCII alone: on one line, or with each item on a line of its
own, indented by its depth. Empty lists and objects stay closed. -/
namespace WorkflowCanvas.Json
set_option autoImplicit false

/-! ## Strings and numbers -/

/-- One code unit, spelled in four digits. -/
def unitText (n : Nat) : List Char := '\\' :: 'u' :: Text.hex 4 n

/-- A character inside a string: itself when it is printable ASCII, else by an escape; beyond
the basic plane it takes two code units. -/
def charText (c : Char) : List Char :=
  if c == '"' then ['\\', '"']
  else if c == '\\' then ['\\', '\\']
  else if c == '\n' then ['\\', 'n']
  else if c == '\r' then ['\\', 'r']
  else if c == '\t' then ['\\', 't']
  else if c == '\x08' then ['\\', 'b']
  else if c == '\x0c' then ['\\', 'f']
  else if 0x20 ≤ c.toNat ∧ c.toNat < 0x7F then [c]
  else if c.toNat < 0x10000 then unitText c.toNat
  else
    let n := c.toNat - 0x10000
    unitText (0xD800 + n / 0x400) ++ unitText (0xDC00 + n % 0x400)

def stringText (s : String) : List Char := '"' :: s.toList.flatMap charText ++ ['"']

def floatText (x : Float) : List Char := Decimal.floatText Decimal.documentWords x

/-! ## Layout -/

/-- What stands between a bracket and an item at a depth: nothing on one line, else a line
break and the indentation. -/
def gap (indent : Option Nat) (depth : Nat) : List Char :=
  match indent with
  | none => []
  | some n => '\n' :: List.replicate (n * depth) ' '

/-- What stands between two items at a depth. -/
def separator (indent : Option Nat) (depth : Nat) : List Char :=
  match indent with
  | none => [',', ' ']
  | some _ => ',' :: gap indent depth

/-- Texts between brackets, each on its own line when there is an indentation. -/
def enclose (indent : Option Nat) (depth : Nat) (left right : Char) (parts : List (List Char)) :
    List Char :=
  if parts.isEmpty then [left, right]
  else
    left :: gap indent (depth + 1) ++ (separator indent (depth + 1)).intercalate parts ++
      gap indent depth ++ [right]

mutual

def writeAt (indent : Option Nat) (depth : Nat) : Json → List Char
  | null => "null".toList
  | bool true => "true".toList
  | bool false => "false".toList
  | int n => Decimal.intText n
  | float x => floatText x
  | str s => stringText s
  | arr items => enclose indent depth '[' ']' (itemTexts indent (depth + 1) items)
  | obj fields => enclose indent depth '{' '}' (fieldTexts indent (depth + 1) fields)

def itemTexts (indent : Option Nat) (depth : Nat) : List Json → List (List Char)
  | [] => []
  | item :: rest => writeAt indent depth item :: itemTexts indent depth rest

def fieldTexts (indent : Option Nat) (depth : Nat) : List (String × Json) → List (List Char)
  | [] => []
  | (name, v) :: rest =>
    (stringText name ++ ':' :: ' ' :: writeAt indent depth v) :: fieldTexts indent depth rest

end

/-- The text of a value, on one line or indented. -/
def write (indent : Option Nat) (v : Json) : String := String.ofList (writeAt indent 0 v)

/-! ## Long numbers -/

/-- Whether a whole number has more digits than the limit. -/
def isLong (n : Int) : Bool := digitLimit < Decimal.digitCount n.natAbs

mutual

/-- Whether there is a whole number in a value that has more digits than the limit. -/
def hasLong : Json → Bool
  | int n => isLong n
  | arr items => itemsHaveLong items
  | obj fields => fieldsHaveLong fields
  | _ => false

/-- Whether there is such a number in an item. -/
def itemsHaveLong : List Json → Bool
  | [] => false
  | item :: rest => hasLong item || itemsHaveLong rest

/-- Whether there is such a number in the value of a field. -/
def fieldsHaveLong : List (String × Json) → Bool
  | [] => false
  | (_, v) :: rest => hasLong v || fieldsHaveLong rest

end

/-! ## Sorted fields -/

/-- Fields in the order of their names, by code point. -/
def sortFields (fields : Fields) : Fields := fields.mergeSort fun a b => a.1 ≤ b.1

mutual

/-- The value with the fields of every object in it sorted. -/
def sorted : Json → Json
  | arr items => arr (sortedItems items)
  | obj fields => obj (sortFields (sortedFields fields))
  | v => v

def sortedItems : List Json → List Json
  | [] => []
  | item :: rest => sorted item :: sortedItems rest

def sortedFields : List (String × Json) → List (String × Json)
  | [] => []
  | (name, v) :: rest => (name, sorted v) :: sortedFields rest

end

/-- How a document is written. -/
structure Style where
  indent : Option Nat := some 2
  sortKeys : Bool := false

def render (style : Style) (v : Json) : String :=
  write style.indent (if style.sortKeys then v.sorted else v)

end WorkflowCanvas.Json
