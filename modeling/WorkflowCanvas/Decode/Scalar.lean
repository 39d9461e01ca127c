import WorkflowCanvas.Decode.Checked

/-! Texts, numbers, flags and choices. A number may be given as a whole number, a double, a
flag or a numeral; a flag as a word or as one or zero. -/
namespace WorkflowCanvas
set_option autoImplicit false

/-- A text of at most so many characters. -/
structure Bounded (limit : Nat) where
  text : String
  fits : text.length ≤ limit
deriving DecidableEq

namespace Checked

def text : Json → Checked String
  | .str s => accepted s
  | _ => stop .notText

def nonempty : Json → Checked { s : String // s ≠ "" }
  | .str s => if h : s ≠ "" then accepted ⟨s, h⟩ else stop .tooShort
  | _ => stop .notText

def bounded (limit : Nat) : Json → Checked (Bounded limit)
  | .str s => if h : s.length ≤ limit then accepted ⟨s, h⟩ else stop (.tooLong limit)
  | _ => stop .notText

/-- A double; a whole number too large for one is none. -/
def number : Json → Checked Float
  | .float x => accepted x
  | .int n =>
    let x := Decimal.floatOfInt n
    if x.isInf then stop .notNumber else accepted x
  | .bool b => accepted (if b then 1.0 else 0.0)
  | .str s =>
    match Decimal.readFloat? s with
    | some x => accepted x
    | none => stop .badNumeral
  | _ => stop .notNumber

/-- A double above zero; the undefined double is not. -/
def positive (v : Json) : Checked { x : Float // (0.0 < x : Bool) = true } :=
  (number v).andThen fun x =>
    if h : (0.0 < x : Bool) = true then accepted ⟨x, h⟩ else stop .notPositive

/-- The words for yes, and those for no, in any case. -/
def flagWords : List (String × Bool) :=
  [("0", false), ("off", false), ("f", false), ("false", false), ("n", false), ("no", false),
    ("1", true), ("on", true), ("t", true), ("true", true), ("y", true), ("yes", true)]

def flag : Json → Checked Bool
  | .bool b => accepted b
  | .int n => if n == 0 then accepted false else if n == 1 then accepted true else stop .badFlag
  | .float x =>
    if x == 0.0 then accepted false
    else if x == 1.0 then accepted true
    else if x.isFinite && x.floor == x then stop .badFlag
    else stop .notFlag
  | .str s =>
    match flagWords.lookup (String.ofList (Text.lowerAscii s.toList)) with
    | some b => accepted b
    | none => stop .badFlag
  | _ => stop .notFlag

def choice {α : Type} (ofWord? : String → Option α) (otherwise : Cause) : Json → Checked α
  | .str s =>
    match ofWord? s with
    | some a => accepted a
    | none => stop otherwise
  | _ => stop otherwise

end Checked
end WorkflowCanvas
