import WorkflowCanvas.Json.Bisection
import WorkflowCanvas.Json.Writer

/-! Data to be written as documents. A table may have keys that are no texts: absent, true,
false and numeric keys are written as texts, any other key is refused. Numeric keys that are
equal are one key, whatever their kind. A whole number with too many digits is refused. -/
namespace WorkflowCanvas
set_option autoImplicit false

/-- A key of a table; `other` is a key that no document can hold, known by its kind. -/
inductive Datum.Key where
  | text (s : String)
  | null
  | bool (b : Bool)
  | int (n : Int)
  | float (x : Float)
  | other (kind : String)

/-- A document value, or a list or table of data. -/
inductive Datum where
  | plain (v : Json)
  | list (items : List Datum)
  | table (entries : List (Datum.Key × Datum))

namespace Datum

/-! ## Keys -/

/-- A numeric key as an exact number; infinite keys lie beyond all others. -/
inductive Magnitude where
  | below
  | ratio (num : Int) (den : Nat)
  | above
  | undefined

/-- The exact value of a double. -/
def Magnitude.ofFloat (x : Float) : Magnitude :=
  if x.isNaN then undefined
  else if x.isInf then (if x < 0.0 then below else above)
  else
    let v := Decimal.exact x
    ratio (if x < 0.0 then -(v.num : Int) else v.num) v.den

/-- Strictly smaller; nothing compares with an undefined number. -/
def Magnitude.less : Magnitude → Magnitude → Bool
  | undefined, _ => false
  | _, undefined => false
  | below, below => false
  | below, _ => true
  | _, below => false
  | above, _ => false
  | _, above => true
  | ratio a b, ratio c d => a * d < c * b

namespace Key

/-- The word by which messages name the kind of a key. -/
def kindName : Key → String
  | text _ => "str"
  | null => "NoneType"
  | bool _ => "bool"
  | int _ => "int"
  | float _ => "float"
  | other kind => kind

/-- The number that a numeric key is; true counts as one and false as zero. -/
def magnitude? : Key → Option Magnitude
  | bool b => some (.ratio (if b then 1 else 0) 1)
  | int n => some (.ratio n 1)
  | float x => some (.ofFloat x)
  | _ => none

def same : Key → Key → Bool
  | text s, text t => s == t
  | null, null => true
  | a, b =>
    match a.magnitude?, b.magnitude? with
    | some (.ratio a b), some (.ratio c d) => a * d == c * b
    | some .below, some .below => true
    | some .above, some .above => true
    | _, _ => false

/-- Whether sorting can put the one key before the other. -/
def comparable : Key → Key → Bool
  | text _, text _ => true
  | other a, other b => a == b
  | a, b => a.magnitude?.isSome && b.magnitude?.isSome

/-- The order of comparable keys: texts by code point, numbers by size. -/
def less : Key → Key → Bool
  | text s, text t => s < t
  | a, b =>
    match a.magnitude?, b.magnitude? with
    | some m, some n => m.less n
    | _, _ => false

end Key

/-- Adds an entry to a table: an entry of the same key keeps its place and its key. -/
def addEntry (key : Key) (v : Datum) : List (Key × Datum) → List (Key × Datum)
  | [] => [(key, v)]
  | (k, old) :: rest => if k.same key then (k, v) :: rest else (k, old) :: addEntry key v rest

/-- The table that a row of pairs spells. -/
def ofPairs (pairs : List (Key × Datum)) : Datum :=
  table (pairs.foldl (fun entries pair => addEntry pair.1 pair.2 entries) [])

/-! ## Settling on a document value -/

/-- Why data cannot be written. -/
inductive WriteFault where
  | badKey (kind : String)
  | incomparable (left right : String)
  | longNumber
deriving DecidableEq, Repr

def WriteFault.message : WriteFault → String
  | badKey kind =>
    s!"Failed to serialize to JSON: keys must be str, int, float, bool or None, not {kind}"
  | incomparable left right =>
    s!"Failed to serialize to JSON: '<' not supported between instances of '{left}' and '{right}'"
  | longNumber =>
    s!"Failed to serialize to JSON: Exceeds the limit ({Json.digitLimit} digits) for integer " ++
      "string conversion; use sys.set_int_max_str_digits() to increase the limit"

/-- The text that a key is written as. -/
def Key.written : Key → Except WriteFault String
  | text s => .ok s
  | null => .ok "null"
  | bool true => .ok "true"
  | bool false => .ok "false"
  | int n => if Json.isLong n then .error .longNumber else .ok (String.ofList (Decimal.intText n))
  | float x => .ok (String.ofList (Json.floatText x))
  | other kind => .error (.badKey kind)

def precedes (a b : Key) : Except WriteFault Bool :=
  if a.comparable b then .ok (a.less b) else .error (.incomparable a.kindName b.kindName)

/-- The entries of a table in the order in which they are written. -/
def arrange {α : Type} (sortKeys : Bool) (entries : List (Key × α)) :
    Except WriteFault (List (Key × α)) :=
  if sortKeys then Bisection.sort (fun a b => precedes a.1 b.1) entries else .ok entries

/-- The fields that entries are written as; the first entry whose key or value is at fault
decides, the key before the value. -/
def nameFields : List (Key × Except WriteFault Json) → Except WriteFault (List (String × Json))
  | [] => .ok []
  | (key, value) :: rest =>
    match key.written, value with
    | .error fault, _ => .error fault
    | .ok _, .error fault => .error fault
    | .ok name, .ok v => (nameFields rest).map ((name, v) :: ·)

mutual

/-- The document value that is written for data. -/
def settle (sortKeys : Bool) : Datum → Except WriteFault Json
  | plain v => if v.hasLong then .error .longNumber else .ok (if sortKeys then v.sorted else v)
  | list items => (settleItems sortKeys items).map .arr
  | table entries => do
    let entries ← arrange sortKeys (settleEntries sortKeys entries)
    return .obj (← nameFields entries)

/-- The values of the items, up to the first fault. -/
def settleItems (sortKeys : Bool) : List Datum → Except WriteFault (List Json)
  | [] => .ok []
  | item :: rest =>
    match settle sortKeys item with
    | .error fault => .error fault
    | .ok v => (settleItems sortKeys rest).map (v :: ·)

/-- What the value of each entry settles on, under its key. -/
def settleEntries (sortKeys : Bool) :
    List (Key × Datum) → List (Key × Except WriteFault Json)
  | [] => []
  | (key, item) :: rest => (key, settle sortKeys item) :: settleEntries sortKeys rest

end

def render (style : Json.Style) (d : Datum) : Except WriteFault String :=
  (d.settle style.sortKeys).map (Json.write style.indent)

end Datum
end WorkflowCanvas
