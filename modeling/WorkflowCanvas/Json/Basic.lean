import WorkflowCanvas.Decimal.Numeral

/-! Document values. The fields of an object keep their order; a whole number is told
apart from a double. Main statements: what a field reads as after it was set, and that
setting a field leaves the others alone. -/
namespace WorkflowCanvas
set_option autoImplicit false

/-- A value of a document. -/
inductive Json where
  | null
  | bool (value : Bool)
  | int (value : Int)
  | float (value : Float)
  | str (value : String)
  | arr (items : List Json)
  | obj (fields : List (String × Json))
deriving Inhabited

/-- The fields of an object, in order. -/
abbrev Fields := List (String × Json)

namespace Json

/-- The word by which messages name the kind of a value. -/
def kindName : Json → String
  | null => "NoneType"
  | bool _ => "bool"
  | int _ => "int"
  | float _ => "float"
  | str _ => "str"
  | arr _ => "list"
  | obj _ => "dict"

/-- Null, false, zero, and every empty text, list or object. -/
def isHollow : Json → Bool
  | null => true
  | bool b => !b
  | int n => n == 0
  | float x => x == 0.0
  | str s => s.isEmpty
  | arr items => items.isEmpty
  | obj fields => fields.isEmpty

def text? : Json → Option String
  | str s => some s
  | _ => none

def ofText? : Option String → Json
  | none => null
  | some s => str s

def ofTexts (items : List String) : Json := arr (items.map str)

/-- Whole numbers with more digits than this are refused. -/
def digitLimit : Nat := 4300

end Json

namespace Fields

/-- The value of the first field of a name. -/
def get? (fields : Fields) (name : String) : Option Json := fields.lookup name

def has (fields : Fields) (name : String) : Bool := (fields.get? name).isSome

/-- Replaces the value of a field in its place, or adds the field at the end. -/
def set (name : String) (value : Json) : Fields → Fields
  | [] => [(name, value)]
  | (key, old) :: rest =>
    if key == name then (key, value) :: rest else (key, old) :: set name value rest

/-- Sets several fields, one after the other. -/
def setAll (fields changes : Fields) : Fields :=
  changes.foldl (fun fs change => fs.set change.1 change.2) fields

/-- The object that a row of pairs spells: a repeated name keeps its first place and last value. -/
def ofPairs (pairs : List (String × Json)) : Fields := setAll [] pairs

def keep (fields : Fields) (test : String → Bool) : Fields := fields.filter fun f => test f.1

def dropNulls (fields : Fields) : Fields :=
  fields.filter fun f => match f.2 with
    | .null => false
    | _ => true

/-! ## What setting a field does -/

theorem get?_set_self (fields : Fields) (name : String) (value : Json) :
    (fields.set name value).get? name = some value := by
  induction fields with
  | nil => simp [set, get?]
  | cons field rest ih =>
    obtain ⟨key, old⟩ := field
    by_cases h : key = name
    · simp [set, get?, h]
    · have h' : (name == key) = false := by simp [Ne.symm h]
      simpa [set, get?, List.lookup_cons, h, h'] using ih

theorem get?_set_of_ne (fields : Fields) {name other : String} (value : Json)
    (h : other ≠ name) : (fields.set name value).get? other = fields.get? other := by
  induction fields with
  | nil =>
    have h' : (other == name) = false := by simp [h]
    simp [set, get?, List.lookup_cons, h']
  | cons field rest ih =>
    obtain ⟨key, old⟩ := field
    by_cases hk : key = name
    · subst hk
      have h' : (other == key) = false := by simp [h]
      simp [set, get?, List.lookup_cons, h']
    · simp only [set, beq_iff_eq, hk, if_false]
      by_cases ho : other = key
      · subst ho; simp [get?]
      · have h' : (other == key) = false := by simp [ho]
        simpa [get?, List.lookup_cons, h'] using ih

theorem set_of_absent {fields : Fields} {name : String} (value : Json)
    (h : fields.get? name = none) : fields.set name value = fields ++ [(name, value)] := by
  induction fields with
  | nil => rfl
  | cons field rest ih =>
    obtain ⟨key, old⟩ := field
    have hne : key ≠ name := by
      rintro rfl
      simp [get?] at h
    have hkey : (key == name) = false := by simp [hne]
    have hname : (name == key) = false := by simp [hne.symm]
    have hrest : get? rest name = none := by
      simpa [get?, List.lookup_cons, hname] using h
    rw [set, hkey, if_neg (by simp), ih hrest, List.cons_append]

theorem get?_append (these those : Fields) (name : String) :
    get? (these ++ those) name = (these.get? name).or (those.get? name) :=
  List.lookup_append

end Fields
end WorkflowCanvas
