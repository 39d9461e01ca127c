import WorkflowCanvas.Decode.Problem

/-! Decoding records. Every field is looked at, and the problems of all of them are
reported in the order of the fields. One fault does not wait for the others: a lookup
keyed by a list or an object. Main statements: a pair is accepted exactly when both its
parts are, and refused with the problems of both. -/
namespace WorkflowCanvas
set_option autoImplicit false

/-- The outcome of decoding: a value, all problems found, or a lookup by something that can be
no key, known by its kind. -/
inductive Checked (α : Type) where
  | accepted (value : α)
  | refused (problems : List Problem)
  | unkeyable (kind : String)

namespace Checked
variable {α β γ : Type}

/-- Decoding stopped by one cause at the value itself. -/
def stop (cause : Cause) : Checked α := refused [⟨[], cause⟩]

def map (f : α → β) : Checked α → Checked β
  | accepted a => accepted (f a)
  | refused ps => refused ps
  | unkeyable k => unkeyable k

/-- Looks at both parts; problems add up, and a bad lookup in either part outweighs them. -/
def both : Checked α → Checked β → Checked (α × β)
  | accepted a, accepted b => accepted (a, b)
  | unkeyable k, _ => unkeyable k
  | _, unkeyable k => unkeyable k
  | accepted _, refused qs => refused qs
  | refused ps, accepted _ => refused ps
  | refused ps, refused qs => refused (ps ++ qs)

/-- Applies a decoded function to a decoded argument, with the problems of both. -/
def ap (f : Checked (α → β)) (x : Checked α) : Checked β := (f.both x).map fun p => p.1 p.2

def andThen (x : Checked α) (f : α → Checked β) : Checked β :=
  match x with
  | accepted a => f a
  | refused ps => refused ps
  | unkeyable k => unkeyable k

/-- The same outcome, with its problems seen from one step further out. -/
def under (s : Segment) : Checked α → Checked α
  | refused ps => refused (ps.map (Problem.under s))
  | x => x

/-- The accepted value, if there is one. -/
def value? : Checked α → Option α
  | accepted a => some a
  | _ => none

def problems : Checked α → List Problem
  | refused ps => ps
  | _ => []

/-! ## Fields and lists -/

/-- The key under which a field is found, and its value; the first key is preferred. -/
def find? (fields : Fields) (key inner : String) : Option (String × Json) :=
  match fields.get? key with
  | some v => some (key, v)
  | none => (fields.get? inner).map (inner, ·)

/-- A field that must be there. -/
def required (fields : Fields) (key inner : String) (decode : Json → Checked α) : Checked α :=
  match find? fields key inner with
  | some (found, v) => (decode v).under (.field found)
  | none => refused [⟨[.field key], .missing⟩]

/-- A field with a value for its absence. -/
def optional (fields : Fields) (key inner : String) (absent : α)
    (decode : Json → Checked α) : Checked α :=
  match find? fields key inner with
  | some (found, v) => (decode v).under (.field found)
  | none => accepted absent

/-- Every item of a list, counted from an index. -/
def each (decode : Json → Checked α) : Nat → List Json → Checked (List α)
  | _, [] => accepted []
  | index, item :: rest =>
    (((decode item).under (.item index)).both (each decode (index + 1) rest)).map
      fun p => p.1 :: p.2

def list (decode : Json → Checked α) : Json → Checked (List α)
  | .arr items => each decode 0 items
  | _ => stop .notList

/-- Null, or a value. -/
def nullable (decode : Json → Checked α) : Json → Checked (Option α)
  | .null => accepted none
  | v => (decode v).map some

/-- A record of the named model. -/
def record (model : String) (decode : Fields → Checked α) : Json → Checked α
  | .obj fields => decode fields
  | _ => stop (.notRecord model)

/-! ## How the parts decide -/

/-- A field whose two names are the same is looked up once. -/
theorem find?_same (fields : Fields) (name : String) :
    find? fields name name = (fields.get? name).map (name, ·) := by
  rw [find?]
  cases fields.get? name <;> rfl

theorem both_eq_accepted_iff {x : Checked α} {y : Checked β} {p : α × β} :
    x.both y = accepted p ↔ x = accepted p.1 ∧ y = accepted p.2 := by
  obtain ⟨a, b⟩ := p
  cases x <;> cases y <;> simp [both]

theorem map_eq_accepted_iff {f : α → β} {x : Checked α} {b : β} :
    x.map f = accepted b ↔ ∃ a, x = accepted a ∧ f a = b := by
  cases x <;> simp [map]

theorem ap_eq_accepted_iff {f : Checked (α → β)} {x : Checked α} {b : β} :
    f.ap x = accepted b ↔ ∃ g a, f = accepted g ∧ x = accepted a ∧ g a = b := by
  simp only [ap, map_eq_accepted_iff, both_eq_accepted_iff, Prod.exists]
  constructor
  · rintro ⟨g, a, ⟨hf, hx⟩, h⟩
    exact ⟨g, a, hf, hx, h⟩
  · rintro ⟨g, a, hf, hx, h⟩
    exact ⟨g, a, ⟨hf, hx⟩, h⟩

theorem under_eq_accepted_iff {s : Segment} {x : Checked α} {a : α} :
    x.under s = accepted a ↔ x = accepted a := by
  cases x <;> simp [under]

end Checked
end WorkflowCanvas
