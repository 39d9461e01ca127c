import Mathlib.Data.List.TakeWhile
import WorkflowCanvas.Node.Edit
import WorkflowCanvas.Proofs.Decode.Written

/-! Payloads that suit the kinds of their nodes. Main statements: a node is read exactly when the
model of the kind that is named accepts the data, and it then carries what this model read, whatever
other models would make of the same data; edits keep the kind, and every payload is accepted again
by the model of its kind. -/
namespace WorkflowCanvas
set_option autoImplicit false

theorem Text.trim_eq_nil_iff {drop : Char → Bool} {cs : List Char} :
    trim drop cs = [] ↔ ∀ c ∈ cs, drop c = true := by
  simp only [trim, List.reverse_eq_nil_iff, List.dropWhile_eq_nil_iff, List.mem_reverse]
  constructor
  · intro h c hc
    by_cases hkept : c ∈ cs.dropWhile drop
    · exact h c hkept
    · rw [← List.takeWhile_append_dropWhile (p := drop) (l := cs), List.mem_append] at hc
      exact List.mem_takeWhile_imp (hc.resolve_right hkept)
  · exact fun h c hc => h c ((List.dropWhile_sublist drop).mem hc)

/-! ## Data apart from the kind -/

namespace Payload
open Node (Cargo)

/-- The data of a payload, which alone does not tell the start from the end. -/
def cargo : Payload → Cargo
  | start d | finish d => .terminal d
  | agent d => .agent d
  | stepGroup d => .stepGroup d

variable {p : Payload}

theorem payload?_eq_some_iff {kind : NodeKind} {found : Cargo} :
    found.payload? kind = some p ↔ p.kind = kind ∧ p.cargo = found := by
  cases kind <;> cases found <;> cases p <;>
    simp [Cargo.payload?, Payload.kind, Payload.cargo, eq_comm]

theorem eq_of_cargo {q : Payload} (hk : p.kind = q.kind) (hc : p.cargo = q.cargo) : p = q :=
  Option.some.inj ((payload?_eq_some_iff.2 ⟨rfl, rfl⟩).symm.trans
    (payload?_eq_some_iff.2 ⟨hk.symm, hc.symm⟩))

theorem model_cargo (p : Payload) : p.cargo.model = modelOf p.kind := by cases p <;> rfl

/-- The model that a kind names is the one that reads the data of its nodes. -/
theorem ofJson?_modelOf (kind : NodeKind) (data : Fields) :
    Cargo.ofJson? (modelOf kind) (.obj data) = some ((ofFields kind data).map cargo) := by
  have hmap : ∀ {α : Type} (x : Checked α) (f : α → Payload),
      (x.map f).map cargo = x.map fun a => (f a).cargo := by
    intro α x f
    cases x <;> rfl
  cases kind <;> rw [ofFields, hmap] <;> rfl

theorem ofJson?_eq_accepted_iff {data : Fields} :
    Cargo.ofJson? (modelOf p.kind) (.obj data) = some (.accepted p.cargo) ↔
      ofFields p.kind data = .accepted p := by
  rw [ofJson?_modelOf, Option.some_inj, Checked.map_eq_accepted_iff]
  constructor
  · rintro ⟨q, hq, hc⟩
    rw [hq, eq_of_cargo (kind_of_ofFields hq) hc]
  · exact fun h => ⟨p, h, rfl⟩

end Payload

/-! ## Nodes that are read -/

namespace Node
variable {fields data : Fields} {kind : NodeKind} {n m : Node} {p : Payload}

theorem map_frameOf_eq_accepted_iff : ((frameOf fields).map (· p)) = .accepted n ↔
    idOf fields = .accepted ⟨n.id, n.named⟩ ∧ positionOf fields = .accepted n.position ∧
      n.payload = p := by
  simp only [frameOf, Checked.map_eq_accepted_iff, Checked.ap_eq_accepted_iff]
  constructor
  · rintro ⟨_, ⟨_, _, ⟨⟨id, named⟩, hid, rfl⟩, hposition, rfl⟩, rfl⟩
    exact ⟨hid, hposition, rfl⟩
  · rintro ⟨hid, hposition, rfl⟩
    exact ⟨_, ⟨_, _, ⟨_, hid, rfl⟩, hposition, rfl⟩, rfl⟩

/-- What a node is by the fields that it is read from. -/
structure ReadFrom (fields : Fields) (n : Node) : Prop where
  kind : NodeKind.ofJson (kindValue fields) = .accepted (some n.kind)
  data : ∃ data, fields.get? "data" = some (.obj data) ∧
    Cargo.ofJson? (Payload.modelOf n.kind) (.obj data) = some (.accepted n.payload.cargo)
  id : idOf fields = .accepted ⟨n.id, n.named⟩
  position : positionOf fields = .accepted n.position

theorem ofFields_of_kind (hk : NodeKind.ofJson (kindValue fields) = .accepted (some kind)) :
    ofFields fields = ofKind kind fields := by
  rw [ofFields, hk]
  rfl

theorem ofKind_of_data (hdata : fields.get? "data" = some (.obj data)) : ofKind kind fields =
    (Payload.ofFields kind data).andThen fun p => (frameOf fields).map (· p) := by
  rw [ofKind, hdata]
  rfl

theorem exists_data (h : ofFields fields = .accepted n) :
    ∃ data, fields.get? "data" = some (.obj data) := by
  rw [ofFields_of_kind (kind_of_ofFields h), ofKind] at h
  cases hdata : fields.get? "data" with
  | none =>
    rw [hdata] at h
    obtain ⟨_, _, _, hrefused, -⟩ := Checked.ap_eq_accepted_iff.1 h
    cases hrefused
  | some v =>
    rw [hdata] at h
    cases v with
    | obj data => exact ⟨data, rfl⟩
    | _ =>
      obtain ⟨_, _, _, hrefused, -⟩ := Checked.ap_eq_accepted_iff.1 h
      cases hrefused

theorem ofFields_eq_accepted_iff : ofFields fields = .accepted n ↔ ReadFrom fields n := by
  constructor
  · intro h
    have hk := kind_of_ofFields h
    obtain ⟨data, hdata⟩ := exists_data h
    rw [ofFields_of_kind hk, ofKind_of_data hdata] at h
    cases hp : Payload.ofFields n.kind data with
    | refused problems => rw [hp] at h; cases h
    | unkeyable word => rw [hp] at h; cases h
    | accepted p =>
      rw [hp, Checked.andThen_accepted, map_frameOf_eq_accepted_iff] at h
      obtain ⟨hid, hposition, rfl⟩ := h
      exact ⟨hk, ⟨data, hdata, Payload.ofJson?_eq_accepted_iff.2 hp⟩, hid, hposition⟩
  · intro h
    obtain ⟨data, hdata, haccepted⟩ := h.data
    rw [ofFields_of_kind h.kind, ofKind_of_data hdata]
    have hp : Payload.ofFields n.kind data = .accepted n.payload :=
      Payload.ofJson?_eq_accepted_iff.1 haccepted
    rw [hp, Checked.andThen_accepted, map_frameOf_eq_accepted_iff]
    exact ⟨h.id, h.position, rfl⟩

/-- Data that the model of the kind refuses is reported alone; no other model is asked. -/
theorem ofFields_of_refused {problems : List Problem}
    (hk : NodeKind.ofJson (kindValue fields) = .accepted (some kind))
    (hdata : fields.get? "data" = some (.obj data))
    (h : Cargo.ofJson? (Payload.modelOf kind) (.obj data) = some (.refused problems)) :
    ofFields fields = .refused problems := by
  rw [ofFields_of_kind hk, ofKind_of_data hdata]
  rw [Payload.ofJson?_modelOf, Option.some_inj] at h
  cases hp : Payload.ofFields kind data with
  | accepted p => rw [hp] at h; cases h
  | unkeyable word => rw [hp] at h; cases h
  | refused others =>
    rw [hp] at h
    cases h
    rfl

theorem around_eq_accepted_iff {cargo : Cargo} : around fields cargo = .accepted n ↔
    NodeKind.ofJson (kindValue fields) = .accepted (some n.kind) ∧ n.payload.cargo = cargo ∧
      idOf fields = .accepted ⟨n.id, n.named⟩ ∧ positionOf fields = .accepted n.position := by
  unfold around
  cases hk : NodeKind.ofJson (kindValue fields) with
  | refused problems => simp [Checked.andThen]
  | unkeyable word => simp [Checked.andThen]
  | accepted found =>
    cases found with
    | none => simp
    | some kind =>
      simp only [Checked.andThen_accepted, Checked.accepted.injEq, Option.some.injEq]
      cases hp : cargo.payload? kind with
      | none =>
        constructor
        · intro h
          cases h
        · rintro ⟨hkind, hcargo, -⟩
          cases hp.symm.trans (Payload.payload?_eq_some_iff.2 ⟨hkind.symm, hcargo⟩)
      | some p =>
        obtain ⟨hkind, hcargo⟩ := Payload.payload?_eq_some_iff.1 hp
        rw [map_frameOf_eq_accepted_iff]
        constructor
        · rintro ⟨hid, hposition, rfl⟩
          exact ⟨hkind.symm, hcargo, hid, hposition⟩
        · rintro ⟨hsame, hheld, hid, hposition⟩
          exact ⟨hid, hposition, Payload.eq_of_cargo (hsame.symm.trans hkind.symm)
            (hheld.trans hcargo.symm)⟩

/-! ## Nodes that are edited -/

/-- Another node of the same identifier and kind. -/
def Like (m n : Node) : Prop := m.id = n.id ∧ m.kind = n.kind

theorem Like.refl (n : Node) : n.Like n := ⟨rfl, rfl⟩

theorem Like.trans {l : Node} (h : l.Like m) (h' : m.Like n) : l.Like n :=
  ⟨h.1.trans h'.1, h.2.trans h'.2⟩

theorem like_of_withData {changes : Fields} (h : n.withData changes = .ok m) : n.Like m := by
  obtain ⟨hid, hkind⟩ := id_of_withData h
  exact ⟨hid.symm, hkind.symm⟩

theorem like_of_movedTo {x y : Json} (h : n.movedTo x y = .accepted m) : n.Like m := by
  rw [movedTo, Checked.map_eq_accepted_iff] at h
  obtain ⟨_, -, rfl⟩ := h
  exact .refl _

end Node

/-! ## Payloads that suit -/

/-- The bounds of a step group. -/
structure StepGroup.Proper (d : StepGroup) : Prop where
  titled : Text.trim Text.isBlankChar d.title.text.toList ≠ []
  short : d.title.text.length ≤ 100
  purposed : ∀ purpose, d.purpose = some purpose → purpose.text.length ≤ 500
  labelled : d.label.1 ≠ ""

theorem StepGroup.proper (d : StepGroup) : d.Proper where
  titled := by
    intro h
    have hblank := Text.isBlank_iff.2 (Text.trim_eq_nil_iff.1 h)
    exact absurd hblank (by simp [d.title.notBlank])
  short := d.title.fits
  purposed purpose _ := purpose.fits
  labelled := d.label.2

namespace Node

/-- A node whose data is of the model of its kind, as it is held and as it is written, within the
bounds of step groups. -/
structure Suited (n : Node) : Prop where
  model : n.payload.cargo.model = Payload.modelOf n.kind
  written : ∀ form : Form, Cargo.ofJson? (Payload.modelOf n.kind) (form.object n.payload.entries) =
    some (.accepted n.payload.cargo)
  group : ∀ d, n.payload = .stepGroup d → d.Proper

theorem suited (n : Node) : n.Suited where
  model := n.payload.model_cargo
  written form := Payload.ofJson?_eq_accepted_iff.2 (Payload.ofFields_fields form n.payload)
  group d _ := d.proper

end Node
end WorkflowCanvas
