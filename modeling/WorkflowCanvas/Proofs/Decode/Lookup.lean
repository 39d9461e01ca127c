import WorkflowCanvas.Node.Reading
import WorkflowCanvas.Workflow.Definition

/-! Lookups in the course of decoding. A record looks its fields up by their names, which always
works; only the kind of a node is looked up by a value of the document. Main statements: a
definition, a payload, a position and an edge are accepted or refused for problems of their own,
whatever the value; and a node is neither in one case, where its kind is told by a list or an
object. -/
namespace WorkflowCanvas
set_option autoImplicit false

/-- A list or an object: what holds other values, and can be no key itself. -/
def Json.isComposite : Json → Bool
  | .arr _ | .obj _ => true
  | _ => false

/-! ## Decoding without a bad lookup -/

namespace Checked
variable {α β : Type} {x : Checked α} {decode : Json → Checked α} {fields : Fields}
  {key inner : String}

/-- Decoding that came to a value or to problems. -/
def Keyed (x : Checked α) : Prop := ∀ kind, x ≠ unkeyable kind

@[simp] theorem keyed_accepted (a : α) : (accepted a).Keyed := fun _ h => nomatch h

@[simp] theorem keyed_refused (problems : List Problem) :
    (refused problems : Checked α).Keyed := fun _ h => nomatch h

@[simp] theorem keyed_stop (cause : Cause) : (stop cause : Checked α).Keyed := keyed_refused _

theorem Keyed.cases (h : x.Keyed) : (∃ a, x = accepted a) ∨ ∃ problems, x = refused problems := by
  cases x with
  | accepted a => exact .inl ⟨a, rfl⟩
  | refused problems => exact .inr ⟨problems, rfl⟩
  | unkeyable kind => exact absurd rfl (h kind)

theorem Keyed.map (f : α → β) (h : x.Keyed) : (x.map f).Keyed := by
  rcases h.cases with ⟨a, rfl⟩ | ⟨problems, rfl⟩
  · exact keyed_accepted _
  · exact keyed_refused _

theorem Keyed.both {y : Checked β} (hx : x.Keyed) (hy : y.Keyed) : (x.both y).Keyed := by
  rcases hx.cases with ⟨a, rfl⟩ | ⟨these, rfl⟩ <;> rcases hy.cases with ⟨b, rfl⟩ | ⟨those, rfl⟩
  · exact keyed_accepted _
  all_goals exact keyed_refused _

theorem Keyed.ap {f : Checked (α → β)} (hf : f.Keyed) (hx : x.Keyed) : (f.ap x).Keyed :=
  (hf.both hx).map _

theorem Keyed.under (s : Segment) (h : x.Keyed) : (x.under s).Keyed := by
  rcases h.cases with ⟨a, rfl⟩ | ⟨problems, rfl⟩
  · exact keyed_accepted _
  · exact keyed_refused _

theorem Keyed.andThen {f : α → Checked β} (hx : x.Keyed) (hf : ∀ a, (f a).Keyed) :
    (x.andThen f).Keyed := by
  rcases hx.cases with ⟨a, rfl⟩ | ⟨problems, rfl⟩
  · exact hf a
  · exact keyed_refused _

/-! ## Fields and lists -/

theorem keyed_required (h : ∀ v, (decode v).Keyed) :
    (required fields key inner decode).Keyed := by
  rw [required]
  split
  · exact (h _).under _
  · exact keyed_refused _

theorem keyed_optional {absent : α} (h : ∀ v, (decode v).Keyed) :
    (optional fields key inner absent decode).Keyed := by
  rw [optional]
  split
  · exact (h _).under _
  · exact keyed_accepted _

theorem keyed_nullable (h : ∀ v, (decode v).Keyed) (v : Json) : (nullable decode v).Keyed := by
  unfold nullable
  split
  · exact keyed_accepted _
  · exact (h _).map _

theorem keyed_each (h : ∀ v, (decode v).Keyed) (index : Nat) (items : List Json) :
    (each decode index items).Keyed := by
  induction items generalizing index with
  | nil => exact keyed_accepted _
  | cons item rest ih => exact (((h item).under _).both (ih (index + 1))).map _

theorem keyed_list (h : ∀ v, (decode v).Keyed) (v : Json) : (list decode v).Keyed := by
  unfold list
  split
  · exact keyed_each h 0 _
  · exact keyed_stop _

theorem keyed_record {model : String} {decode : Fields → Checked α}
    (h : ∀ fields, (decode fields).Keyed) (v : Json) : (record model decode v).Keyed := by
  unfold record
  split
  · exact h _
  · exact keyed_stop _

/-! ## Scalars -/

theorem keyed_text (v : Json) : (text v).Keyed := by
  unfold text
  split <;> simp

theorem keyed_nonempty (v : Json) : (nonempty v).Keyed := by
  unfold nonempty
  split
  · split <;> simp
  · simp

theorem keyed_bounded (limit : Nat) (v : Json) : (bounded limit v).Keyed := by
  unfold bounded
  split
  · split <;> simp
  · simp

theorem keyed_number (v : Json) : (number v).Keyed := by
  unfold number
  split
  · simp
  · dsimp only
    split <;> simp
  · simp
  · split <;> simp
  · simp

theorem keyed_choice (ofWord? : String → Option α) (otherwise : Cause) (v : Json) :
    (choice ofWord? otherwise v).Keyed := by
  unfold choice
  split
  · split <;> simp
  · simp

/-- A text or null, as many fields hold it. -/
theorem keyed_optionalText :
    (optional fields key inner none (nullable text)).Keyed :=
  keyed_optional (keyed_nullable keyed_text)

theorem keyed_texts : (optional fields key inner [] (list text)).Keyed :=
  keyed_optional (keyed_list keyed_text)

end Checked

open Checked

theorem Title.keyed_ofJson (blank : Cause) (v : Json) : (Title.ofJson blank v).Keyed := by
  unfold Title.ofJson
  split
  · split
    · split <;> simp
    · simp
  · simp

theorem WorkflowName.keyed_ofJson (v : Json) : (WorkflowName.ofJson v).Keyed := by
  unfold WorkflowName.ofJson
  split
  · split
    · split
      · split <;> simp
      · simp
    · simp
  · simp

theorem StepMode.keyed_ofJson (v : Json) : (StepMode.ofJson v).Keyed := keyed_choice _ _ v

/-! ## Records -/

section Records
variable (fields : Fields)

theorem Metadata.keyed_ofFields : (Metadata.ofFields fields).Keyed :=
  ((((keyed_required WorkflowName.keyed_ofJson).map _).ap
    (keyed_optional (keyed_bounded 5000))).ap keyed_optionalText).ap
    (keyed_optional (keyed_nullable (keyed_bounded 500)))

theorem Step.keyed_ofFields : (Step.ofFields fields).Keyed :=
  ((((keyed_required (Title.keyed_ofJson _)).map _).ap
    (keyed_optional StepMode.keyed_ofJson)).ap
    (keyed_optional (keyed_nullable (keyed_bounded 500)))).ap keyed_texts

theorem Definition.keyed_ofFields : (Definition.ofFields fields).Keyed :=
  ((Metadata.keyed_ofFields fields).map _).ap
    (keyed_required (keyed_list (keyed_record Step.keyed_ofFields)))

theorem TerminalData.keyed_ofFields : (TerminalData.ofFields fields).Keyed :=
  ((keyed_required keyed_text).map _).ap keyed_optionalText

theorem AgentData.keyed_ofFields : (AgentData.ofFields fields).Keyed :=
  (((((keyed_required keyed_text).map _).ap keyed_optionalText).ap (keyed_required keyed_text)).ap
    keyed_optionalText).ap keyed_optionalText

theorem StepGroup.keyed_ofFields : (StepGroup.ofFields fields).Keyed :=
  ((((((keyed_required (Title.keyed_ofJson _)).map _).ap
    (keyed_optional StepMode.keyed_ofJson)).ap
    (keyed_optional (keyed_nullable (keyed_bounded 500)))).ap keyed_texts).ap
    (keyed_optional keyed_text)).ap keyed_optionalText

theorem Payload.keyed_ofFields (kind : NodeKind) : (Payload.ofFields kind fields).Keyed := by
  cases kind with
  | start => exact (TerminalData.keyed_ofFields fields).map _
  | finish => exact (TerminalData.keyed_ofFields fields).map _
  | agent => exact (AgentData.keyed_ofFields fields).map _
  | stepGroup => exact (StepGroup.keyed_ofFields fields).map _

theorem Position.keyed_ofFields : (Position.ofFields fields).Keyed :=
  ((keyed_optional keyed_number).map _).ap (keyed_optional keyed_number)

theorem Edge.keyed_ofFields : (Edge.ofFields fields).Keyed :=
  ((((((keyed_required keyed_nonempty).map _).ap (keyed_required keyed_text)).ap
    (keyed_required keyed_text)).ap keyed_optionalText).ap keyed_optionalText).ap
    keyed_optionalText

theorem Edge.keyed_ofJson (v : Json) : (Edge.ofJson v).Keyed := keyed_record Edge.keyed_ofFields v

end Records

/-! ## Nodes -/

theorem NodeKind.ofJson_eq_unkeyable_iff {v : Json} {kind : String} :
    NodeKind.ofJson v = .unkeyable kind ↔ v.isComposite = true ∧ kind = v.kindName := by
  cases v <;> simp [NodeKind.ofJson, Json.isComposite, eq_comm]

namespace Node
variable {fields : Fields} {kind : String}

theorem keyed_frameOf (fields : Fields) : (frameOf fields).Keyed :=
  ((keyed_required keyed_nonempty).map _).ap
    (keyed_optional (keyed_record Position.keyed_ofFields))

theorem keyed_ofKind (kind : NodeKind) (fields : Fields) : (ofKind kind fields).Keyed := by
  unfold ofKind
  split
  · exact (Payload.keyed_ofFields _ kind).andThen fun _ => (keyed_frameOf fields).map _
  · exact (keyed_frameOf fields).ap (keyed_refused _)

/-- With a kind that can be looked up, a node is accepted or refused, whatever else it holds. -/
theorem ofFields_eq_unkeyable_iff : ofFields fields = .unkeyable kind ↔
    (kindValue fields).isComposite = true ∧ kind = (kindValue fields).kindName := by
  rw [← NodeKind.ofJson_eq_unkeyable_iff, ofFields]
  cases NodeKind.ofJson (kindValue fields) with
  | accepted found =>
    cases found with
    | none => simp [andThen]
    | some known => simpa [andThen] using keyed_ofKind known fields kind
  | refused problems => simp [andThen]
  | unkeyable other => simp [andThen]

/-- An object whose kind is told by a list or an object, with the word for which of the two. -/
def OddKind (v : Json) (kind : String) : Prop :=
  ∃ fields, v = .obj fields ∧ (kindValue fields).isComposite = true ∧
    kind = (kindValue fields).kindName

theorem ofJson_eq_unkeyable_iff {v : Json} : ofJson v = .unkeyable kind ↔ OddKind v kind := by
  cases v with
  | obj fields =>
    have hread : ofJson (.obj fields) = ofFields fields := rfl
    rw [hread, ofFields_eq_unkeyable_iff]
    constructor
    · exact fun h => ⟨fields, rfl, h⟩
    · rintro ⟨_, heq, h⟩
      cases heq
      exact h
  | _ =>
    constructor
    · intro h
      cases h
    · rintro ⟨_, heq, -⟩
      cases heq

end Node
end WorkflowCanvas
