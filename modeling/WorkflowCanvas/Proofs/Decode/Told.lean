import WorkflowCanvas.Node.Kind
import WorkflowCanvas.Node.Title
import WorkflowCanvas.Proofs.Decode.Rules

/-! What is told of a value that is decoded. Main statements: decoding that follows rules accepts a
value with no fault, and refuses any other for problems at just the places of its faults, in their
order; and titles and modes are at fault as a whole, unless they are texts of the right kind. -/
namespace WorkflowCanvas
set_option autoImplicit false

namespace Checked
variable {α β : Type}

/-- Decoding that accepts a value with nothing to tell, or refuses it for problems at these
places. -/
inductive Told : Checked α → List Place → Prop where
  | accepted (a : α) : Told (accepted a) []
  | refused {problems : List Problem} (h : problems ≠ []) :
      Told (refused problems) (problems.map Problem.place)

/-! ## How the parts tell -/

section Parts
variable {x : Checked α} {places others : List Place}

theorem told_stop (cause : Cause) : Told (stop cause : Checked α) [[]] :=
  .refused (List.cons_ne_nil _ _)

theorem Told.map (f : α → β) (h : Told x places) : Told (x.map f) places := by
  cases h with
  | accepted a => exact .accepted (f a)
  | refused hne => exact .refused hne

theorem Told.both {y : Checked β} (hx : Told x places) (hy : Told y others) :
    Told (x.both y) (places ++ others) := by
  cases hx with
  | accepted a =>
    cases hy with
    | accepted b => exact .accepted (a, b)
    | refused hne => exact .refused hne
  | refused hne =>
    cases hy with
    | accepted b =>
      rw [List.append_nil]
      exact .refused hne
    | refused hne' =>
      rw [← List.map_append]
      exact .refused (List.append_ne_nil_of_left_ne_nil hne _)

theorem Told.ap {f : Checked (α → β)} (hf : Told f places) (hx : Told x others) :
    Told (f.ap x) (places ++ others) := (hf.both hx).map _

theorem Told.under (s : Segment) (h : Told x places) : Told (x.under s) (places.map (s :: ·)) := by
  cases h with
  | accepted a => exact .accepted a
  | @refused problems hne =>
    have hplaces : (problems.map Problem.place).map (s :: ·) =
        (problems.map (Problem.under s)).map Problem.place := by
      rw [List.map_map, List.map_map]
      rfl
    rw [hplaces]
    exact .refused (by simpa using hne)

end Parts

/-! ## Scalars and lists -/

variable {decode : Json → Checked α} {faults : Json → List Place}

/-- A scalar is looked at until the first thing that is wrong with it. -/
theorem told_scalar {x : Checked α} {valid : Json → Bool} {v : Json}
    (haccepted : valid v = true → ∃ a, x = accepted a)
    (hstop : valid v = false → ∃ cause, x = stop cause) : Told x (scalarFaults valid v) := by
  rw [scalarFaults]
  split
  · rename_i hvalid
    obtain ⟨a, rfl⟩ := haccepted hvalid
    exact .accepted a
  · rename_i hvalid
    obtain ⟨cause, rfl⟩ := hstop (by simpa using hvalid)
    exact told_stop cause

theorem told_nullable {valid : Json → Bool} (h : ∀ v, Told (decode v) (scalarFaults valid v))
    (v : Json) : Told (nullable decode v) (scalarFaults (Json.isNullOr valid) v) := by
  cases v with
  | null => exact .accepted none
  | _ => exact (h _).map some

theorem told_each (h : ∀ v, Told (decode v) (faults v)) (index : Nat) (items : List Json) :
    Told (each decode index items)
      ((items.zipIdx index).flatMap fun p => (faults p.1).map (.item p.2 :: ·)) := by
  induction items generalizing index with
  | nil => exact .accepted []
  | cons item rest ih => exact (((h item).under (.item index)).both (ih (index + 1))).map _

theorem told_list (h : ∀ v, Told (decode v) (faults v)) (v : Json) :
    Told (list decode v) (listFaults faults v) := by
  cases v with
  | arr items => exact told_each h 0 items
  | _ => exact told_stop .notList

theorem told_text (v : Json) : Told (text v) (scalarFaults Json.isText v) := by
  cases v with
  | str s => exact .accepted s
  | _ => exact told_stop .notText

theorem told_bounded (limit : Nat) (v : Json) :
    Told (bounded limit v) (scalarFaults (Json.isTextWhere fun s => s.length ≤ limit) v) := by
  cases v with
  | str s =>
    refine told_scalar (fun h => ?_) fun h => ?_
    · have hfits : s.length ≤ limit := by simpa [Json.isTextWhere] using h
      exact ⟨⟨s, hfits⟩, by rw [bounded, dif_pos hfits]⟩
    · have hlong : ¬ s.length ≤ limit := by simpa [Json.isTextWhere] using h
      exact ⟨_, by rw [bounded, dif_neg hlong]⟩
  | _ => exact told_stop .notText

/-! ## Fields and records -/

section Records
variable (key inner : String) (fields : Fields)

theorem told_required (h : ∀ v, Told (decode v) (faults v)) :
    Told (required fields key inner decode) (Rule.places ⟨key, inner, true, faults⟩ fields) := by
  cases hfound : find? fields key inner with
  | none =>
    simp only [required, Rule.places, Rule.faultsIn, Rule.nameIn, hfound]
    exact .refused (List.cons_ne_nil _ _)
  | some found =>
    simp only [required, Rule.places, Rule.faultsIn, Rule.nameIn, hfound]
    exact (h _).under _

theorem told_optional (absent : α) (h : ∀ v, Told (decode v) (faults v)) :
    Told (Checked.optional fields key inner absent decode)
      (Rule.places ⟨key, inner, false, faults⟩ fields) := by
  cases hfound : find? fields key inner with
  | none =>
    simp only [Checked.optional, Rule.places, Rule.faultsIn, Rule.nameIn, hfound]
    exact .accepted absent
  | some found =>
    simp only [Checked.optional, Rule.places, Rule.faultsIn, Rule.nameIn, hfound]
    exact (h _).under _

end Records

theorem told_record {rules : List Rule} {decode : Fields → Checked α}
    (h : ∀ fields, Told (decode fields) (recordFaults rules (.obj fields))) (model : String)
    (v : Json) : Told (record model decode v) (recordFaults rules v) := by
  cases v with
  | obj fields => exact h fields
  | _ => exact told_stop (.notRecord model)

end Checked

/-! ## Titles and modes -/

/-- Whether a text can be a title. -/
def isTitle (s : String) : Bool := decide (s.length ≤ 100) && !Text.isBlank s

/-- Whether a text is a mode of steps. -/
def isMode (s : String) : Bool := s == "sequential" || s == "parallel"

open Checked

theorem Title.told_ofJson (blank : Cause) (v : Json) :
    Told (ofJson blank v) (scalarFaults (Json.isTextWhere isTitle) v) := by
  cases v with
  | str s =>
    refine told_scalar (fun h => ?_) fun h => ?_
    · obtain ⟨hfits, hblank⟩ : s.length ≤ 100 ∧ Text.isBlank s = false := by
        simpa only [Json.isTextWhere, isTitle, Bool.and_eq_true, decide_eq_true_eq,
          Bool.not_eq_true'] using h
      exact ⟨_, ofJson_text blank ⟨s, hfits, hblank⟩⟩
    · have hbad : s.length ≤ 100 → Text.isBlank s = true := by
        intro hfits
        simpa [Json.isTextWhere, isTitle, hfits] using h
      rw [ofJson]
      split
      · rename_i hfits
        rw [dif_neg (by simp [hbad hfits])]
        exact ⟨_, rfl⟩
      · exact ⟨_, rfl⟩
  | _ => exact told_stop .notText

theorem StepMode.told_ofJson (v : Json) :
    Told (ofJson v) (scalarFaults (Json.isTextWhere isMode) v) := by
  cases v with
  | str s =>
    rw [StepMode.ofJson, Checked.choice]
    refine told_scalar (fun h => ?_) fun h => ?_
    · have hword : s = "sequential" ∨ s = "parallel" := by
        simpa [Json.isTextWhere, isMode] using h
      rcases hword with rfl | rfl
      · exact ⟨.sequential, rfl⟩
      · exact ⟨.parallel, rfl⟩
    · have hword : s ≠ "sequential" ∧ s ≠ "parallel" := by
        simpa [Json.isTextWhere, isMode] using h
      have hnone : ofWord? s = none := by
        unfold ofWord?
        split <;> simp_all
      exact ⟨_, by rw [hnone]⟩
  | _ => exact told_stop _

end WorkflowCanvas
