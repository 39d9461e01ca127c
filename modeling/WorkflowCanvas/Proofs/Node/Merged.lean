import WorkflowCanvas.Node.Edit
import WorkflowCanvas.Proofs.Decode.Written

/-! Payloads with changes merged in. Main statement: what the merged data are read as is told field
by field, each field being what the changes give under either of its names, or what it was; but the
label of a step group is the new title when it is emptied, or when it was the title and is not
named. -/
namespace WorkflowCanvas
set_option autoImplicit false

/-! ## Changes that are set -/

namespace Fields
variable {fields changes : Fields} {name : String}

theorem get?_eq_none_iff : fields.get? name = none ↔ name ∉ fields.map Prod.fst := by
  rw [get?, List.lookup_eq_none_iff, List.mem_map]
  constructor
  · rintro h ⟨field, hfield, rfl⟩
    simpa using h field hfield
  · intro h field hfield
    exact bne_iff_ne.2 fun heq => h ⟨field, hfield, heq.symm⟩

/-- What changes give is what counts; they name no field twice. -/
theorem get?_setAll (h : (changes.map Prod.fst).Nodup) (fields : Fields) (name : String) :
    (fields.setAll changes).get? name = (changes.get? name).or (fields.get? name) := by
  induction changes generalizing fields with
  | nil => rfl
  | cons change rest ih =>
    obtain ⟨key, v⟩ := change
    obtain ⟨hkey, hrest⟩ := List.nodup_cons.1 h
    have hset : fields.setAll ((key, v) :: rest) = (fields.set key v).setAll rest := rfl
    rw [hset, ih hrest]
    by_cases hname : name = key
    · subst hname
      rw [get?_eq_none_iff.2 hkey, get?_set_self]
      simp [get?]
    · have hcons : get? ((key, v) :: rest) name = get? rest name := by
        have hne : (name == key) = false := by simpa using hname
        rw [get?, List.lookup_cons, hne]
        rfl
      rw [get?_set_of_ne _ _ hname, hcons]

theorem nodup_keys_set (h : (fields.map Prod.fst).Nodup) (hname : fields.get? name = none)
    (v : Json) : ((fields.set name v).map Prod.fst).Nodup := by
  rw [set_of_absent v hname, List.map_append, List.nodup_append]
  refine ⟨h, by simp, fun key hkey other hother => ?_⟩
  rintro rfl
  obtain rfl : key = name := by simpa using hother
  exact get?_eq_none_iff.1 hname hkey

/-- A field is what changes give it under either name, or what it was under the name it had. -/
theorem find?_setAll (h : (changes.map Prod.fst).Nodup) {key inner : String} {v : Json}
    (hinner : fields.get? inner = some v) (hkey : key = inner ∨ fields.get? key = none) :
    Checked.find? (fields.setAll changes) key inner =
      (Checked.find? changes key inner).or (some (inner, v)) := by
  rw [Checked.find?, Checked.find?, get?_setAll h, get?_setAll h, hinner]
  cases hchange : changes.get? key with
  | some w => rfl
  | none =>
    rcases hkey with rfl | hkey
    · rw [hinner, hchange]
      rfl
    · rw [hkey]
      cases changes.get? inner <;> rfl

end Fields

/-! ## Fields one by one -/

section Taken
variable {α : Type} {decode : Json → Checked α} {changes fields : Fields} {key inner : String}
  {v : Json} {old new : α}

/-- What becomes of a field: what changes give for it under either name, or what it was. -/
def Taken (decode : Json → Checked α) (changes : Fields) (key inner : String) (old new : α) :
    Prop :=
  match Checked.find? changes key inner with
  | some (_, v) => decode v = .accepted new
  | none => new = old

theorem Checked.required_eq_accepted_iff
    (hfound : Checked.find? fields key inner =
      (Checked.find? changes key inner).or (some (inner, v)))
    (hold : decode v = .accepted old) :
    Checked.required fields key inner decode = .accepted new ↔
      Taken decode changes key inner old new := by
  rw [Checked.required, Taken, hfound]
  cases Checked.find? changes key inner with
  | some found => exact Checked.under_eq_accepted_iff
  | none => simp [hold, eq_comm]

theorem Checked.optional_eq_accepted_iff {absent : α}
    (hfound : Checked.find? fields key inner =
      (Checked.find? changes key inner).or (some (inner, v)))
    (hold : decode v = .accepted old) :
    Checked.optional fields key inner absent decode = .accepted new ↔
      Taken decode changes key inner old new := by
  rw [Checked.optional, Taken, hfound]
  cases Checked.find? changes key inner with
  | some found => exact Checked.under_eq_accepted_iff
  | none => simp [hold, eq_comm]

theorem Checked.nullable_ofText? (text? : Option String) :
    Checked.nullable Checked.text (.ofText? text?) = .accepted text? := by
  cases text? <;> rfl

end Taken

open Checked (required_eq_accepted_iff optional_eq_accepted_iff nullable_ofText?)

/-! ## Ends and agents -/

/-- The end of a workflow after changes. -/
structure TerminalData.Updated (changes : Fields) (d e : TerminalData) : Prop where
  label : Taken Checked.text changes "label" "label" d.label e.label
  description : Taken (Checked.nullable Checked.text) changes "description" "description"
    d.description e.description

/-- An agent after changes. -/
structure AgentData.Updated (changes : Fields) (d e : AgentData) : Prop where
  name : Taken Checked.text changes "agentName" "agent_name" d.name e.name
  path : Taken (Checked.nullable Checked.text) changes "agentPath" "agent_path" d.path e.path
  label : Taken Checked.text changes "label" "label" d.label e.label
  description : Taken (Checked.nullable Checked.text) changes "description" "description"
    d.description e.description
  category : Taken (Checked.nullable Checked.text) changes "category" "category"
    d.category e.category

section Plain
variable {changes fields : Fields} (h : (changes.map Prod.fst).Nodup)

open Checked in
theorem TerminalData.ofFields_eq_accepted_iff {e : TerminalData} :
    ofFields fields = .accepted e ↔
      required fields "label" "label" text = .accepted e.label ∧
        Checked.optional fields "description" "description" none (nullable text) =
          .accepted e.description := by
  simp only [ofFields, ap_eq_accepted_iff, map_eq_accepted_iff]
  constructor
  · rintro ⟨_, _, ⟨_, hlabel, rfl⟩, hdescription, rfl⟩
    exact ⟨hlabel, hdescription⟩
  · rintro ⟨hlabel, hdescription⟩
    exact ⟨_, _, ⟨_, hlabel, rfl⟩, hdescription, rfl⟩

open Checked in
theorem AgentData.ofFields_eq_accepted_iff {e : AgentData} :
    ofFields fields = .accepted e ↔
      required fields "agentName" "agent_name" text = .accepted e.name ∧
        Checked.optional fields "agentPath" "agent_path" none (nullable text) =
          .accepted e.path ∧
        required fields "label" "label" text = .accepted e.label ∧
        Checked.optional fields "description" "description" none (nullable text) =
          .accepted e.description ∧
        Checked.optional fields "category" "category" none (nullable text) =
          .accepted e.category := by
  simp only [ofFields, ap_eq_accepted_iff, map_eq_accepted_iff]
  constructor
  · rintro ⟨_, _, ⟨_, _, ⟨_, _, ⟨_, _, ⟨_, hname, rfl⟩, hpath, rfl⟩, hlabel, rfl⟩, hdescription,
      rfl⟩, hcategory, rfl⟩
    exact ⟨hname, hpath, hlabel, hdescription, hcategory⟩
  · rintro ⟨hname, hpath, hlabel, hdescription, hcategory⟩
    exact ⟨_, _, ⟨_, _, ⟨_, _, ⟨_, _, ⟨_, hname, rfl⟩, hpath, rfl⟩, hlabel, rfl⟩, hdescription,
      rfl⟩, hcategory, rfl⟩

include h

theorem TerminalData.ofFields_merged_iff {d e : TerminalData} :
    ofFields ((Form.inner.fields d.entries).setAll changes) = .accepted e ↔
      Updated changes d e := by
  rw [ofFields_eq_accepted_iff,
    required_eq_accepted_iff (Fields.find?_setAll h rfl (.inl rfl)) (Checked.text_str d.label),
    optional_eq_accepted_iff (Fields.find?_setAll h rfl (.inl rfl))
      (nullable_ofText? d.description)]
  constructor
  · rintro ⟨hlabel, hdescription⟩
    exact ⟨hlabel, hdescription⟩
  · rintro ⟨hlabel, hdescription⟩
    exact ⟨hlabel, hdescription⟩

theorem AgentData.ofFields_merged_iff {d e : AgentData} :
    ofFields ((Form.inner.fields d.entries).setAll changes) = .accepted e ↔
      Updated changes d e := by
  rw [ofFields_eq_accepted_iff,
    required_eq_accepted_iff (Fields.find?_setAll h rfl (.inr rfl)) (Checked.text_str d.name),
    optional_eq_accepted_iff (Fields.find?_setAll h rfl (.inr rfl)) (nullable_ofText? d.path),
    required_eq_accepted_iff (Fields.find?_setAll h rfl (.inl rfl)) (Checked.text_str d.label),
    optional_eq_accepted_iff (Fields.find?_setAll h rfl (.inl rfl))
      (nullable_ofText? d.description),
    optional_eq_accepted_iff (Fields.find?_setAll h rfl (.inl rfl)) (nullable_ofText? d.category)]
  constructor
  · rintro ⟨hname, hpath, hlabel, hdescription, hcategory⟩
    exact ⟨hname, hpath, hlabel, hdescription, hcategory⟩
  · rintro ⟨hname, hpath, hlabel, hdescription, hcategory⟩
    exact ⟨hname, hpath, hlabel, hdescription, hcategory⟩

end Plain

/-! ## Step groups -/

theorem Checked.text_eq_accepted_iff {v : Json} {s : String} :
    text v = accepted s ↔ v = .str s := by
  cases v <;> simp [text, stop]

theorem Title.ofJson_eq_accepted_iff {blank : Cause} {v : Json} {t : Title} :
    ofJson blank v = .accepted t ↔ v = .str t.text := by
  constructor
  · intro h
    unfold ofJson at h
    split at h
    · split at h
      · split at h <;> cases h
        rfl
      · cases h
    · cases h
  · rintro rfl
    exact ofJson_text blank t

namespace StepGroup
variable {d e : StepGroup} {changes fields : Fields}

/-- The label after changes: the new title, where the changes empty it; what they give otherwise;
and where they do not name it, the new title if it was the title. -/
def Labelled (changes : Fields) (d e : StepGroup) : Prop :=
  match changes.get? "label" with
  | some v => if v.isHollow then e.label.1 = e.title.text else v = .str e.label.1
  | none => e.label.1 = if d.label.1 = d.title.text then e.title.text else d.label.1

/-- A step group after changes. -/
structure Updated (changes : Fields) (d e : StepGroup) : Prop where
  title : Taken (Title.ofJson .blankGroupTitle) changes "title" "title" d.title e.title
  mode : Taken StepMode.ofJson changes "mode" "mode" d.mode e.mode
  purpose : Taken (Checked.nullable (Checked.bounded 500)) changes "purpose" "purpose"
    d.purpose e.purpose
  agents : Taken (Checked.list Checked.text) changes "agents" "agents" d.agents e.agents
  label : Labelled changes d e
  description : Taken (Checked.nullable Checked.text) changes "description" "description"
    d.description e.description

/-! ### What is filled in -/

section Complete
variable {name : String} {title label : Json} (htitle : fields.get? "title" = some title)
  (hlabel : fields.get? "label" = some label)
include htitle hlabel

theorem complete_eq : complete fields =
    if label.isHollow && !title.isHollow then fields.set "label" title else fields := by
  rw [complete, htitle, hlabel]
  rfl

theorem get?_complete_of_ne (hname : name ≠ "label") :
    (complete fields).get? name = fields.get? name := by
  rw [complete_eq htitle hlabel]
  split
  · rw [Fields.get?_set_of_ne _ _ hname]
  · rfl

theorem get?_complete_label : (complete fields).get? "label" =
    some (if label.isHollow && !title.isHollow then title else label) := by
  rw [complete_eq htitle hlabel]
  split
  · rw [Fields.get?_set_self]
  · rw [hlabel]

end Complete

/-! ### What is tracked -/

theorem tracked_cases (d : StepGroup) (changes : Fields) :
    (∃ title, changes.get? "title" = some title ∧ changes.get? "label" = none ∧
        d.label.1 = d.title.text ∧
        Node.tracked (.stepGroup d) changes = changes.set "label" title) ∨
      (changes.get? "title" = none ∨ changes.get? "label" ≠ none ∨ d.label.1 ≠ d.title.text) ∧
        Node.tracked (.stepGroup d) changes = changes := by
  unfold Node.tracked
  cases htitle : changes.get? "title" with
  | none => exact .inr ⟨.inl rfl, rfl⟩
  | some title =>
    by_cases hlabel : changes.get? "label" = none
    · by_cases heq : d.label.1 = d.title.text
      · exact .inl ⟨title, rfl, hlabel, heq, by simp [Fields.has, hlabel, heq]⟩
      · exact .inr ⟨.inr (.inr heq), by simp [heq]⟩
    · have hhas : changes.has "label" = true := by
        simpa [Fields.has, Option.isSome_iff_ne_none] using hlabel
      exact .inr ⟨.inr (.inl hlabel), by simp [hhas]⟩

theorem get?_tracked_of_ne {name : String} (hname : name ≠ "label") :
    (Node.tracked (.stepGroup d) changes).get? name = changes.get? name := by
  rcases tracked_cases d changes with ⟨title, -, -, -, htracked⟩ | ⟨-, htracked⟩
  · rw [htracked, Fields.get?_set_of_ne _ _ hname]
  · rw [htracked]

theorem get?_tracked_label : (Node.tracked (.stepGroup d) changes).get? "label" =
    (changes.get? "label").or
      (if d.label.1 = d.title.text then changes.get? "title" else none) := by
  rcases tracked_cases d changes with ⟨title, htitle, hlabel, heq, htracked⟩ | ⟨hnone, htracked⟩
  · rw [htracked, Fields.get?_set_self, hlabel, if_pos heq, htitle]
    rfl
  · rw [htracked]
    cases hlabel : changes.get? "label" with
    | some v => rfl
    | none =>
      rw [Option.none_or]
      split
      · rename_i heq
        rcases hnone with htitle | hlabel' | hne
        · rw [htitle]
        · exact absurd hlabel hlabel'
        · exact absurd heq hne
      · rfl

theorem nodup_keys_tracked (h : (changes.map Prod.fst).Nodup) :
    ((Node.tracked (.stepGroup d) changes).map Prod.fst).Nodup := by
  rcases tracked_cases d changes with ⟨title, -, hlabel, -, htracked⟩ | ⟨-, htracked⟩
  · rw [htracked]
    exact Fields.nodup_keys_set h hlabel title
  · rw [htracked]
    exact h

/-! ### What comes of it -/

theorem make_eq_iff {title : Title} {mode : StepMode} {purpose : Option Purpose}
    {agents : List String} {label : String} {description : Option String} :
    make title mode purpose agents label description = e ↔
      title = e.title ∧ mode = e.mode ∧ purpose = e.purpose ∧ agents = e.agents ∧
        (if label = "" then title.text else label) = e.label.1 ∧ description = e.description := by
  obtain ⟨title', mode', purpose', agents', ⟨label', hlabel'⟩, description'⟩ := e
  by_cases hlabel : label = "" <;> simp [make, hlabel]

open Checked in
theorem ofCompleted_eq_accepted_iff : ofCompleted fields = .accepted e ↔
    required fields "title" "title" (Title.ofJson .blankGroupTitle) = .accepted e.title ∧
      Checked.optional fields "mode" "mode" .sequential StepMode.ofJson = .accepted e.mode ∧
      Checked.optional fields "purpose" "purpose" none (nullable (bounded 500)) =
        .accepted e.purpose ∧
      Checked.optional fields "agents" "agents" [] (list text) = .accepted e.agents ∧
      (∃ label, Checked.optional fields "label" "label" "" text = .accepted label ∧
        (if label = "" then e.title.text else label) = e.label.1) ∧
      Checked.optional fields "description" "description" none (nullable text) =
        .accepted e.description := by
  simp only [ofCompleted, ap_eq_accepted_iff, map_eq_accepted_iff]
  constructor
  · rintro ⟨_, _, ⟨_, label, ⟨_, _, ⟨_, _, ⟨_, _, ⟨_, htitle, rfl⟩, hmode, rfl⟩, hpurpose, rfl⟩,
      hagents, rfl⟩, hlabel, rfl⟩, hdescription, hmake⟩
    obtain ⟨rfl, rfl, rfl, rfl, hmade, rfl⟩ := make_eq_iff.1 hmake
    exact ⟨htitle, hmode, hpurpose, hagents, ⟨label, hlabel, hmade⟩, hdescription⟩
  · rintro ⟨htitle, hmode, hpurpose, hagents, ⟨label, hlabel, hmade⟩, hdescription⟩
    exact ⟨_, _, ⟨_, label, ⟨_, _, ⟨_, _, ⟨_, _, ⟨_, htitle, rfl⟩, hmode, rfl⟩, hpurpose, rfl⟩,
      hagents, rfl⟩, hlabel, rfl⟩, hdescription, make_eq_iff.2 ⟨rfl, rfl, rfl, rfl, hmade, rfl⟩⟩

theorem taken_title_iff :
    Taken (Title.ofJson .blankGroupTitle) changes "title" "title" d.title e.title ↔
      (changes.get? "title").getD (.str d.title.text) = .str e.title.text := by
  rw [Taken, Checked.find?_same]
  cases changes.get? "title" with
  | some v => exact Title.ofJson_eq_accepted_iff
  | none =>
    constructor
    · intro h
      rw [h]
      rfl
    · intro h
      obtain ⟨⟨text, _, _⟩, _⟩ := d
      obtain ⟨⟨text', _, _⟩, _⟩ := e
      cases h
      rfl

/-- With a title that is accepted, a hollow label becomes the title and any other stands. -/
theorem exists_label_iff {label : Json} :
    (∃ text, (if label.isHollow then .str e.title.text else label) = Json.str text ∧
        (if text = "" then e.title.text else text) = e.label.1) ↔
      if label.isHollow then e.label.1 = e.title.text else label = .str e.label.1 := by
  split
  · constructor
    · rintro ⟨text, htext, hmade⟩
      cases htext
      rw [if_neg e.title.text_ne_empty] at hmade
      exact hmade.symm
    · intro h
      exact ⟨_, rfl, by rw [if_neg e.title.text_ne_empty, h]⟩
  · rename_i hfull
    constructor
    · rintro ⟨text, rfl, hmade⟩
      have hne : text ≠ "" := by
        rintro rfl
        exact hfull rfl
      rw [if_neg hne] at hmade
      rw [hmade]
    · rintro rfl
      exact ⟨_, rfl, by rw [if_neg e.label.2]⟩

/-- The label that the merged data hold. -/
def labelHeld (d : StepGroup) (changes : Fields) : Json :=
  ((Node.tracked (.stepGroup d) changes).get? "label").getD (.str d.label.1)

/-- A held label makes the new label what it has to be, whether it was named or tracked. -/
theorem labelHeld_iff (htitle : (changes.get? "title").getD (.str d.title.text) =
    .str e.title.text) :
    (if (labelHeld d changes).isHollow then e.label.1 = e.title.text
      else labelHeld d changes = .str e.label.1) ↔ Labelled changes d e := by
  have hfull : ∀ {s : String}, s ≠ "" → (Json.str s).isHollow = false := by
    intro s hs
    simpa [Json.isHollow] using hs
  rw [labelHeld, get?_tracked_label, Labelled]
  cases changes.get? "label" with
  | some v => exact Iff.rfl
  | none =>
    rw [Option.none_or]
    by_cases heq : d.label.1 = d.title.text
    · rw [if_pos heq, heq, htitle, hfull e.title.text_ne_empty]
      simp [eq_comm]
    · rw [if_neg heq, Option.getD_none, hfull d.label.2]
      simp [heq, eq_comm]

section Merged
variable (h : (changes.map Prod.fst).Nodup)
include h

theorem get?_merged {name : String} {v : Json}
    (hv : (Form.inner.fields d.entries).get? name = some v) :
    (Node.merged (.stepGroup d) changes).get? name =
      some (((Node.tracked (.stepGroup d) changes).get? name).getD v) := by
  have hset := Fields.get?_setAll (nodup_keys_tracked (d := d) h) (Form.inner.fields d.entries) name
  rw [hv] at hset
  refine Eq.trans hset ?_
  cases (Node.tracked (.stepGroup d) changes).get? name <;> rfl

theorem find?_completed {name : String} {v : Json} (hname : name ≠ "label")
    (hv : (Form.inner.fields d.entries).get? name = some v) :
    Checked.find? (complete (Node.merged (.stepGroup d) changes)) name name =
      (Checked.find? changes name name).or (some (name, v)) := by
  rw [Checked.find?_same, Checked.find?_same,
    get?_complete_of_ne (get?_merged h rfl) (get?_merged h rfl) hname, get?_merged h hv,
    get?_tracked_of_ne hname]
  cases changes.get? name <;> rfl

theorem find?_completed_label (htitle : (changes.get? "title").getD (.str d.title.text) =
    .str e.title.text) :
    Checked.find? (complete (Node.merged (.stepGroup d) changes)) "label" "label" =
      some ("label", if (labelHeld d changes).isHollow then .str e.title.text
        else labelHeld d changes) := by
  have hfull : (Json.str e.title.text).isHollow = false := by
    simpa [Json.isHollow] using e.title.text_ne_empty
  have hnew : (Node.merged (.stepGroup d) changes).get? "title" = some (.str e.title.text) := by
    rw [get?_merged h (v := .str d.title.text) rfl, get?_tracked_of_ne (by decide), htitle]
  have hheld : (Node.merged (.stepGroup d) changes).get? "label" = some (labelHeld d changes) :=
    get?_merged h rfl
  rw [Checked.find?_same, get?_complete_label hnew hheld, hfull, Bool.not_false, Bool.and_true]
  rfl

theorem ofFields_merged_iff :
    ofFields (Node.merged (.stepGroup d) changes) = .accepted e ↔ Updated changes d e := by
  have hpurpose : Checked.nullable (Checked.bounded 500) (.ofText? (d.purpose.map Bounded.text)) =
      .accepted d.purpose := by
    cases d.purpose <;> simp [Json.ofText?]
  have hlabel : Taken (Title.ofJson .blankGroupTitle) changes "title" "title" d.title e.title →
      ((∃ label, Checked.optional (complete (Node.merged (.stepGroup d) changes)) "label" "label" ""
          Checked.text = .accepted label ∧
        (if label = "" then e.title.text else label) = e.label.1) ↔ Labelled changes d e) := by
    intro htaken
    have htitle := taken_title_iff.1 htaken
    rw [← labelHeld_iff htitle, ← exists_label_iff]
    simp only [Checked.optional, find?_completed_label h htitle, Checked.under_eq_accepted_iff,
      Checked.text_eq_accepted_iff]
  rw [ofFields, ofCompleted_eq_accepted_iff,
    required_eq_accepted_iff (find?_completed h (by decide) rfl) (Title.ofJson_text _ d.title),
    optional_eq_accepted_iff (find?_completed h (by decide) rfl) (StepMode.ofJson_word d.mode),
    optional_eq_accepted_iff (find?_completed h (by decide) rfl) hpurpose,
    optional_eq_accepted_iff (find?_completed h (by decide) rfl) (Checked.list_texts d.agents),
    optional_eq_accepted_iff (find?_completed h (by decide) rfl) (nullable_ofText? d.description)]
  constructor
  · rintro ⟨htitle, hmode, hpurpose, hagents, hmade, hdescription⟩
    exact ⟨htitle, hmode, hpurpose, hagents, (hlabel htitle).1 hmade, hdescription⟩
  · rintro ⟨htitle, hmode, hpurpose, hagents, hmade, hdescription⟩
    exact ⟨htitle, hmode, hpurpose, hagents, (hlabel htitle).2 hmade, hdescription⟩

end Merged
end StepGroup

/-! ## Payloads -/

namespace Payload
variable {p q : Payload} {changes : Fields}

/-- A payload of the same kind after changes. -/
def Updated (changes : Fields) : Payload → Payload → Prop
  | start d, start e => TerminalData.Updated changes d e
  | finish d, finish e => TerminalData.Updated changes d e
  | agent d, agent e => AgentData.Updated changes d e
  | stepGroup d, stepGroup e => StepGroup.Updated changes d e
  | _, _ => False

theorem Updated.of_stepGroup {d : StepGroup} (h : Updated changes (stepGroup d) q) :
    ∃ e, q = stepGroup e ∧ StepGroup.Updated changes d e := by
  cases q with
  | stepGroup e => exact ⟨e, rfl, h⟩
  | _ => cases h

theorem ofFields_merged_iff (h : (changes.map Prod.fst).Nodup) :
    ofFields p.kind (Node.merged p changes) = .accepted q ↔ Updated changes p q := by
  cases p with
  | start d =>
    have hmerged : Node.merged (.start d) changes =
        (Form.inner.fields d.entries).setAll changes := rfl
    rw [kind, ofFields, Checked.map_eq_accepted_iff, hmerged]
    simp only [TerminalData.ofFields_merged_iff h]
    cases q <;> simp [Updated]
  | finish d =>
    have hmerged : Node.merged (.finish d) changes =
        (Form.inner.fields d.entries).setAll changes := rfl
    rw [kind, ofFields, Checked.map_eq_accepted_iff, hmerged]
    simp only [TerminalData.ofFields_merged_iff h]
    cases q <;> simp [Updated]
  | agent d =>
    have hmerged : Node.merged (.agent d) changes =
        (Form.inner.fields d.entries).setAll changes := rfl
    rw [kind, ofFields, Checked.map_eq_accepted_iff, hmerged]
    simp only [AgentData.ofFields_merged_iff h]
    cases q <;> simp [Updated]
  | stepGroup d =>
    rw [kind, ofFields, Checked.map_eq_accepted_iff]
    simp only [StepGroup.ofFields_merged_iff h]
    cases q <;> simp [Updated]

end Payload

end WorkflowCanvas
