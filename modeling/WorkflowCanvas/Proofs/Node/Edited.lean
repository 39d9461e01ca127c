import Mathlib.Tactic.ByContra
import WorkflowCanvas.Proofs.Decode.Names
import WorkflowCanvas.Proofs.Decode.Told
import WorkflowCanvas.Proofs.Node.Merged

/-! Nodes with changed data. Main statements: a node takes changes exactly when some payload comes
of them, and is refused for problems otherwise; a field that the changes do not name stays as it
was, but for the label of a step group that goes along with the title; and changes under names that
no field has make no difference. -/
namespace WorkflowCanvas
set_option autoImplicit false

/-! ## What changes leave alone -/

/-- Whether changes name a field, by either of its names. -/
def Entry.NamedBy (changes : Fields) (e : Entry) : Prop :=
  changes.has e.key = true ∨ changes.has e.inner = true

section Frame
variable {changes : Fields}

theorem Checked.find?_eq_none_iff {key inner : String} :
    Checked.find? changes key inner = none ↔
      changes.get? key = none ∧ changes.get? inner = none := by
  rw [Checked.find?]
  cases changes.get? key with
  | some v => simp
  | none => simp

/-- The entry of a field that changes do not name is the one it was. -/
theorem Taken.entry {α : Type} {decode : Json → Checked α} {key inner : String} {old new : α}
    (h : Taken decode changes key inner old new) (encode : α → Json) :
    Entry.NamedBy changes ⟨inner, key, encode new⟩ ∨
      (⟨inner, key, encode new⟩ : Entry) = ⟨inner, key, encode old⟩ := by
  rw [Taken] at h
  split at h
  · rename_i hfound
    left
    by_contra hnone
    rw [Entry.NamedBy, not_or] at hnone
    simp only [Fields.has, Bool.not_eq_true, Option.isSome_eq_false_iff,
      Option.isNone_iff_eq_none] at hnone
    rw [Checked.find?_eq_none_iff.2 hnone] at hfound
    cases hfound
  · exact .inr (by rw [h])

theorem TerminalData.Updated.entry_mem {d e : TerminalData} (h : Updated changes d e)
    {entry : Entry} (hentry : entry ∈ e.entries) : entry.NamedBy changes ∨ entry ∈ d.entries := by
  simp only [entries, List.mem_cons, List.not_mem_nil, or_false] at hentry ⊢
  rcases hentry with rfl | rfl
  · exact (h.label.entry .str).imp_right .inl
  · exact (h.description.entry .ofText?).imp_right .inr

theorem AgentData.Updated.entry_mem {d e : AgentData} (h : Updated changes d e)
    {entry : Entry} (hentry : entry ∈ e.entries) : entry.NamedBy changes ∨ entry ∈ d.entries := by
  simp only [entries, List.mem_cons, List.not_mem_nil, or_false] at hentry ⊢
  rcases hentry with rfl | rfl | rfl | rfl | rfl
  · exact (h.name.entry .str).imp_right .inl
  · exact (h.path.entry .ofText?).imp_right fun heq => .inr (.inl heq)
  · exact (h.label.entry .str).imp_right fun heq => .inr (.inr (.inl heq))
  · exact (h.description.entry .ofText?).imp_right fun heq => .inr (.inr (.inr (.inl heq)))
  · exact (h.category.entry .ofText?).imp_right fun heq => .inr (.inr (.inr (.inr heq)))

/-- A step group whose label changes take along with its title. -/
def StepGroup.Tracks (changes : Fields) (d : StepGroup) : Prop :=
  d.label.1 = d.title.text ∧ changes.has "title" = true ∧ changes.has "label" = false

theorem Fields.has_eq_false_iff {name : String} :
    changes.has name = false ↔ changes.get? name = none := by
  rw [Fields.has, Option.isSome_eq_false_iff, Option.isNone_iff_eq_none]

theorem Taken.eq_of_unnamed {α : Type} {decode : Json → Checked α} {name : String} {old new : α}
    (h : Taken decode changes name name old new) (hname : changes.has name = false) :
    new = old := by
  rw [Fields.has_eq_false_iff] at hname
  rwa [Taken, Checked.find?_eq_none_iff.2 ⟨hname, hname⟩] at h

theorem StepGroup.Updated.label_of_unnamed {d e : StepGroup} (h : Updated changes d e)
    (hlabel : changes.has "label" = false) :
    e.label.1 = if d.label.1 = d.title.text then e.title.text else d.label.1 := by
  have hlabelled := h.label
  rwa [Labelled, Fields.has_eq_false_iff.1 hlabel] at hlabelled

/-- A label that is emptied becomes the title. -/
theorem StepGroup.Updated.label_of_hollow {d e : StepGroup} {v : Json} (h : Updated changes d e)
    (hlabel : changes.get? "label" = some v) (hhollow : v.isHollow = true) :
    e.label.1 = e.title.text := by
  have hlabelled := h.label
  rw [Labelled, hlabel] at hlabelled
  simpa only [hhollow, if_true] using hlabelled

/-- A label that is not named changes only along with the title. -/
theorem StepGroup.Updated.label_eq {d e : StepGroup} (h : Updated changes d e)
    (hlabel : changes.has "label" = false) : Tracks changes d ∨ e.label.1 = d.label.1 := by
  have hlabelled := h.label_of_unnamed hlabel
  split at hlabelled
  · rename_i heq
    cases htitle : changes.has "title" with
    | true => exact .inl ⟨heq, htitle, hlabel⟩
    | false =>
      rw [h.title.eq_of_unnamed htitle, ← heq] at hlabelled
      exact .inr hlabelled
  · exact .inr hlabelled

theorem StepGroup.Updated.entry_mem {d e : StepGroup} (h : Updated changes d e)
    {entry : Entry} (hentry : entry ∈ e.entries) : entry.NamedBy changes ∨ entry ∈ d.entries ∨
      Tracks changes d ∧ entry.inner = "label" := by
  simp only [entries, List.mem_cons, List.not_mem_nil, or_false] at hentry ⊢
  rcases hentry with rfl | rfl | rfl | rfl | rfl | rfl
  · exact (h.title.entry fun title => .str title.text).imp_right fun heq => .inl (.inl heq)
  · exact (h.mode.entry fun mode => .str mode.word).imp_right fun heq => .inl (.inr (.inl heq))
  · exact (h.purpose.entry fun purpose => .ofText? (purpose.map Bounded.text)).imp_right
      fun heq => .inl (.inr (.inr (.inl heq)))
  · exact (h.agents.entry .ofTexts).imp_right fun heq => .inl (.inr (.inr (.inr (.inl heq))))
  · cases hlabel : changes.has "label" with
    | true => exact .inl (.inl hlabel)
    | false =>
      right
      rcases h.label_eq hlabel with htracks | heq
      · exact .inr ⟨htracks, rfl⟩
      · rw [heq]
        simp
  · exact (h.description.entry .ofText?).imp_right
      fun heq => .inl (.inr (.inr (.inr (.inr (.inr heq)))))

end Frame

/-- What changes leave alone: a field that they do not name stays as it was, but for the label of a
step group that is taken along with the title. -/
theorem Payload.Updated.entry_mem {p q : Payload} {changes : Fields} (h : Updated changes p q)
    {entry : Entry} (hentry : entry ∈ q.entries) : entry.NamedBy changes ∨ entry ∈ p.entries ∨
      ∃ d, p = .stepGroup d ∧ d.Tracks changes ∧ entry.inner = "label" := by
  cases p with
  | start d =>
    cases q with
    | start e => exact (TerminalData.Updated.entry_mem h hentry).imp_right .inl
    | _ => cases h
  | finish d =>
    cases q with
    | finish e => exact (TerminalData.Updated.entry_mem h hentry).imp_right .inl
    | _ => cases h
  | agent d =>
    cases q with
    | agent e => exact (AgentData.Updated.entry_mem h hentry).imp_right .inl
    | _ => cases h
  | stepGroup d =>
    cases q with
    | stepGroup e =>
      refine (StepGroup.Updated.entry_mem h hentry).imp_right (Or.imp_right ?_)
      exact fun ⟨htracks, hinner⟩ => ⟨d, rfl, htracks, hinner⟩
    | _ => cases h

/-! ## Names that no field has -/

section Unknown
variable {names : List String} {test : String → Bool} {these those : Fields}

theorem Fields.AgreeOn.setAll_keep (htest : ∀ name ∈ names, test name = true) (changes : Fields)
    (h : AgreeOn names these those) :
    AgreeOn names (these.setAll (changes.keep test)) (those.setAll changes) := by
  induction changes generalizing these those with
  | nil => exact h
  | cons change rest ih =>
    obtain ⟨key, v⟩ := change
    cases hkey : test key with
    | true =>
      have hkeep : keep ((key, v) :: rest) test = (key, v) :: keep rest test := by
        simp [keep, hkey]
      rw [hkeep]
      exact ih (h.set key v)
    | false =>
      have hkeep : keep ((key, v) :: rest) test = keep rest test := by
        simp [keep, hkey]
      rw [hkeep]
      refine ih fun name hname => ?_
      have hne : name ≠ key := by
        rintro rfl
        rw [htest name hname] at hkey
        cases hkey
      rw [h name hname, get?_set_of_ne _ _ hne]

theorem StepGroup.tracked_keep (d : StepGroup) (changes : Fields) (htitle : test "title" = true)
    (hlabel : test "label" = true) : Node.tracked (.stepGroup d) (changes.keep test) =
      (Node.tracked (.stepGroup d) changes).keep test := by
  have hget : ∀ {name}, test name = true → (changes.keep test).get? name = changes.get? name :=
    fun hname => by rw [Fields.get?_keep, if_pos hname]
  rcases tracked_cases d changes with ⟨title, ht, hl, heq, htracked⟩ | ⟨hnone, htracked⟩
  · rcases tracked_cases d (changes.keep test) with ⟨title', ht', hl', -, htracked'⟩ | ⟨hnone, -⟩
    · rw [hget htitle, ht] at ht'
      cases ht'
      rw [htracked, htracked', Fields.set_of_absent _ hl, Fields.set_of_absent _ hl', Fields.keep,
        Fields.keep, List.filter_append]
      simp [hlabel]
    · rw [hget htitle, hget hlabel, ht, hl] at hnone
      simp [heq] at hnone
  · rcases tracked_cases d (changes.keep test) with ⟨title', ht', hl', heq, -⟩ | ⟨-, htracked'⟩
    · rw [hget htitle] at ht'
      rw [hget hlabel] at hl'
      simp [ht', hl', heq] at hnone
    · rw [htracked, htracked']

/-- Changes under names that a payload does not have do not count. -/
theorem Node.withData_keep (n : Node) (changes : Fields)
    (htest : ∀ name ∈ n.payload.names, test name = true) :
    n.withData (changes.keep test) = n.withData changes := by
  obtain ⟨id, position, p, named⟩ := n
  have htracked : tracked p (changes.keep test) = (tracked p changes).keep test := by
    cases p with
    | stepGroup d =>
      refine d.tracked_keep changes (htest _ ?_) (htest _ ?_) <;>
        simp [Payload.names, Payload.entries, StepGroup.entries, Entry.names, Entry.plain]
    | _ => rfl
  have hread : Payload.ofFields p.kind (merged p (changes.keep test)) =
      Payload.ofFields p.kind (merged p changes) := by
    refine p.ofFields_congr ?_
    rw [merged, merged, htracked]
    exact Fields.AgreeOn.setAll_keep htest _ fun _ _ => rfl
  simp only [withData, kind, hread]

end Unknown

/-! ## Taken or refused -/

section Told
open Checked
variable (fields : Fields)

/-- A payload is refused for something if it is refused. -/
theorem TerminalData.exists_told : ∃ places, Told (TerminalData.ofFields fields) places :=
  ⟨_, ((told_required "label" "label" fields told_text).map _).ap
    (told_optional "description" "description" fields none (told_nullable told_text))⟩

theorem AgentData.exists_told : ∃ places, Told (AgentData.ofFields fields) places := by
  have htext := fun key inner => told_optional key inner fields none (told_nullable told_text)
  have hname := told_required "agentName" "agent_name" fields told_text
  have hlabel := told_required "label" "label" fields told_text
  exact ⟨_, ((((hname.map AgentData.mk).ap (htext "agentPath" "agent_path")).ap hlabel).ap
    (htext "description" "description")).ap (htext "category" "category")⟩

theorem StepGroup.exists_told : ∃ places, Told (StepGroup.ofFields fields) places := by
  rw [ofFields]
  generalize complete fields = completed
  have htitle := told_required "title" "title" completed (Title.told_ofJson .blankGroupTitle)
  have hmode := told_optional "mode" "mode" completed .sequential StepMode.told_ofJson
  have hpurpose :=
    told_optional "purpose" "purpose" completed none (told_nullable (told_bounded 500))
  have hagents := told_optional "agents" "agents" completed [] (told_list told_text)
  have hlabel := told_optional "label" "label" completed "" told_text
  have hdescription :=
    told_optional "description" "description" completed none (told_nullable told_text)
  exact ⟨_, (((((htitle.map make).ap hmode).ap hpurpose).ap hagents).ap hlabel).ap hdescription⟩

theorem Payload.exists_told (kind : NodeKind) : ∃ places, Told (ofFields kind fields) places := by
  cases kind with
  | start => exact (TerminalData.exists_told fields).imp fun _ h => h.map _
  | finish => exact (TerminalData.exists_told fields).imp fun _ h => h.map _
  | agent => exact (AgentData.exists_told fields).imp fun _ h => h.map _
  | stepGroup => exact (StepGroup.exists_told fields).imp fun _ h => h.map _

end Told

theorem Node.withData_cases (n : Node) {changes : Fields} (h : (changes.map Prod.fst).Nodup) :
    (∃ q, n.withData changes = .ok { n with payload := q } ∧ Payload.Updated changes n.payload q) ∨
      ∃ problems, problems ≠ [] ∧ n.withData changes = .error (.ofProblems n.id problems) ∧
        ∀ q, ¬ Payload.Updated changes n.payload q := by
  have hiff := fun q => Payload.ofFields_merged_iff (p := n.payload) (q := q) h
  obtain ⟨places, htold⟩ := Payload.exists_told (merged n.payload changes) n.kind
  have hkind : n.kind = n.payload.kind := rfl
  rw [withData]
  rw [hkind] at htold ⊢
  cases hread : Payload.ofFields n.payload.kind (merged n.payload changes) with
  | accepted q => exact .inl ⟨q, rfl, (hiff q).1 hread⟩
  | refused problems =>
    rw [hread] at htold
    refine .inr ⟨problems, ?_, rfl, fun q hq => ?_⟩
    · cases htold with
      | refused hne => exact hne
    · cases hread.symm.trans ((hiff q).2 hq)
  | unkeyable kind =>
    rw [hread] at htold
    cases htold

end WorkflowCanvas
