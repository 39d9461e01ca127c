import WorkflowCanvas.Proofs.Decode.Told
import WorkflowCanvas.Workflow.Archive

/-! Documents that are refused, and for what. Main statement: a document is read as a definition, or
refused with all its faults and nothing else; one for each field of the metadata that is missing or
not what it should be, one for steps that are no list, and for each entry of a list of steps one if
it is no object, else one for each of its fields that is missing or not what it should be, but for
agents one for each bad reference. -/
namespace WorkflowCanvas
set_option autoImplicit false

/-! ## What a definition asks for -/

/-- Whether a text can be the name of a workflow. -/
def isWorkflowName (s : String) : Bool :=
  decide (s.length ≤ 50) && s.toList.all isNameChar && !Text.isBlank s

open Json in
def metadataRules : List Rule :=
  [⟨"workflowName", "workflow_name", true, scalarFaults (isTextWhere isWorkflowName)⟩,
    ⟨"workflowPurpose", "workflow_purpose", false, scalarFaults (isTextWhere (·.length ≤ 5000))⟩,
    ⟨"workflowModel", "workflow_model", false, scalarFaults (isNullOr isText)⟩,
    ⟨"workflowArgumentHint", "workflow_argument_hint", false,
      scalarFaults (isNullOr (isTextWhere (·.length ≤ 500)))⟩]

def agentsRule : Rule := ⟨"agents", "agents", false, listFaults (scalarFaults Json.isText)⟩

open Json in
def stepRules : List Rule :=
  [⟨"title", "title", true, scalarFaults (isTextWhere isTitle)⟩,
    ⟨"mode", "mode", false, scalarFaults (isTextWhere isMode)⟩,
    ⟨"purpose", "purpose", false, scalarFaults (isNullOr (isTextWhere (·.length ≤ 500)))⟩,
    agentsRule]

def stepsRule : Rule :=
  ⟨"workflowSteps", "workflow_steps", true, listFaults (recordFaults stepRules)⟩

def definitionRules : List Rule := metadataRules ++ [stepsRule]

/-! ## How definitions are decoded -/

open Checked

theorem WorkflowName.told_ofJson (v : Json) :
    Told (ofJson v) (scalarFaults (Json.isTextWhere isWorkflowName) v) := by
  cases v with
  | str s =>
    refine told_scalar (fun h => ?_) fun h => ?_
    · obtain ⟨⟨hfits, hspelled⟩, hblank⟩ :
          (s.length ≤ 50 ∧ s.toList.all isNameChar = true) ∧ Text.isBlank s = false := by
        simpa only [Json.isTextWhere, isWorkflowName, Bool.and_eq_true, decide_eq_true_eq,
          Bool.not_eq_true'] using h
      exact ⟨_, ofJson_text ⟨s, hfits, hspelled, hblank⟩⟩
    · have hbad : s.length ≤ 50 → s.toList.all isNameChar = true → Text.isBlank s = true := by
        intro hfits hspelled
        simpa [Json.isTextWhere, isWorkflowName, hfits, hspelled] using h
      rw [ofJson]
      split
      · rename_i hfits
        split
        · rename_i hspelled
          rw [dif_neg (by simp [hbad hfits hspelled])]
          exact ⟨_, rfl⟩
        · exact ⟨_, rfl⟩
      · exact ⟨_, rfl⟩
  | _ => exact told_stop .notText

section Records
variable (fields : Fields)

theorem Step.told_ofFields :
    Told (Step.ofFields fields) (recordFaults stepRules (.obj fields)) := by
  have htitle := told_required "title" "title" fields (Title.told_ofJson .blankStepTitle)
  have hmode := told_optional "mode" "mode" fields .sequential StepMode.told_ofJson
  have hpurpose :=
    told_optional "purpose" "purpose" fields none (told_nullable (told_bounded 500))
  have hagents := told_optional "agents" "agents" fields [] (told_list told_text)
  simpa only [ofFields, recordFaults, stepRules, agentsRule, List.flatMap_cons, List.flatMap_nil,
    List.append_nil, List.append_assoc] using
    (((htitle.map Step.mk).ap hmode).ap hpurpose).ap hagents

theorem Metadata.told_ofFields :
    Told (Metadata.ofFields fields) (recordFaults metadataRules (.obj fields)) := by
  have hname := told_required "workflowName" "workflow_name" fields WorkflowName.told_ofJson
  have hpurpose :=
    told_optional "workflowPurpose" "workflow_purpose" fields noPurpose (told_bounded 5000)
  have hmodel :=
    told_optional "workflowModel" "workflow_model" fields none (told_nullable told_text)
  have hhint := told_optional "workflowArgumentHint" "workflow_argument_hint" fields none
    (told_nullable (told_bounded 500))
  simpa only [ofFields, recordFaults, metadataRules, List.flatMap_cons, List.flatMap_nil,
    List.append_nil, List.append_assoc] using
    (((hname.map Metadata.mk).ap hpurpose).ap hmodel).ap hhint

theorem Definition.told_ofFields :
    Told (Definition.ofFields fields) (recordFaults definitionRules (.obj fields)) := by
  have hstep : ∀ v, Told (Step.ofJson v) (recordFaults stepRules v) :=
    told_record Step.told_ofFields "WorkflowStep"
  have hsteps := told_required "workflowSteps" "workflow_steps" fields (told_list hstep)
  simpa only [ofFields, recordFaults, definitionRules, stepsRule, List.flatMap_append,
    List.flatMap_cons, List.flatMap_nil, List.append_nil] using
    ((Metadata.told_ofFields fields).map Definition.mk).ap hsteps

end Records

/-! ## What is told of a document -/

/-- A place that starts with a name is written in front of the message. -/
theorem Problem.line_of_field {p : Problem} {name : String} {rest : Place}
    (hplace : p.place = .field name :: rest) (hname : name ≠ "") :
    p.line = ".".intercalate (p.place.map Segment.text) ++ ": " ++ p.message := by
  have hplaced : ".".intercalate (p.place.map Segment.text) ≠ "" := by
    rw [hplace, List.map_cons]
    cases rest with
    | nil => simpa [Segment.text] using hname
    | cons s rest =>
      rw [List.map_cons, String.intercalate_cons_cons]
      simp [Segment.text, hname]
  have hempty : (".".intercalate (p.place.map Segment.text)).isEmpty = false := by
    simpa using hplaced
  rw [line, hempty]
  rfl

namespace Archive
variable {fields : Fields} {problems : List Problem}

/-- The places below some point that problems tell of. -/
def toldBelow (problems : List Problem) (way : Place) : List Place :=
  (problems.map Problem.place).filter way.isPrefixOf

/-- What is told of an entry of the steps, which there may be none of. -/
structure EntryReported (problems : List Problem) (key : String) (i : Nat) (entry : Option Json) :
    Prop where
  stray : (∃ p ∈ problems, p.place = [.field key, .item i]) ↔
    ∃ v, entry = some v ∧ ∀ fields : Fields, v ≠ .obj fields
  faulty : ∀ name, (∃ p ∈ problems, [.field key, .item i, .field name] <+: p.place) ↔
    ∃ fields : Fields, entry = some (.obj fields) ∧
      ∃ r ∈ stepRules, r.key = name ∧ (r.Missing fields ∨ r.Invalid fields)
  whole : ∀ fields : Fields, entry = some (.obj fields) → ∀ r ∈ stepRules,
    r.Missing fields ∨ r.Invalid fields →
    (r.key = "agents" → ∀ refs, fields.get? "agents" ≠ some (.arr refs)) →
      toldBelow problems [.field key, .item i, .field r.key] =
        [[.field key, .item i, .field r.key]]
  agents : ∀ (fields : Fields) (refs : List Json), entry = some (.obj fields) →
    fields.get? "agents" = some (.arr refs) →
    toldBelow problems [.field key, .item i, .field "agents"] =
      (refs.zipIdx.filter fun p => !p.1.isText).map fun p =>
        [.field key, .item i, .field "agents", .item p.2]

/-- What is told of a document: its faults in the order of its fields and of its steps, each of them
once and behind its place. -/
structure Reported (fields : Fields) (problems : List Problem) : Prop where
  places : problems.map Problem.place = recordFaults definitionRules (.obj fields)
  once : (problems.map Problem.place).Nodup
  lines : ∀ p ∈ problems,
    p.line = ".".intercalate (p.place.map Segment.text) ++ ": " ++ p.message
  metadata : ∀ r ∈ metadataRules,
    (r.Missing fields ∨ r.Invalid fields →
      (problems.map Problem.place).filter r.owns = [[.field (r.nameIn fields)]]) ∧
    (¬ (r.Missing fields ∨ r.Invalid fields) →
      (problems.map Problem.place).filter r.owns = [])
  noList : (∀ key items, Checked.find? fields "workflowSteps" "workflow_steps" ≠
      some (key, .arr items)) →
    (problems.map Problem.place).filter stepsRule.owns = [[.field (stepsRule.nameIn fields)]]
  entries : ∀ key items, Checked.find? fields "workflowSteps" "workflow_steps" =
      some (key, .arr items) →
    ∀ i : Nat, EntryReported problems key i items[i]?

/-! ### Rules with names of their own -/

theorem definitionRules_apart : definitionRules.Pairwise Rule.Apart := by
  simp [definitionRules, metadataRules, stepsRule, Rule.Apart]

theorem stepRules_apart : stepRules.Pairwise Rule.Apart := by
  simp [stepRules, agentsRule, Rule.Apart]

theorem key_eq_inner_of_mem_stepRules {r : Rule} (h : r ∈ stepRules) : r.key = r.inner := by
  simp only [stepRules, List.mem_cons, List.not_mem_nil, or_false] at h
  rcases h with rfl | rfl | rfl | rfl <;> rfl

theorem exists_scalar_of_mem_metadataRules {r : Rule} (h : r ∈ metadataRules) :
    ∃ valid, r.faults = scalarFaults valid := by
  simp only [metadataRules, List.mem_cons, List.not_mem_nil, or_false] at h
  rcases h with rfl | rfl | rfl | rfl <;> exact ⟨_, rfl⟩

theorem nodup_stepFaults (v : Json) : (recordFaults stepRules v).Nodup := by
  refine nodup_recordFaults stepRules_apart (fun r hr => ?_) v
  simp only [stepRules, List.mem_cons, List.not_mem_nil, or_false] at hr
  rcases hr with rfl | rfl | rfl | rfl
  · exact nodup_scalarFaults _
  · exact nodup_scalarFaults _
  · exact nodup_scalarFaults _
  · exact nodup_listFaults (nodup_scalarFaults _)

theorem nodup_definitionFaults (v : Json) : (recordFaults definitionRules v).Nodup := by
  refine nodup_recordFaults definitionRules_apart (fun r hr => ?_) v
  rcases List.mem_append.1 hr with hr | hr
  · obtain ⟨valid, hvalid⟩ := exists_scalar_of_mem_metadataRules hr
    rw [hvalid]
    exact nodup_scalarFaults valid
  · obtain rfl := List.mem_singleton.1 hr
    exact nodup_listFaults nodup_stepFaults

/-! ### One entry -/

section Step
variable {entry : Fields} {r : Rule}

/-- The faults of a step in one of its fields, seen from the step. -/
theorem filter_stepFaults (hr : r ∈ stepRules) (entry : Fields) :
    (recordFaults stepRules (.obj entry)).filter [Segment.field r.key].isPrefixOf =
      (r.faultsIn entry).map (.field r.key :: ·) := by
  have hname := Rule.nameIn_of_same entry (key_eq_inner_of_mem_stepRules hr)
  have hbelow := Rule.filter_recordFaults entry stepRules_apart hr []
  rwa [hname, filter_nil_isPrefixOf] at hbelow

theorem exists_stepFaults_iff {v : Json} {name : String} :
    (∃ rest ∈ recordFaults stepRules v, [.field name] <+: rest) ↔
      ∃ entry, v = .obj entry ∧
        ∃ r ∈ stepRules, r.key = name ∧ (r.Missing entry ∨ r.Invalid entry) := by
  rw [Rule.exists_recordFaults_iff]
  refine exists_congr fun entry => and_congr_right fun _ => ?_
  refine exists_congr fun r => and_congr_right fun hr => ?_
  rw [Rule.nameIn_of_same entry (key_eq_inner_of_mem_stepRules hr)]

theorem filter_agents {refs : List Json} (h : entry.get? "agents" = some (.arr refs)) :
    (recordFaults stepRules (.obj entry)).filter [Segment.field "agents"].isPrefixOf =
      (refs.zipIdx.filter fun p => !p.1.isText).map fun p => [.field "agents", .item p.2] := by
  have hr : agentsRule ∈ stepRules := by simp [stepRules]
  have hfaults : agentsRule.faultsIn entry = listFaults (scalarFaults Json.isText) (.arr refs) := by
    simp [Rule.faultsIn, agentsRule, Checked.find?_same, h]
  have hfilter := filter_stepFaults hr entry
  rw [hfaults, listFaults_scalarFaults, List.map_map] at hfilter
  exact hfilter

/-- Only a list of agents is at fault in its items. -/
theorem faultsIn_eq_whole_of_mem_stepRules (hr : r ∈ stepRules)
    (hfault : r.Missing entry ∨ r.Invalid entry)
    (hagents : r.key = "agents" → ∀ refs, entry.get? "agents" ≠ some (.arr refs)) :
    r.faultsIn entry = [[]] := by
  refine Rule.faultsIn_eq_whole entry (fun found v hfound hne => ?_) hfault
  simp only [stepRules, List.mem_cons, List.not_mem_nil, or_false] at hr
  rcases hr with rfl | rfl | rfl | rfl
  · exact scalarFaults_eq_whole hne
  · exact scalarFaults_eq_whole hne
  · exact scalarFaults_eq_whole hne
  · refine listFaults_eq_whole fun refs hv => hagents rfl refs ?_
    obtain ⟨w, hw, hpair⟩ := Option.map_eq_some_iff.1 ((Checked.find?_same _ _).symm.trans hfound)
    cases hpair
    exact hw.trans (congrArg some hv)

end Step

section Entry
variable {key : String} {items : List Json}
  (hplaces : problems.map Problem.place = recordFaults definitionRules (.obj fields))
  (hsteps : Checked.find? fields "workflowSteps" "workflow_steps" = some (key, .arr items))
  (i : Nat)
include hplaces hsteps

/-- What is told below an entry is what is wrong with it as a step. -/
theorem toldBelow_entry (way : Place) :
    toldBelow problems (.field key :: .item i :: way) =
      ((items[i]?.toList.flatMap (recordFaults stepRules)).filter way.isPrefixOf).map
        fun rest => .field key :: .item i :: rest := by
  have hname : stepsRule.nameIn fields = key := by
    simp [Rule.nameIn, stepsRule, hsteps]
  have hfaults : stepsRule.faultsIn fields = listFaults (recordFaults stepRules) (.arr items) := by
    simp [Rule.faultsIn, stepsRule, hsteps]
  have hbelow := Rule.filter_recordFaults fields definitionRules_apart
    (List.mem_append_right _ (List.mem_singleton_self stepsRule)) (.item i :: way)
  rw [hname, hfaults] at hbelow
  rw [toldBelow, hplaces, hbelow]
  cases hi : items[i]? with
  | none => simp [filter_listFaults_of_none _ _ hi]
  | some v => simp [filter_listFaults _ _ hi]

theorem exists_place_iff (rest : Place) :
    (∃ p ∈ problems, p.place = .field key :: .item i :: rest) ↔
      ∃ v, items[i]? = some v ∧ rest ∈ recordFaults stepRules v := by
  have hmem : (∃ p ∈ problems, p.place = .field key :: .item i :: rest) ↔
      .field key :: .item i :: rest ∈ toldBelow problems [.field key, .item i] := by
    simp [toldBelow]
  rw [hmem, toldBelow_entry hplaces hsteps i []]
  simp

theorem exists_prefix_iff (way : Place) :
    (∃ p ∈ problems, .field key :: .item i :: way <+: p.place) ↔
      ∃ v, items[i]? = some v ∧ ∃ rest ∈ recordFaults stepRules v, way <+: rest := by
  constructor
  · rintro ⟨p, hp, back, hback⟩
    obtain ⟨v, hv, hrest⟩ :=
      (exists_place_iff hplaces hsteps i (way ++ back)).1 ⟨p, hp, hback.symm⟩
    exact ⟨v, hv, _, hrest, back, rfl⟩
  · rintro ⟨v, hv, rest, hrest, back, rfl⟩
    obtain ⟨p, hp, hplace⟩ := (exists_place_iff hplaces hsteps i _).2 ⟨v, hv, hrest⟩
    exact ⟨p, hp, back, hplace.symm⟩

theorem entryReported : EntryReported problems key i items[i]? where
  stray := by
    simp only [exists_place_iff hplaces hsteps, nil_mem_recordFaults_iff]
  faulty := by
    intro name
    rw [exists_prefix_iff hplaces hsteps]
    simp only [exists_stepFaults_iff]
    constructor
    · rintro ⟨v, hv, entry, rfl, hfaulty⟩
      exact ⟨entry, hv, hfaulty⟩
    · rintro ⟨entry, hentry, hfaulty⟩
      exact ⟨_, hentry, entry, rfl, hfaulty⟩
  whole := by
    intro entry hentry r hr hfault hagents
    rw [toldBelow_entry hplaces hsteps, hentry, Option.toList_some, List.flatMap_singleton,
      filter_stepFaults hr, faultsIn_eq_whole_of_mem_stepRules hr hfault hagents]
    rfl
  agents := by
    intro entry refs hentry hrefs
    rw [toldBelow_entry hplaces hsteps, hentry, Option.toList_some, List.flatMap_singleton,
      filter_agents hrefs, List.map_map]
    rfl

end Entry

theorem parse_cases (fields : Fields) : ∃ problems : List Problem,
    problems.map Problem.place = recordFaults definitionRules (.obj fields) ∧
      (problems = [] ∧ (∃ d, parse (.obj fields) = .ok d) ∨
        problems ≠ [] ∧ parse (.obj fields) =
          .error (.fault (.badDocument (problems.map Problem.line)))) := by
  have hparse : parse (.obj fields) = definitionOf fields := rfl
  rw [hparse, definitionOf]
  generalize hplaces : recordFaults definitionRules (.obj fields) = places
  have htold := Definition.told_ofFields fields
  rw [hplaces] at htold
  cases hread : Definition.ofFields fields with
  | accepted d =>
    rw [hread] at htold
    cases htold
    exact ⟨[], rfl, .inl ⟨rfl, d, rfl⟩⟩
  | refused problems =>
    rw [hread] at htold
    cases htold with
    | refused hne => exact ⟨problems, rfl, .inr ⟨hne, rfl⟩⟩
  | unkeyable kind =>
    rw [hread] at htold
    cases htold

/-! ### The whole document -/

theorem nameIn_ne_empty {r : Rule} (h : r ∈ definitionRules) : r.nameIn fields ≠ "" := by
  have hnames : r.key ≠ "" ∧ r.inner ≠ "" := by
    simp only [definitionRules, metadataRules, stepsRule, List.cons_append, List.nil_append,
      List.mem_cons, List.not_mem_nil, or_false] at h
    rcases h with rfl | rfl | rfl | rfl | rfl <;> simp
  rcases r.nameIn_eq_or fields with hname | hname
  · rw [hname]
    exact hnames.1
  · rw [hname]
    exact hnames.2

theorem stepsRule_faultsIn (hnone : ∀ key items,
    Checked.find? fields "workflowSteps" "workflow_steps" ≠ some (key, .arr items)) :
    stepsRule.faultsIn fields = [[]] := by
  cases hfound : Checked.find? fields "workflowSteps" "workflow_steps" with
  | none => simp [Rule.faultsIn, stepsRule, hfound]
  | some found =>
    obtain ⟨key, v⟩ := found
    have hv : ∀ items, v ≠ .arr items := by
      rintro items rfl
      exact hnone key items hfound
    simp [Rule.faultsIn, stepsRule, hfound, listFaults_eq_whole hv]

theorem reported
    (hplaces : problems.map Problem.place = recordFaults definitionRules (.obj fields)) :
    Reported fields problems where
  places := hplaces
  once := by
    rw [hplaces]
    exact nodup_definitionFaults _
  lines := by
    intro p hp
    have hmem : p.place ∈ recordFaults definitionRules (.obj fields) := by
      rw [← hplaces]
      exact List.mem_map_of_mem hp
    obtain ⟨r, hr, rest, -, hplace⟩ := (Rule.mem_recordFaults_iff fields).1 hmem
    exact Problem.line_of_field hplace.symm (nameIn_ne_empty hr)
  metadata := by
    intro r hr
    have hmem : r ∈ definitionRules := List.mem_append_left _ hr
    rw [hplaces, Rule.filter_owns fields definitionRules_apart hmem, Rule.places]
    constructor
    · intro hfault
      obtain ⟨valid, hvalid⟩ := exists_scalar_of_mem_metadataRules hr
      rw [Rule.faultsIn_eq_whole fields (fun _ v _ hne => ?_) hfault]
      · rfl
      · rw [hvalid] at hne ⊢
        exact scalarFaults_eq_whole hne
    · intro hfault
      rw [← Rule.faultsIn_ne_nil_iff, not_not] at hfault
      rw [hfault]
      rfl
  noList := by
    intro hnone
    have hmem : stepsRule ∈ definitionRules := List.mem_append_right _ (List.mem_singleton_self _)
    rw [hplaces, Rule.filter_owns fields definitionRules_apart hmem, Rule.places,
      stepsRule_faultsIn hnone]
    rfl
  entries := fun _ _ hsteps i => entryReported hplaces hsteps i

theorem parse_reports (fields : Fields) : ∃ problems, Reported fields problems ∧
    (problems = [] ∧ (∃ d, parse (.obj fields) = .ok d) ∨
      problems ≠ [] ∧ parse (.obj fields) =
        .error (.fault (.badDocument (problems.map Problem.line)))) := by
  obtain ⟨problems, hplaces, houtcome⟩ := parse_cases fields
  exact ⟨problems, reported hplaces, houtcome⟩

/-- An empty name, a step with no title, one with an empty title and one that is none. -/
example : parse (.obj [("workflowName", .str ""), ("workflowSteps",
    .arr [.obj [("agents", .arr [])], .obj [("title", .str "")], .str "three"])]) =
    .error (.fault (.badDocument ["workflowName: String should match pattern '^[a-zA-Z0-9_\\s-]+$'",
      "workflowSteps.0.title: Field required",
      "workflowSteps.1.title: Value error, Step title cannot be empty",
      "workflowSteps.2: Input should be a valid dictionary or instance of WorkflowStep"])) := by
  rfl

end Archive
end WorkflowCanvas
