import WorkflowCanvas.Proofs.Attempt
import WorkflowCanvas.Proofs.Graph.Edits
import WorkflowCanvas.Proofs.Node.Edited

/-! Graphs whose nodes are given other data, one after the other. Main statement: an update is
refused, or changes the payload of its one node, and in it the fields that it names; and along
updates that never name its label a step group that is labelled with its title stays so, while any
other label stays until some update makes the title the same. -/
namespace WorkflowCanvas
set_option autoImplicit false

namespace Graph
variable {g h : Graph} {id : String} {changes : Fields} {n m : Node}

/-! ## One update -/

theorem nodes_putNode (hn : g.node? id = some n) (q : Payload) :
    (g.putNode { n with payload := q }).nodes =
      g.nodes.map fun k => if k.id = id then { k with payload := q } else k := by
  obtain ⟨hmem, rfl⟩ := node?_eq_some_iff.1 hn
  refine List.map_congr_left fun k hk => ?_
  by_cases hid : k.id = n.id
  · obtain rfl := node_eq_of_id_eq hk hmem hid
    simp
  · simp [hid]

theorem node?_putNode (hn : g.node? id = some n) (q : Payload) (other : String) :
    (g.putNode { n with payload := q }).node? other =
      if other = id then some { n with payload := q } else g.node? other := by
  obtain ⟨hmem, rfl⟩ := node?_eq_some_iff.1 hn
  split
  · rename_i heq
    subst heq
    refine node?_eq_some_iff.2 ⟨?_, rfl⟩
    rw [nodes_putNode hn]
    exact List.mem_map.2 ⟨n, hmem, by simp⟩
  · rename_i hne
    refine Option.ext fun k => ?_
    rw [node?_eq_some_iff, node?_eq_some_iff, nodes_putNode hn, List.mem_map]
    constructor
    · rintro ⟨⟨l, hl, rfl⟩, rfl⟩
      split at hne
      · rename_i heq
        exact absurd heq hne
      · rename_i hlid
        rw [if_neg hlid]
        exact ⟨hl, rfl⟩
    · rintro ⟨hk, rfl⟩
      exact ⟨⟨k, hk, if_neg hne⟩, rfl⟩

/-- The step group that a node carries. -/
def groupAt? (g : Graph) (id : String) : Option StepGroup :=
  (g.node? id).bind fun n => n.payload.stepGroup?

/-- What an update of the data of a node comes to: the node is not known, or some payload comes of
the changes, or none does and they are refused. -/
structure Updating (g : Graph) (id : String) (changes : Fields) : Prop where
  unknown : g.node? id = none → g.updateData id changes = .error (.nodeUnknown id)
  known : ∀ n, g.node? id = some n →
    (∃ h q, g.updateData id changes = .ok h ∧ h.edges = g.edges ∧
        h.nodes = (g.nodes.map fun k => if k.id = id then { k with payload := q } else k) ∧
        Payload.Updated changes n.payload q) ∨
      ∃ problems, problems ≠ [] ∧ g.updateData id changes = .error (.ofProblems id problems) ∧
        ∀ q, ¬ Payload.Updated changes n.payload q
  frame : ∀ n m h, g.node? id = some n → g.updateData id changes = .ok h → h.node? id = some m →
    ∀ entry ∈ m.payload.entries, entry.NamedBy changes ∨ entry ∈ n.payload.entries ∨
      ∃ d, n.payload = .stepGroup d ∧ d.Tracks changes ∧ entry.inner = "label"
  strangers : ∀ n, g.node? id = some n →
    g.updateData id (changes.keep n.payload.names.contains) = g.updateData id changes
  emptied : ∀ d h, g.groupAt? id = some d → g.updateData id changes = .ok h →
    changes.get? "label" = some .null ∨ changes.get? "label" = some (.str "") →
      ∃ e, h.groupAt? id = some e ∧ e.label.1 = e.title.text

theorem updateData_of_unknown (hn : g.node? id = none) :
    g.updateData id changes = .error (.nodeUnknown id) := by
  rw [updateData, hn]

theorem updateData_of_known (hn : g.node? id = some n) :
    g.updateData id changes = (n.withData changes).map g.putNode := by
  rw [updateData, hn]

theorem updated_of_updateData (hkeys : (changes.map Prod.fst).Nodup) (hn : g.node? id = some n)
    (hok : g.updateData id changes = .ok h) :
    ∃ q, h = g.putNode { n with payload := q } ∧ Payload.Updated changes n.payload q := by
  rw [updateData_of_known hn] at hok
  rcases n.withData_cases hkeys with ⟨q, hq, hupdated⟩ | ⟨problems, -, hrefused, -⟩
  · rw [hq] at hok
    cases hok
    exact ⟨q, rfl, hupdated⟩
  · rw [hrefused] at hok
    cases hok

theorem groupAt?_eq_some_iff {d : StepGroup} :
    g.groupAt? id = some d ↔ ∃ n, g.node? id = some n ∧ n.payload = .stepGroup d := by
  rw [groupAt?, Option.bind_eq_some_iff]
  refine exists_congr fun n => and_congr_right fun _ => ?_
  cases n.payload <;> simp [Payload.stepGroup?]

/-- An update gives another step group to the node that it is for, and leaves that of any other. -/
theorem groupAt?_of_updateData {other : String} {d : StepGroup}
    (hkeys : (changes.map Prod.fst).Nodup) (hd : g.groupAt? id = some d)
    (hok : g.updateData other changes = .ok h) :
    ∃ e, h.groupAt? id = some e ∧
      (other = id ∧ StepGroup.Updated changes d e ∨ other ≠ id ∧ e = d) := by
  obtain ⟨n, hn, hpayload⟩ := groupAt?_eq_some_iff.1 hd
  obtain ⟨m, -, hm, -, -⟩ := updateData_eq_ok_iff.1 hok
  obtain ⟨q, rfl, hupdated⟩ := updated_of_updateData hkeys hm hok
  by_cases hother : other = id
  · subst hother
    rw [hn] at hm
    cases hm
    rw [hpayload] at hupdated
    obtain ⟨e, rfl, he⟩ := hupdated.of_stepGroup
    have hput := node?_putNode hn (.stepGroup e) other
    rw [if_pos rfl] at hput
    exact ⟨e, groupAt?_eq_some_iff.2 ⟨_, hput, rfl⟩, .inl ⟨rfl, he⟩⟩
  · refine ⟨d, groupAt?_eq_some_iff.2 ⟨n, ?_, hpayload⟩, .inr ⟨hother, rfl⟩⟩
    rw [node?_putNode hm, if_neg (Ne.symm hother), hn]

theorem updating (hkeys : (changes.map Prod.fst).Nodup) (g : Graph) (id : String) :
    g.Updating id changes where
  unknown := updateData_of_unknown
  known := by
    intro n hn
    have hid : n.id = id := (node?_eq_some_iff.1 hn).2
    rw [updateData_of_known hn]
    rcases n.withData_cases hkeys with ⟨q, hq, hupdated⟩ | ⟨problems, hne, hrefused, hnone⟩
    · rw [hq]
      exact .inl ⟨_, q, rfl, rfl, nodes_putNode hn q, hupdated⟩
    · rw [hrefused, hid]
      exact .inr ⟨problems, hne, rfl, hnone⟩
  frame := by
    intro n m h hn hok hm entry hentry
    obtain ⟨q, rfl, hupdated⟩ := updated_of_updateData hkeys hn hok
    rw [node?_putNode hn, if_pos rfl] at hm
    cases hm
    exact hupdated.entry_mem hentry
  strangers := by
    intro n hn
    rw [updateData_of_known hn, updateData_of_known hn,
      n.withData_keep changes fun name hname => by simpa using hname]
  emptied := by
    intro d h hd hok hempty
    obtain ⟨e, he, ⟨-, hupdated⟩ | ⟨hne, -⟩⟩ := groupAt?_of_updateData hkeys hd hok
    · rcases hempty with hlabel | hlabel
      · exact ⟨e, he, hupdated.label_of_hollow hlabel rfl⟩
      · exact ⟨e, he, hupdated.label_of_hollow hlabel rfl⟩
    · exact absurd rfl hne

/-! ## Runs of updates -/

/-- The graph after updates that all succeed. -/
def updateAll (g : Graph) (updates : List (String × Fields)) : Except Fault Graph :=
  updates.foldlM (fun g update => g.updateData update.1 update.2) g

theorem updateAll_cons {update : String × Fields} {rest : List (String × Fields)} :
    g.updateAll (update :: rest) = .ok h ↔
      ∃ k, g.updateData update.1 update.2 = .ok k ∧ k.updateAll rest = .ok h :=
  Attempt.foldlM_cons_eq_ok_iff

/-- An update that names no field twice, as none can, nor the label of the node of that
identifier. -/
def Spares (id : String) (update : String × Fields) : Prop :=
  (update.2.map Prod.fst).Nodup ∧ (update.1 = id → update.2.has "label" = false)

/-- A label that goes along with its title as long as they agree, or stays as it is. -/
theorem label_of_spares {update : String × Fields} {d : StepGroup} (hspares : Spares id update)
    (hd : g.groupAt? id = some d) (hok : g.updateData update.1 update.2 = .ok h) :
    ∃ e, h.groupAt? id = some e ∧ (d.label.1 = d.title.text → e.label.1 = e.title.text) ∧
      (d.label.1 ≠ d.title.text → e.label.1 = d.label.1) := by
  obtain ⟨e, he, ⟨hid, hupdated⟩ | ⟨-, rfl⟩⟩ := groupAt?_of_updateData hspares.1 hd hok
  · have hlabel := hupdated.label_of_unnamed (hspares.2 hid)
    refine ⟨e, he, fun heq => ?_, fun hne => ?_⟩
    · rw [hlabel, if_pos heq]
    · rw [hlabel, if_neg hne]
  · exact ⟨e, he, fun heq => heq, fun _ => rfl⟩

/-- Along updates that do not name it, a label that is the title stays so, and another one stays
itself until after some of them the title is the same. -/
theorem label_of_updateAll {updates : List (String × Fields)} {d : StepGroup}
    (hspares : ∀ update ∈ updates, Spares id update) (hd : g.groupAt? id = some d)
    (hok : g.updateAll updates = .ok h) :
    ∃ e, h.groupAt? id = some e ∧ (d.label.1 = d.title.text → e.label.1 = e.title.text) ∧
      (d.label.1 ≠ d.title.text → e.label.1 = d.label.1 ∨
        ∃ front k c, front <+: updates ∧ g.updateAll front = .ok k ∧ k.groupAt? id = some c ∧
          c.label.1 = d.label.1 ∧ c.title.text = d.label.1) := by
  induction updates generalizing g d with
  | nil =>
    cases hok
    exact ⟨d, hd, fun heq => heq, fun _ => .inl rfl⟩
  | cons update rest ih =>
    obtain ⟨hfirst, hrest⟩ := List.forall_mem_cons.1 hspares
    obtain ⟨k, hk, hok⟩ := updateAll_cons.1 hok
    obtain ⟨c, hc, hsame, hother⟩ := label_of_spares hfirst hd hk
    obtain ⟨e, he, hstays, hbecomes⟩ := ih hrest hc hok
    refine ⟨e, he, fun heq => hstays (hsame heq), fun hne => ?_⟩
    have hlabel := hother hne
    -- either the first update makes the two equal, or the rest starts with the label as it was
    by_cases hmet : c.label.1 = c.title.text
    · refine .inr ⟨[update], k, c, ⟨rest, rfl⟩, ?_, hc, hlabel, hmet ▸ hlabel⟩
      exact updateAll_cons.2 ⟨k, hk, rfl⟩
    · rcases hbecomes hmet with hkept | ⟨front, l, b, ⟨back, hback⟩, hl, hb, hblabel, hbtitle⟩
      · exact .inl (hkept.trans hlabel)
      · refine .inr ⟨update :: front, l, b, ⟨back, by rw [List.cons_append, hback]⟩,
          updateAll_cons.2 ⟨k, hk, hl⟩, hb, hblabel.trans hlabel, hbtitle.trans hlabel⟩

theorem updateData_frame (g : Graph) (id : String) :
    (∀ changes : Fields, (changes.map Prod.fst).Nodup → g.Updating id changes) ∧
      ∀ updates h d, (∀ update ∈ updates, Spares id update) → g.groupAt? id = some d →
        g.updateAll updates = .ok h →
        ∃ e, h.groupAt? id = some e ∧ (d.label.1 = d.title.text → e.label.1 = e.title.text) ∧
          (d.label.1 ≠ d.title.text → e.label.1 = d.label.1 ∨
            ∃ front k c, front <+: updates ∧ g.updateAll front = .ok k ∧
              k.groupAt? id = some c ∧ c.label.1 = d.label.1 ∧ c.title.text = d.label.1) :=
  ⟨fun _ hkeys => updating hkeys g id,
    fun _ _ _ hspares hd hok => label_of_updateAll hspares hd hok⟩

/-! ## A title that meets its label -/

/-- One step group, whose label is not its title, with an edge back to itself. -/
def labelledApart : Graph where
  nodes := [⟨"plan", {}, .stepGroup ⟨⟨"Gather", by decide, by decide⟩, .sequential, none, [],
    ⟨"Notes", by decide⟩, none⟩, by decide⟩]
  edges := [.plain "turn" ⟨"plan", none, "plan", none⟩ (by decide)]
  nodes_distinct := by decide
  edges_distinct := by decide
  anchored := by decide

/-- The title first becomes the label, and then takes it along. -/
def retitling : List (String × Fields) :=
  [("plan", [("purpose", .str "first")]), ("plan", [("title", .str "Notes")]),
    ("plan", [("title", .str "Report")])]

theorem updateData_frame_retitling :
    (∃ h e, labelledApart.updateAll retitling = .ok h ∧ h.groupAt? "plan" = some e ∧
        e.label.1 = "Report" ∧ e.title.text = "Report" ∧
        ∃ front k c, front <+: retitling ∧ labelledApart.updateAll front = .ok k ∧
          k.groupAt? "plan" = some c ∧ c.label.1 = "Notes" ∧ c.title.text = "Notes") ∧
      ∃ h e, labelledApart.updateData "plan" [("label", .null)] = .ok h ∧
        h.groupAt? "plan" = some e ∧ e.label.1 = e.title.text := by
  obtain ⟨hone, hall⟩ := updateData_frame labelledApart "plan"
  have hspares : ∀ update ∈ retitling, Spares "plan" update := by
    simp [retitling, Spares, Fields.has, Fields.get?]
  constructor
  · obtain ⟨h, e, hok, he, hlabel, htitle⟩ : ∃ h e, labelledApart.updateAll retitling = .ok h ∧
        h.groupAt? "plan" = some e ∧ e.label.1 = "Report" ∧ e.title.text = "Report" :=
      ⟨_, _, rfl, rfl, rfl, rfl⟩
    obtain ⟨e', he', -, hbecomes⟩ := hall retitling h _ hspares rfl hok
    cases he.symm.trans he'
    refine ⟨h, e, hok, he, hlabel, htitle, (hbecomes (by decide)).resolve_left ?_⟩
    rw [hlabel]
    decide
  · obtain ⟨h, hok⟩ : ∃ h, labelledApart.updateData "plan" [("label", .null)] = .ok h := ⟨_, rfl⟩
    obtain ⟨e, he, heq⟩ := (hone _ (by decide)).emptied _ h rfl hok (.inl rfl)
    exact ⟨h, e, hok, he, heq⟩

end Graph
end WorkflowCanvas
