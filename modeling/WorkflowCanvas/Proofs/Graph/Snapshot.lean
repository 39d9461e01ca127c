import WorkflowCanvas.Graph.Snapshot
import WorkflowCanvas.Proofs.Decode.Written

/-! Graphs that are written and read again. Main statements: each node and each edge reads as what
it was written from; the snapshot of a graph, sound or not, reads as that graph with its nodes and
its edges in their order; and a snapshot of any spelling, once it was read and written, stays as it
is however often that is done again. -/
namespace WorkflowCanvas
set_option autoImplicit false

/-! ## Entries -/

theorem Node.ofJson_toJson (form : Form) (n : Node) : Node.ofJson (n.toJson form) = .accepted n :=
  Node.ofFields_fields form n

/-- Only a missing style is left out, and it reads as none. -/
theorem Edge.ofFields_savedFields (e : Edge) : Edge.ofFields e.savedFields = .accepted e := by
  rw [savedFields]
  split
  · exact Edge.ofFields_fields .keyed e
  · rename_i hstyle
    obtain ⟨id, ⟨source, sourceHandle, target, targetHandle⟩, style, named⟩ := e
    obtain rfl : style = none := by simpa using hstyle
    cases sourceHandle <;> cases targetHandle <;>
      simp [Edge.ofFields, Form.fields, Edge.coreEntries, Entry.plain, Checked.required,
        Checked.optional, Checked.find?, Fields.get?, Json.ofText?, List.lookup_cons, named]

theorem Edge.ofJson_toJson (e : Edge) : Edge.ofJson e.toJson = .accepted e :=
  Edge.ofFields_savedFields e

namespace Graph

theorem entriesOf_map {α : Type} {read : Json → Checked α} {write : α → Json}
    (h : ∀ a, read (write a) = .accepted a) (items : List α) :
    entriesOf read (items.map write) = .ok items := by
  induction items with
  | nil => rfl
  | cons a rest ih =>
    rw [List.map_cons, entriesOf, h]
    show (entriesOf read (rest.map write)).map (a :: ·) = .ok (a :: rest)
    rw [ih]
    rfl

/-! ## Graphs -/

@[simp] theorem orFault_ok {α : Type} (a : α) : orFault (.ok a) = .ok a := rfl

theorem part_of_list {fields : Fields} {name : String} {items : List Json}
    (h : fields.get? name = some (.arr items)) : part fields name = .ok items := by
  rw [part, h]

/-- Parts whose entries can all be read are put together, or refused for what they are as parts. -/
theorem ofSnapshot_of_entries {fields : Fields} {nodeItems edgeItems : List Json}
    {nodes : List Node} {edges : List Edge}
    (hn : fields.get? "nodes" = some (.arr nodeItems))
    (he : fields.get? "edges" = some (.arr edgeItems))
    (hnodes : entriesOf Node.ofJson nodeItems = .ok nodes)
    (hedges : entriesOf Edge.ofJson edgeItems = .ok edges) :
    ofSnapshot fields = orFault (build nodes edges) := by
  rw [ofSnapshot, part_of_list hn, part_of_list he]
  simp only [orFault_ok, bind, Except.bind, hnodes, hedges]

theorem ofSnapshot_of_written {fields : Fields} {nodes : List Node} {edges : List Edge}
    (hn : fields.get? "nodes" = some (.arr (nodes.map (Node.toJson .durable))))
    (he : fields.get? "edges" = some (.arr (edges.map Edge.toJson))) :
    ofSnapshot fields = orFault (build nodes edges) :=
  ofSnapshot_of_entries hn he (entriesOf_map (Node.ofJson_toJson .durable) nodes)
    (entriesOf_map Edge.ofJson_toJson edges)

theorem build_parts (g : Graph) : build g.nodes g.edges = .ok g := build_eq_ok_iff.2 ⟨rfl, rfl⟩

theorem ofSnapshot_snapshot (g : Graph) : ofSnapshot g.snapshot = .ok g := by
  have hread : ofSnapshot g.snapshot = orFault (build g.nodes g.edges) :=
    ofSnapshot_of_written rfl rfl
  rw [hread, build_parts]
  rfl

/-! ## Snapshots that are saved anew -/

/-- A snapshot as it is written once it was read. -/
def resaved (fields : Fields) : Except Failure Fields := (ofSnapshot fields).map snapshot

theorem resaved_eq_ok_iff {fields written : Fields} :
    resaved fields = .ok written ↔ ∃ g, ofSnapshot fields = .ok g ∧ written = g.snapshot := by
  rw [resaved]
  cases ofSnapshot fields with
  | error failure => simp [Except.map]
  | ok g => simp [Except.map, eq_comm]

theorem snapshot_settles :
    (∀ g : Graph, ofSnapshot g.snapshot = .ok g) ∧
      ∀ fields written, resaved fields = .ok written → resaved written = .ok written := by
  refine ⟨ofSnapshot_snapshot, fun fields written h => ?_⟩
  obtain ⟨g, -, rfl⟩ := resaved_eq_ok_iff.1 h
  exact resaved_eq_ok_iff.2 ⟨g, ofSnapshot_snapshot g, rfl⟩

/-! ## A snapshot in the old spelling -/

/-- A step group that is known by its label alone, with two edges on one handle. -/
def oldSpelling : Fields :=
  [("nodes", .arr [.obj [("id", .str "only"), ("type", .str "stepGroup"),
      ("data", .obj [("label", .str "Outline")])]]),
    ("edges", .arr [.obj [("id", .str "back"), ("source", .str "only"), ("target", .str "only")],
      .obj [("id", .str "again"), ("source", .str "only"), ("target", .str "only"),
        ("type", .str "smooth")]])]

/-- The same with everything told. -/
def newSpelling : Graph where
  nodes := [⟨"only", {}, .stepGroup ⟨⟨"Outline", by decide, by decide⟩, .sequential, none, [],
    ⟨"Outline", by decide⟩, none⟩, by decide⟩]
  edges := [.plain "back" ⟨"only", none, "only", none⟩ (by decide),
    ⟨"again", ⟨"only", none, "only", none⟩, some "smooth", by decide⟩]
  nodes_distinct := by decide
  edges_distinct := by decide
  anchored := by decide

theorem ofSnapshot_oldSpelling : ofSnapshot oldSpelling = .ok newSpelling := by
  have hread : ofSnapshot oldSpelling = orFault (build newSpelling.nodes newSpelling.edges) :=
    ofSnapshot_of_entries rfl rfl rfl rfl
  rw [hread, build_parts]
  rfl

theorem snapshot_settles_oldSpelling :
    resaved oldSpelling = .ok newSpelling.snapshot ∧
      resaved newSpelling.snapshot = .ok newSpelling.snapshot := by
  have hold : resaved oldSpelling = .ok newSpelling.snapshot :=
    resaved_eq_ok_iff.2 ⟨_, ofSnapshot_oldSpelling, rfl⟩
  exact ⟨hold, snapshot_settles.2 _ _ hold⟩

end Graph
end WorkflowCanvas
