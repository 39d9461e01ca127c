import WorkflowCanvas.Proofs.Graph.Reading
import WorkflowCanvas.Workflow.Archive

/-! Documents that are loaded, whatever value they are. Main statement: a document is loaded, or
refused with what is wrong with it, exactly when it is not its first bad node, with nothing wrong
before, that tells its kind by a list or an object; for such a document the look-up itself fails. -/
namespace WorkflowCanvas.Archive
set_option autoImplicit false

variable {layout : Layout} {fields : Fields} {kind : String}

/-! ## Before the graph -/

theorem fieldsOf_cases (v : Json) : (∃ fields, v = .obj fields ∧ fieldsOf v = .ok fields) ∨
    ∃ violations, fieldsOf v = .error (.fault (.badDocument violations)) := by
  cases v with
  | obj fields => exact .inl ⟨fields, rfl, rfl⟩
  | _ => exact .inr ⟨_, rfl⟩

theorem definitionOf_cases (fields : Fields) :
    (∃ d, Definition.ofFields fields = .accepted d ∧ definitionOf fields = .ok d) ∨
      ∃ violations, definitionOf fields = .error (.fault (.badDocument violations)) := by
  rw [definitionOf]
  rcases (Definition.keyed_ofFields fields).cases with ⟨d, hd⟩ | ⟨problems, hproblems⟩
  · exact .inl ⟨d, hd, by rw [hd]⟩
  · exact .inr ⟨_, by rw [hproblems]⟩

/-- The fields of a document that its definition is read from. -/
def definitionFields (fields : Fields) : Fields := fields.keep fun name => !isGraphPart name

/-- Whether a document carries a graph of its own. -/
def carriesGraph (fields : Fields) : Bool := carries fields "nodes" && carries fields "edges"

/-- What loading comes to once the definition is read. -/
theorem loadFields_of_definition {d : Definition} (hlacks : lacks fields = [])
    (hd : definitionOf (definitionFields fields) = .ok d) :
    loadFields layout fields =
      if carriesGraph fields then
        ((Graph.ofSnapshot fields).mapError asDocumentFault).map fun g => ⟨d, g, false⟩
      else (Graph.orFault (Rebuild.graph layout d.steps)).map fun g => ⟨d, g, true⟩ := by
  have hread : definitionOf (fields.keep fun name => !isGraphPart name) = .ok d := hd
  have hboth : (carries fields "nodes" && carries fields "edges") = carriesGraph fields := rfl
  simp only [loadFields, hlacks, hread, hboth, bind, Except.bind]
  cases carriesGraph fields with
  | true => cases (Graph.ofSnapshot fields).mapError asDocumentFault <;> rfl
  | false => cases Graph.orFault (Rebuild.graph layout d.steps) <;> rfl

theorem loadFields_of_lacks (h : lacks fields ≠ []) :
    loadFields layout fields = .error (.fault (.badDocument (lacks fields))) := by
  rw [loadFields]
  split
  · rename_i hnil
    exact absurd hnil h
  · rfl

theorem loadFields_of_refused {failure : Failure} (hlacks : lacks fields = [])
    (hd : definitionOf (definitionFields fields) = .error failure) :
    loadFields layout fields = .error failure := by
  have hread : definitionOf (fields.keep fun name => !isGraphPart name) = .error failure := hd
  simp only [loadFields, hlacks, hread, bind, Except.bind]

/-! ## A node of an odd kind -/

/-- A document with nothing wrong but in its nodes, the first bad one of which tells its kind by a
list or an object, as the word says. -/
structure OddDocument (fields : Fields) (kind : String) : Prop where
  lacks : lacks fields = []
  definition : ∃ d, Definition.ofFields (definitionFields fields) = .accepted d
  nodes : ∃ items, fields.get? "nodes" = some (.arr items) ∧ Graph.OddNode items kind
  edges : carries fields "edges" = true ∧ ∃ items, Graph.part fields "edges" = .ok items

theorem loadFields_of_odd (h : OddDocument fields kind) :
    loadFields layout fields = .error (.unkeyable kind) := by
  obtain ⟨d, hd⟩ := h.definition
  obtain ⟨items, hitems, hodd⟩ := h.nodes
  have hread : definitionOf (definitionFields fields) = .ok d := by rw [definitionOf, hd]
  have hgraph : carriesGraph fields = true := by
    rw [carriesGraph, h.edges.1, carries, hitems, Bool.and_true]
  have hsnapshot : Graph.ofSnapshot fields = .error (.unkeyable kind) :=
    Graph.ofSnapshot_eq_unkeyable_iff.2 ⟨items, hitems, hodd, h.edges.2⟩
  rw [loadFields_of_definition h.lacks hread, hgraph, hsnapshot]
  rfl

theorem loadFields_cases (layout : Layout) (fields : Fields) :
    (∃ l, loadFields layout fields = .ok l) ∨
      (∃ violations, loadFields layout fields = .error (.fault (.badDocument violations))) ∨
      ∃ kind, OddDocument fields kind := by
  by_cases hlacks : lacks fields = []
  swap
  · exact .inr (.inl ⟨_, loadFields_of_lacks hlacks⟩)
  rcases definitionOf_cases (definitionFields fields) with ⟨d, hd, hread⟩ | ⟨violations, hrefused⟩
  swap
  · exact .inr (.inl ⟨violations, loadFields_of_refused hlacks hrefused⟩)
  rw [loadFields_of_definition hlacks hread]
  cases hgraph : carriesGraph fields with
  | false =>
    obtain ⟨g, hg, -⟩ := Rebuild.exists_graph layout d.steps
    exact .inl ⟨_, by rw [if_neg (by simp), hg]; rfl⟩
  | true =>
    rw [if_pos rfl]
    rcases Graph.ofSnapshot_cases fields with
      ⟨g, hg⟩ | ⟨flaw, hflaw⟩ | ⟨kind, -, items, hitems, hodd, hedges⟩
    · exact .inl ⟨_, by rw [hg]; rfl⟩
    · exact .inr (.inl ⟨_, by rw [hflaw]; rfl⟩)
    · rw [carriesGraph, Bool.and_eq_true] at hgraph
      exact .inr (.inr ⟨kind, hlacks, ⟨d, hd⟩, ⟨items, hitems, hodd⟩, hgraph.2, hedges⟩)

theorem loadFields_eq_unkeyable_iff :
    loadFields layout fields = .error (.unkeyable kind) ↔ OddDocument fields kind := by
  constructor
  · intro h
    rcases loadFields_cases layout fields with ⟨l, hl⟩ | ⟨violations, hrefused⟩ | ⟨other, hodd⟩
    · cases hl.symm.trans h
    · cases hrefused.symm.trans h
    · cases (loadFields_of_odd hodd).symm.trans h
      exact hodd
  · exact loadFields_of_odd

/-! ## All documents -/

theorem load_of_fields (fields : Fields) : load layout (.obj fields) = loadFields layout fields :=
  rfl

theorem load_eq_unkeyable_iff {v : Json} : load layout v = .error (.unkeyable kind) ↔
    ∃ fields, v = .obj fields ∧ OddDocument fields kind := by
  rcases fieldsOf_cases v with ⟨fields, rfl, -⟩ | ⟨violations, hrefused⟩
  · rw [load_of_fields, loadFields_eq_unkeyable_iff]
    constructor
    · exact fun h => ⟨fields, rfl, h⟩
    · rintro ⟨_, heq, h⟩
      cases heq
      exact h
  · constructor
    · intro h
      rw [load, hrefused] at h
      cases h
    · rintro ⟨fields, rfl, -⟩
      cases hrefused

theorem load_cases (layout : Layout) (v : Json) :
    ((∃ l, load layout v = .ok l) ∨
      ∃ violations, load layout v = .error (.fault (.badDocument violations))) ∨
    ∃ kind, load layout v = .error (.unkeyable kind) := by
  rcases fieldsOf_cases v with ⟨fields, rfl, -⟩ | ⟨violations, hrefused⟩
  · rw [load_of_fields]
    rcases loadFields_cases layout fields with hok | hrefused | ⟨kind, hodd⟩
    · exact .inl (.inl hok)
    · exact .inl (.inr hrefused)
    · exact .inr ⟨kind, loadFields_of_odd hodd⟩
  · exact .inl (.inr ⟨violations, by rw [load, hrefused]; rfl⟩)

theorem load_told_iff (layout : Layout) (v : Json) :
    (((∃ l, load layout v = .ok l) ∨
        ∃ violations, load layout v = .error (.fault (.badDocument violations))) ↔
      ¬ ∃ fields kind, v = .obj fields ∧ OddDocument fields kind) ∧
    ∀ kind, load layout v = .error (.unkeyable kind) ↔
      ∃ fields, v = .obj fields ∧ OddDocument fields kind := by
  refine ⟨⟨?_, ?_⟩, fun kind => load_eq_unkeyable_iff⟩
  · rintro htold ⟨fields, kind, rfl, hodd⟩
    have hfails : load layout (.obj fields) = .error (.unkeyable kind) := loadFields_of_odd hodd
    rcases htold with ⟨l, hl⟩ | ⟨violations, hrefused⟩
    · cases hfails.symm.trans hl
    · cases hfails.symm.trans hrefused
  · intro hnone
    rcases load_cases layout v with htold | ⟨kind, hkind⟩
    · exact htold
    · obtain ⟨fields, hv, hodd⟩ := load_eq_unkeyable_iff.1 hkind
      exact absurd ⟨fields, kind, hv, hodd⟩ hnone

/-! ## A kind that is a list -/

/-- A document with nothing odd but the kind of its one node, which is an empty list. -/
def listKind : Fields :=
  [("workflowName", .str "review"), ("workflowSteps", .arr []),
    ("nodes", .arr [.obj [("id", .str "a"), ("type", .arr []), ("data", .obj [])]]),
    ("edges", .arr [])]

theorem odd_listKind : OddDocument listKind "list" where
  lacks := rfl
  definition := ⟨_, rfl⟩
  nodes := ⟨_, rfl, [], _, [], rfl, by simp, _, rfl, rfl, rfl⟩
  edges := ⟨rfl, _, rfl⟩

/-- Such a document is neither loaded nor refused for what is wrong with it. -/
theorem load_listKind : ¬ ∀ v, (∃ l, load {} v = .ok l) ∨
    ∃ violations, load {} v = .error (.fault (.badDocument violations)) := by
  intro hall
  have hodd : load {} (.obj listKind) = .error (.unkeyable "list") :=
    load_eq_unkeyable_iff.2 ⟨listKind, rfl, odd_listKind⟩
  rcases hall (.obj listKind) with ⟨l, hl⟩ | ⟨violations, hrefused⟩
  · cases hodd.symm.trans hl
  · cases hodd.symm.trans hrefused

end WorkflowCanvas.Archive
