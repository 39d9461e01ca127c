import WorkflowCanvas.Proofs.Graph.Reading

/-! Which snapshots are graphs. A part is as it should be when it is absent, null or a list; other
parts are refused, unless they are vacant, such as zero or the empty text, which count as the empty
list. Main statement: a snapshot is accepted exactly when each entry of its parts is read and these
are parts of a graph, which is then made of them in their order; and its parts are as they should be
exactly when none of them is vacant. -/
namespace WorkflowCanvas
set_option autoImplicit false

/-- A value that is neither null nor a list, and holds nothing. -/
inductive Json.Vacant : Json → Prop
  | no : Vacant (.bool false)
  | zero : Vacant (.int 0)
  | zeroFloat {x : Float} (hx : (x == 0.0) = true) : Vacant (.float x)
  | empty : Vacant (.str "")
  | fieldless : Vacant (.obj [])

theorem Json.isHollow_iff {v : Json} : v.isHollow = true ↔ v = .null ∨ v = .arr [] ∨ v.Vacant := by
  constructor
  · intro h
    cases v with
    | null => exact .inl rfl
    | bool b =>
      cases b with
      | false => exact .inr (.inr .no)
      | true => cases h
    | int n =>
      obtain rfl : n = 0 := by simpa [isHollow] using h
      exact .inr (.inr .zero)
    | float x => exact .inr (.inr (.zeroFloat h))
    | str s =>
      obtain rfl : s = "" := by simpa [isHollow] using h
      exact .inr (.inr .empty)
    | arr items =>
      obtain rfl : items = [] := by simpa [isHollow] using h
      exact .inr (.inl rfl)
    | obj fields =>
      obtain rfl : fields = [] := by simpa [isHollow] using h
      exact .inr (.inr .fieldless)
  · rintro (rfl | rfl | hv)
    · rfl
    · rfl
    · cases hv with
      | zeroFloat hx => exact hx
      | _ => rfl

namespace Graph
variable {fields : Fields} {name : String} {items nodeItems edgeItems : List Json}
  {nodes : List Node} {edges : List Edge} {g : Graph}

/-! ## Parts -/

/-- What a part lists that is as it should be. -/
def Lists (fields : Fields) (name : String) (items : List Json) : Prop :=
  fields.get? name = some (.arr items) ∨
    items = [] ∧ (fields.get? name = none ∨ fields.get? name = some .null)

def Vacates (fields : Fields) (name : String) : Prop :=
  ∃ v : Json, fields.get? name = some v ∧ v.Vacant

theorem Lists.not_vacates (h : Lists fields name items) : ¬ Vacates fields name := by
  rintro ⟨v, hv, hvacant⟩
  rcases h with h | ⟨-, h | h⟩
  all_goals
    cases h.symm.trans hv
  all_goals cases hvacant

theorem part_eq_ok_iff : part fields name = .ok items ↔
    Lists fields name items ∨ items = [] ∧ Vacates fields name := by
  constructor
  · intro h
    unfold part at h
    split at h
    · rename_i hnone
      cases h
      exact .inl (.inr ⟨rfl, .inl hnone⟩)
    · rename_i those hsome
      cases h
      exact .inl (.inl hsome)
    · rename_i v hnarr hsome
      split at h
      · rename_i hhollow
        cases h
        rcases Json.isHollow_iff.1 hhollow with rfl | rfl | hvacant
        · exact .inl (.inr ⟨rfl, .inr hsome⟩)
        · exact absurd rfl (hnarr [])
        · exact .inr ⟨rfl, v, hsome, hvacant⟩
      · cases h
  · rintro ((h | ⟨rfl, h | h⟩) | ⟨rfl, v, h, hvacant⟩)
    · rw [part, h]
    · rw [part, h]
    · rw [part, h]
      rfl
    · rw [part, h]
      cases hvacant with
      | zeroFloat hx => exact if_pos hx
      | _ => rfl

/-! ## Entries -/

/-- Entries of which each is read, and which together are parts of a graph. -/
structure Entries (nodeItems edgeItems : List Json) (nodes : List Node) (edges : List Edge) :
    Prop where
  nodes_read : nodeItems.map Node.ofJson = nodes.map .accepted
  edges_read : edgeItems.map Edge.ofJson = edges.map .accepted
  nodes_distinct : (nodes.map Node.id).Nodup
  edges_distinct : (edges.map Edge.id).Nodup
  anchored : ∀ e ∈ edges, e.source ∈ nodes.map Node.id ∧ e.target ∈ nodes.map Node.id

theorem ofSnapshot_of_parts (hn : part fields "nodes" = .ok nodeItems)
    (he : part fields "edges" = .ok edgeItems) : ofSnapshot fields = .ok g ↔
      entriesOf Node.ofJson nodeItems = .ok g.nodes ∧
        entriesOf Edge.ofJson edgeItems = .ok g.edges := by
  rw [ofSnapshot, hn, he]
  simp only [orFault_ok, bind, Except.bind]
  constructor
  · intro h
    cases hnodes : entriesOf Node.ofJson nodeItems with
    | error failure =>
      rw [hnodes] at h
      cases h
    | ok nodes =>
      cases hedges : entriesOf Edge.ofJson edgeItems with
      | error failure =>
        rw [hnodes, hedges] at h
        cases h
      | ok edges =>
        rw [hnodes, hedges] at h
        obtain ⟨rfl, rfl⟩ := build_eq_ok_iff.1 (orFault_eq_ok_iff.1 h)
        exact ⟨rfl, rfl⟩
  · rintro ⟨hnodes, hedges⟩
    rw [hnodes, hedges]
    exact orFault_eq_ok_iff.2 (build_parts g)

theorem exists_parts_of_ofSnapshot (h : ofSnapshot fields = .ok g) : ∃ nodeItems edgeItems,
    part fields "nodes" = .ok nodeItems ∧ part fields "edges" = .ok edgeItems := by
  rw [ofSnapshot] at h
  rcases part_cases fields "nodes" with ⟨items, hitems⟩ | ⟨flaw, hflaw⟩
  · rcases part_cases fields "edges" with ⟨others, hothers⟩ | ⟨flaw, hflaw⟩
    · exact ⟨items, others, hitems, hothers⟩
    · rw [hitems, hflaw] at h
      cases h
  · rw [hflaw] at h
    cases h

theorem entries_of_ofSnapshot (hn : part fields "nodes" = .ok nodeItems)
    (he : part fields "edges" = .ok edgeItems) (h : ofSnapshot fields = .ok g) :
    Entries nodeItems edgeItems g.nodes g.edges := by
  obtain ⟨hnodes, hedges⟩ := (ofSnapshot_of_parts hn he).1 h
  exact ⟨entriesOf_eq_ok_iff.1 hnodes, entriesOf_eq_ok_iff.1 hedges, g.nodes_distinct,
    g.edges_distinct, g.anchored⟩

theorem Entries.exists_graph (h : Entries nodeItems edgeItems nodes edges)
    (hn : part fields "nodes" = .ok nodeItems) (he : part fields "edges" = .ok edgeItems) :
    ∃ g, ofSnapshot fields = .ok g ∧ g.nodes = nodes ∧ g.edges = edges := by
  obtain ⟨g, hg⟩ := exists_build
    (flaw?_eq_none_iff.2 ⟨h.nodes_distinct, h.edges_distinct, h.anchored⟩)
  obtain ⟨rfl, rfl⟩ := build_eq_ok_iff.1 hg
  exact ⟨g, (ofSnapshot_of_parts hn he).2
    ⟨entriesOf_eq_ok_iff.2 h.nodes_read, entriesOf_eq_ok_iff.2 h.edges_read⟩, rfl, rfl⟩

/-! ## Acceptance -/

theorem exists_ofSnapshot_iff : (∃ g, ofSnapshot fields = .ok g ∧ g.nodes = nodes ∧
    g.edges = edges) ↔ ∃ nodeItems edgeItems,
      (Lists fields "nodes" nodeItems ∨ nodeItems = [] ∧ Vacates fields "nodes") ∧
      (Lists fields "edges" edgeItems ∨ edgeItems = [] ∧ Vacates fields "edges") ∧
      Entries nodeItems edgeItems nodes edges := by
  simp only [← part_eq_ok_iff]
  constructor
  · rintro ⟨g, hg, rfl, rfl⟩
    obtain ⟨nodeItems, edgeItems, hn, he⟩ := exists_parts_of_ofSnapshot hg
    exact ⟨nodeItems, edgeItems, hn, he, entries_of_ofSnapshot hn he hg⟩
  · rintro ⟨nodeItems, edgeItems, hn, he, hentries⟩
    exact hentries.exists_graph hn he

/-- Graphs whose parts are as they should be. -/
theorem exists_lists_iff (h : ofSnapshot fields = .ok g) : (∃ nodeItems edgeItems,
    Lists fields "nodes" nodeItems ∧ Lists fields "edges" edgeItems ∧
      Entries nodeItems edgeItems g.nodes g.edges) ↔
      ¬ Vacates fields "nodes" ∧ ¬ Vacates fields "edges" := by
  constructor
  · rintro ⟨nodeItems, edgeItems, hn, he, -⟩
    exact ⟨hn.not_vacates, he.not_vacates⟩
  · rintro ⟨hnodes, hedges⟩
    obtain ⟨nodeItems, edgeItems, hn, he, hentries⟩ := exists_ofSnapshot_iff.1 ⟨g, h, rfl, rfl⟩
    exact ⟨nodeItems, edgeItems, hn.resolve_right fun hv => hnodes hv.2,
      he.resolve_right fun hv => hedges hv.2, hentries⟩

theorem ofSnapshot_listed_iff (fields : Fields) :
    (∀ nodes edges, (∃ g, ofSnapshot fields = .ok g ∧ g.nodes = nodes ∧ g.edges = edges) ↔
      ∃ nodeItems edgeItems,
        (Lists fields "nodes" nodeItems ∨ nodeItems = [] ∧ Vacates fields "nodes") ∧
        (Lists fields "edges" edgeItems ∨ edgeItems = [] ∧ Vacates fields "edges") ∧
        Entries nodeItems edgeItems nodes edges) ∧
      ∀ g, ofSnapshot fields = .ok g → ((∃ nodeItems edgeItems,
        Lists fields "nodes" nodeItems ∧ Lists fields "edges" edgeItems ∧
          Entries nodeItems edgeItems g.nodes g.edges) ↔
          ¬ Vacates fields "nodes" ∧ ¬ Vacates fields "edges") :=
  ⟨fun _ _ => exists_ofSnapshot_iff, fun _ => exists_lists_iff⟩

theorem ofSnapshot_listed_oldSpelling : ofSnapshot oldSpelling = .ok newSpelling ∧
    ∃ nodeItems edgeItems, Lists oldSpelling "nodes" nodeItems ∧
      Lists oldSpelling "edges" edgeItems ∧
        Entries nodeItems edgeItems newSpelling.nodes newSpelling.edges := by
  have hnodes : Lists oldSpelling "nodes" _ := .inl rfl
  have hedges : Lists oldSpelling "edges" _ := .inl rfl
  exact ⟨ofSnapshot_oldSpelling,
    ((ofSnapshot_listed_iff oldSpelling).2 newSpelling ofSnapshot_oldSpelling).2
      ⟨hnodes.not_vacates, hedges.not_vacates⟩⟩

/-- A text that holds nothing where a list should be. -/
theorem ofSnapshot_emptyText :
    ofSnapshot [("nodes", .arr []), ("edges", .str "")] = .ok empty ∧
      ∀ items, ¬ Lists [("nodes", .arr []), ("edges", .str "")] "edges" items := by
  have hnodes : part [("nodes", .arr []), ("edges", .str "")] "nodes" = .ok [] := rfl
  have hedges : part [("nodes", .arr []), ("edges", .str "")] "edges" = .ok [] := rfl
  exact ⟨(ofSnapshot_of_parts hnodes hedges).2 ⟨rfl, rfl⟩,
    fun items h => h.not_vacates ⟨.str "", rfl, .empty⟩⟩

end Graph
end WorkflowCanvas
