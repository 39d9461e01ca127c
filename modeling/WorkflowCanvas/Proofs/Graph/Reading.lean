import WorkflowCanvas.Proofs.Decode.Lookup
import WorkflowCanvas.Proofs.Graph.Snapshot
import WorkflowCanvas.Proofs.Workflow.Rebuilt

/-! Snapshots that are read. Entries are read in their order up to the first that is no record.
Main statements: entries are accepted exactly when each is, and the first that is not decides the
failure; and a snapshot is a graph, or it is told why it is none, or its first bad node has a kind
that cannot be looked up, which is not told as a flaw. -/
namespace WorkflowCanvas.Graph
set_option autoImplicit false

/-! ## Entries -/

section Entries
variable {α : Type} {read : Json → Checked α} {v : Json} {items : List Json} {failure : Failure}

/-- How a list of entries fails on one of them. -/
def entryFailure? : Checked α → Option Failure
  | .accepted _ => none
  | .refused problems => some (.fault (.integrity (.badEntry problems)))
  | .unkeyable kind => some (.unkeyable kind)

theorem entryFailure?_eq_none_iff {x : Checked α} :
    entryFailure? x = none ↔ ∃ a, x = .accepted a := by
  cases x <;> simp [entryFailure?]

theorem entriesOf_of_accepted {a : α} (h : read v = .accepted a) (rest : List Json) :
    entriesOf read (v :: rest) = (entriesOf read rest).map (a :: ·) := by
  rw [entriesOf, h]

theorem entriesOf_of_failure (h : entryFailure? (read v) = some failure) (rest : List Json) :
    entriesOf read (v :: rest) = .error failure := by
  rw [entriesOf]
  cases hv : read v with
  | accepted a =>
    rw [hv] at h
    cases h
  | _ =>
    rw [hv] at h
    cases h
    rfl

theorem entriesOf_eq_ok_iff {as : List α} :
    entriesOf read items = .ok as ↔ items.map read = as.map .accepted := by
  induction items generalizing as with
  | nil => cases as <;> simp [entriesOf]
  | cons v rest ih =>
    cases hv : read v with
    | accepted a =>
      rw [entriesOf_of_accepted hv, List.map_cons, hv]
      constructor
      · intro hok
        cases hrest : entriesOf read rest with
        | error failure => rw [hrest] at hok; cases hok
        | ok those =>
          rw [hrest] at hok
          cases hok
          rw [List.map_cons, ih.1 hrest]
      · intro heq
        obtain ⟨b, those, rfl, hb, hthose⟩ := List.map_eq_cons_iff.1 heq.symm
        cases hb
        rw [ih.2 hthose.symm]
        rfl
    | _ => cases as <;> simp [entriesOf, hv]

/-- The first entry that is no record decides the failure. -/
theorem entriesOf_eq_error_iff :
    entriesOf read items = .error failure ↔ ∃ before v after, items = before ++ v :: after ∧
      (∀ b ∈ before, ∃ a, read b = .accepted a) ∧ entryFailure? (read v) = some failure := by
  induction items with
  | nil => simp [entriesOf]
  | cons v rest ih =>
    cases hv : entryFailure? (read v) with
    | none =>
      obtain ⟨a, ha⟩ := entryFailure?_eq_none_iff.1 hv
      have hcons : entriesOf read (v :: rest) = .error failure ↔
          entriesOf read rest = .error failure := by
        rw [entriesOf_of_accepted ha]
        cases entriesOf read rest <;> simp [Except.map]
      rw [hcons, ih]
      constructor
      · rintro ⟨before, w, after, rfl, haccepted, hw⟩
        exact ⟨v :: before, w, after, rfl, List.forall_mem_cons.2 ⟨⟨a, ha⟩, haccepted⟩, hw⟩
      · rintro ⟨before, w, after, heq, haccepted, hw⟩
        cases before with
        | nil =>
          cases heq
          rw [hv] at hw
          cases hw
        | cons b before =>
          cases heq
          exact ⟨before, w, after, rfl, (List.forall_mem_cons.1 haccepted).2, hw⟩
    | some found =>
      rw [entriesOf_of_failure hv]
      constructor
      · intro heq
        cases heq
        exact ⟨[], v, rest, rfl, by simp, hv⟩
      · rintro ⟨before, w, after, heq, haccepted, hw⟩
        cases before with
        | nil =>
          cases heq
          rw [hv] at hw
          cases hw
          rfl
        | cons b before =>
          cases heq
          rw [entryFailure?_eq_none_iff.2 (List.forall_mem_cons.1 haccepted).1] at hv
          cases hv

end Entries

/-! ## Nodes and edges -/

variable {fields : Fields} {name kind : String} {items : List Json}

/-- The first entry that is no node has a kind that cannot be looked up, of the kind of value that
is named. -/
def OddNode (items : List Json) (kind : String) : Prop :=
  ∃ before v after, items = before ++ v :: after ∧
    (∀ b ∈ before, ∃ n, Node.ofJson b = .accepted n) ∧ Node.OddKind v kind

theorem entryFailure?_eq_unkeyable_iff {α : Type} {x : Checked α} :
    entryFailure? x = some (.unkeyable kind) ↔ x = .unkeyable kind := by
  cases x <;> simp [entryFailure?]

theorem nodes_eq_unkeyable_iff :
    entriesOf Node.ofJson items = .error (.unkeyable kind) ↔ OddNode items kind := by
  simp only [entriesOf_eq_error_iff, entryFailure?_eq_unkeyable_iff, Node.ofJson_eq_unkeyable_iff,
    OddNode]

/-- Entries that are looked up by nothing odd fail only for what is told of them. -/
theorem entriesOf_cases {α : Type} (read : Json → Checked α) (items : List Json) :
    (∃ as, entriesOf read items = .ok as) ∨
      (∃ flaw, entriesOf read items = .error (.fault (.integrity flaw))) ∨
      ∃ v ∈ items, ∃ kind, read v = .unkeyable kind ∧
        entriesOf read items = .error (.unkeyable kind) := by
  cases hread : entriesOf read items with
  | ok as => exact .inl ⟨as, rfl⟩
  | error failure =>
    obtain ⟨before, v, after, rfl, -, hv⟩ := entriesOf_eq_error_iff.1 hread
    cases hentry : read v with
    | accepted a =>
      rw [hentry] at hv
      cases hv
    | refused problems =>
      rw [hentry] at hv
      cases hv
      exact .inr (.inl ⟨_, rfl⟩)
    | unkeyable kind =>
      rw [hentry] at hv
      cases hv
      exact .inr (.inr ⟨v, by simp, kind, hentry, rfl⟩)

theorem edges_cases (items : List Json) : (∃ edges, entriesOf Edge.ofJson items = .ok edges) ∨
    ∃ flaw, entriesOf Edge.ofJson items = .error (.fault (.integrity flaw)) := by
  rcases entriesOf_cases Edge.ofJson items with hok | hflaw | ⟨v, -, kind, hv, -⟩
  · exact .inl hok
  · exact .inr hflaw
  · exact absurd hv (Edge.keyed_ofJson v kind)

/-! ## Snapshots -/

theorem part_cases (fields : Fields) (name : String) :
    (∃ items, part fields name = .ok items) ∨
      ∃ flaw, part fields name = .error (.integrity flaw) := by
  unfold part
  split
  · exact .inl ⟨_, rfl⟩
  · exact .inl ⟨_, rfl⟩
  · split
    · exact .inl ⟨_, rfl⟩
    · exact .inr ⟨_, rfl⟩

/-- A part that is not empty is a list. -/
theorem part_eq_ok_iff_of_ne_nil (h : items ≠ []) :
    part fields name = .ok items ↔ fields.get? name = some (.arr items) := by
  unfold part
  split
  · rename_i hnone
    simp [hnone, h.symm]
  · rename_i those hsome
    simp [hsome]
  · rename_i v hnarr hsome
    split
    · have hne : v ≠ .arr items := hnarr items
      simp [hsome, h.symm, hne]
    · have hne : v ≠ .arr items := hnarr items
      simp [hsome, hne]

theorem OddNode.ne_nil (h : OddNode items kind) : items ≠ [] := by
  obtain ⟨before, v, after, rfl, -⟩ := h
  simp

theorem ofSnapshot_cases (fields : Fields) : (∃ g, ofSnapshot fields = .ok g) ∨
    (∃ flaw, ofSnapshot fields = .error (.fault (.integrity flaw))) ∨
    ∃ kind, ofSnapshot fields = .error (.unkeyable kind) ∧
      ∃ items, fields.get? "nodes" = some (.arr items) ∧ OddNode items kind ∧
        ∃ others, part fields "edges" = .ok others := by
  rw [ofSnapshot]
  -- The parts are looked at before the entries of either.
  rcases part_cases fields "nodes" with ⟨items, hitems⟩ | ⟨flaw, hflaw⟩
  swap
  · exact .inr (.inl ⟨flaw, by rw [hflaw]; rfl⟩)
  rcases part_cases fields "edges" with ⟨others, hothers⟩ | ⟨flaw, hflaw⟩
  swap
  · exact .inr (.inl ⟨flaw, by rw [hitems, hflaw]; rfl⟩)
  simp only [hitems, hothers, orFault_ok, bind, Except.bind]
  rcases entriesOf_cases Node.ofJson items with
    ⟨nodes, hnodes⟩ | ⟨flaw, hflaw⟩ | ⟨v, -, kind, -, hkind⟩
  · rcases edges_cases others with ⟨edges, hedges⟩ | ⟨flaw, hflaw⟩
    · rcases build_cases nodes edges with ⟨g, hg⟩ | ⟨flaw, -, hflaw⟩
      · exact .inl ⟨g, by simp only [hnodes, hedges, hg, orFault_ok]⟩
      · exact .inr (.inl ⟨flaw, by simp only [hnodes, hedges, hflaw]; rfl⟩)
    · exact .inr (.inl ⟨flaw, by simp only [hnodes, hflaw]⟩)
  · exact .inr (.inl ⟨flaw, by simp only [hflaw]⟩)
  · have hodd := nodes_eq_unkeyable_iff.1 hkind
    exact .inr (.inr ⟨kind, by simp only [hkind], items,
      (part_eq_ok_iff_of_ne_nil hodd.ne_nil).1 hitems, hodd, others, rfl⟩)

theorem ofSnapshot_eq_unkeyable_iff : ofSnapshot fields = .error (.unkeyable kind) ↔
    ∃ items, fields.get? "nodes" = some (.arr items) ∧ OddNode items kind ∧
      ∃ others, part fields "edges" = .ok others := by
  constructor
  · intro h
    rcases ofSnapshot_cases fields with ⟨g, hg⟩ | ⟨flaw, hflaw⟩ | ⟨other, hother, hodd⟩
    · cases h.symm.trans hg
    · cases h.symm.trans hflaw
    · cases h.symm.trans hother
      exact hodd
  · rintro ⟨items, hitems, hodd, others, hothers⟩
    have hpart := (part_eq_ok_iff_of_ne_nil hodd.ne_nil).2 hitems
    have hnodes := nodes_eq_unkeyable_iff.2 hodd
    simp only [ofSnapshot, hpart, hothers, orFault_ok, bind, Except.bind, hnodes]

end WorkflowCanvas.Graph
