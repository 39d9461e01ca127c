import WorkflowCanvas.Proofs.Graph.Difference

/-! An edge in the place of another. Main statement: to replace an edge is to remove it and to add
the other edge, in the same cases and with the same faults in all others; only the place of the new
edge differs, which is that of the old one. -/
namespace WorkflowCanvas.Graph
set_option autoImplicit false

variable {g h : Graph} {e : Edge} {id : String} {fault : Fault}

/-! ## Refusals -/

/-- Why an edge cannot be added, where one edge of the graph may be left out of account. -/
def refusal? (g : Graph) (ignored : Option String) (e : Edge) : Option Fault :=
  if some e.id ≠ ignored ∧ e.id ∈ g.edgeIds then some (.integrity (.repeatedEdge e.id))
  else g.misfit? ignored e

theorem addEdge_eq_error_iff : g.addEdge e = .error fault ↔ g.refusal? none e = some fault := by
  unfold addEdge refusal?
  split
  · rename_i hid
    simp [hid]
  · rename_i hid
    rw [if_neg fun h => hid h.2]
    split
    · rename_i other hm
      simp [hm]
    · rename_i hm
      simp [hm]

theorem replaceEdge_eq_error_iff (hid : id ∈ g.edgeIds) :
    g.replaceEdge id e = .error fault ↔ g.refusal? (some id) e = some fault := by
  unfold replaceEdge refusal?
  rw [if_neg (not_not_intro hid)]
  split
  · rename_i htaken
    simp [htaken.1, htaken.2]
  · rename_i hfree
    have hfree' : ¬ (some e.id ≠ some id ∧ e.id ∈ g.edgeIds) := by simpa using hfree
    rw [if_neg hfree']
    split
    · rename_i other hm
      simp [hm]
    · rename_i hm
      simp [hm]

/-! ## The graph without the edge -/

theorem mem_edgeIds_removeEdge {other : String} :
    other ∈ (g.removeEdge id).edgeIds ↔ other ≠ id ∧ other ∈ g.edgeIds := by
  have hedges : (g.removeEdge id).edges = g.edges.filter (·.id != id) := rfl
  simp only [edgeIds, hedges, List.mem_map, List.mem_filter, bne_iff_ne]
  constructor
  · rintro ⟨f, ⟨hf, hne⟩, rfl⟩
    exact ⟨hne, f, hf, rfl⟩
  · rintro ⟨hne, f, hf, rfl⟩
    exact ⟨f, ⟨hf, hne⟩, rfl⟩

/-- The first edge on a handle that is not ignored is the first of those that are left. -/
theorem occupant?_removeEdge (g : Graph) (id : String) (key : HandleKey) :
    (g.removeEdge id).occupant? none key = g.occupant? (some id) key := by
  have hleft : (g.removeEdge id).edges.filter (·.uses key) =
      (g.edges.filter (·.uses key)).filter (·.id != id) := by
    show (g.edges.filter (·.id != id)).filter (·.uses key) = _
    rw [List.filter_comm]
  have hrow : ∀ k : Graph, k.index.usage.row key = (k.edges.filter (·.uses key)).map Edge.id :=
    fun k => k.row_usage key
  rw [occupant?, occupant?, hrow, hrow, hleft, ← List.head?_filter, ← List.head?_filter,
    List.filter_map, List.filter_map, List.filter_filter]
  congr 2

theorem misfit?_removeEdge (g : Graph) (id : String) (e : Edge) :
    (g.removeEdge id).misfit? none e = g.misfit? (some id) e := by
  have hends : (g.removeEdge id).strayEnd? e = g.strayEnd? e := rfl
  simp only [misfit?, takenAt?, hends, occupant?_removeEdge]

theorem refusal?_removeEdge (g : Graph) (id : String) (e : Edge) :
    (g.removeEdge id).refusal? none e = g.refusal? (some id) e := by
  have hids : (some e.id ≠ none ∧ e.id ∈ (g.removeEdge id).edgeIds) ↔
      (some e.id ≠ some id ∧ e.id ∈ g.edgeIds) := by
    simp [mem_edgeIds_removeEdge]
  simp only [refusal?, hids, misfit?_removeEdge]

/-! ## The place of the edge -/

theorem put_of_split {before after : List Edge} {old : Edge}
    (hother : ∀ f ∈ before ++ after, f.id ≠ old.id) (e : Edge) :
    Distinct.put Edge.id e old.id (before ++ old :: after) = before ++ e :: after := by
  have hrest : ∀ fs : List Edge, fs ⊆ before ++ after → Distinct.put Edge.id e old.id fs = fs := by
    intro fs hfs
    refine (List.map_congr_left fun f hf => ?_).trans (List.map_id fs)
    rw [if_neg (by simpa using hother f (hfs hf)), id]
  rw [Distinct.put, List.map_append, List.map_cons, if_pos (beq_self_eq_true old.id)]
  exact congrArg₂ (· ++ e :: ·) (hrest before (List.subset_append_left _ _))
    (hrest after (List.subset_append_right _ _))

theorem replaceEdge_agrees (hid : id ∈ g.edgeIds) (e : Edge) :
    (∃ h k, g.replaceEdge id e = .ok h ∧ (g.removeEdge id).addEdge e = .ok k ∧
      h.same k = true ∧ h.nodes = g.nodes ∧ ∃ before old after,
        g.edges = before ++ old :: after ∧ old.id = id ∧ h.edges = before ++ e :: after) ∨
    ∃ fault, g.replaceEdge id e = .error fault ∧ (g.removeEdge id).addEdge e = .error fault := by
  cases hr : g.replaceEdge id e with
  | error fault =>
    have hrefused := (replaceEdge_eq_error_iff hid).1 hr
    rw [← refusal?_removeEdge] at hrefused
    exact .inr ⟨fault, rfl, addEdge_eq_error_iff.2 hrefused⟩
  | ok h =>
    cases ha : (g.removeEdge id).addEdge e with
    | error fault =>
      have hrefused := addEdge_eq_error_iff.1 ha
      rw [refusal?_removeEdge, ← replaceEdge_eq_error_iff hid, hr] at hrefused
      cases hrefused
    | ok k =>
      obtain ⟨-, -, -, hn, he⟩ := replaceEdge_eq_ok_iff.1 hr
      obtain ⟨-, -, hn', he'⟩ := addEdge_eq_ok_iff.1 ha
      obtain ⟨old, hold, rfl⟩ := List.mem_map.1 hid
      obtain ⟨before, after, heq, hother⟩ := exists_split hold
      rw [heq, put_of_split hother] at he
      rw [edges_removeEdge_of_split heq hother] at he'
      have hperm : k.edges.Perm h.edges := by
        rw [he, he', List.append_assoc]
        exact (List.perm_append_singleton e after).append_left before
      exact .inl ⟨h, k, rfl, rfl, Difference.same_of_perm (hn'.trans hn.symm) hperm, hn,
        before, old, after, heq, rfl, he⟩

/-- An edge under a new name that takes the handle of the old one. -/
def renamed : Edge := .plain "5" ⟨"a", some "out", "b", some "in"⟩ (by decide)

/-- An edge that stays on a handle which it shares with another. -/
def sharing : Edge := { tangled with ends := ⟨"a", none, "c", some "in"⟩ }

theorem replaceEdge_agrees_tangle :
    "3" ∈ tangle.edgeIds ∧
      (∃ h k, tangle.replaceEdge "3" renamed = .ok h ∧
        (tangle.removeEdge "3").addEdge renamed = .ok k ∧ h.same k = true ∧
          h.edgeIds = ["1", "2", "5", "4"] ∧ k.edgeIds = ["1", "2", "4", "5"]) ∧
      tangle.replaceEdge "3" sharing = .error (.handleTaken "a" none .source "2") ∧
        (tangle.removeEdge "3").addEdge sharing = .error (.handleTaken "a" none .source "2") := by
  have hid : "3" ∈ tangle.edgeIds := by decide
  have hfits : tangle.refusal? (some "3") renamed = none := rfl
  have hrefused : tangle.replaceEdge "3" sharing = .error (.handleTaken "a" none .source "2") :=
    (replaceEdge_eq_error_iff hid).2 rfl
  refine ⟨hid, ?_, hrefused, ?_⟩
  · rcases replaceEdge_agrees hid renamed with ⟨h, k, hh, hk, hsame, -⟩ | ⟨fault, hf, -⟩
    · have hedges := (replaceEdge_eq_ok_iff.1 hh).2.2.2.2
      have hedges' := (addEdge_eq_ok_iff.1 hk).2.2.2
      refine ⟨h, k, hh, hk, hsame, ?_, ?_⟩
      · rw [edgeIds, hedges]
        rfl
      · rw [edgeIds, hedges']
        rfl
    · rw [replaceEdge_eq_error_iff hid, hfits] at hf
      cases hf
  · rcases replaceEdge_agrees hid sharing with ⟨h, k, hh, -⟩ | ⟨fault, hf, hf'⟩
    · cases hh.symm.trans hrefused
    · cases hf.symm.trans hrefused
      exact hf'

end WorkflowCanvas.Graph
