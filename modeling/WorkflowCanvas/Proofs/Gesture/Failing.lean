import WorkflowCanvas.Proofs.Gesture.Settled

/-! Gestures that fail. A gesture clears the handles before it lays its edge there, so that nothing
it does to the graph can be refused for an end, for a handle or for an edge that is not there. Main
statement: moving an edge never fails; connecting fails in one case alone, where a new edge is due
and the identifier given for it is already that of an edge; and a signal fails only where it is not
part of a drag and connecting fails. -/
namespace WorkflowCanvas.Graph
set_option autoImplicit false

variable {s : ConnectionSettings} {g : Graph} {e : Edge} {ends : Ends} {fresh : Identifier}
  {d : Drop}

/-! ## Moving -/

/-- Moving an edge leaves the graph alone, or it moves an edge of the graph. -/
theorem cases_of_reconnect (s : ConnectionSettings) (g : Graph) (edge : Option String) (d : Drop) :
    g.reconnect s edge d = .ok g ∨
      ∃ e ∈ g.edges, ∃ ends h, g.reconnect s edge d = .ok h ∧ h.edges = g.edgesMoving e ends := by
  by_cases hd : d.Meant s g
  · obtain ⟨ends, rfl, ha⟩ := hd
    cases hf : edge.bind g.edge? with
    | none => exact .inl (reconnect_of_unknown hf)
    | some e =>
      obtain ⟨id, rfl, hid⟩ := Option.bind_eq_some_iff.1 hf
      obtain ⟨he, rfl⟩ := edge?_eq_some_iff.1 hid
      obtain ⟨h, hok, -, hedges⟩ := reconnect_eq ha he
      exact .inr ⟨e, he, ends, h, hok, hedges⟩
  · exact .inl (reconnect_of_not_meant hd edge)

theorem exists_reconnect (s : ConnectionSettings) (g : Graph) (edge : Option String) (d : Drop) :
    ∃ h, g.reconnect s edge d = .ok h := by
  rcases cases_of_reconnect s g edge d with hok | ⟨_, _, _, h, hok, -⟩
  · exact ⟨g, hok⟩
  · exact ⟨h, hok⟩

/-- A moved edge keeps its identifier, so that no identifier is new. -/
theorem edgeIds_reconnect_subset {edge : Option String} {h : Graph}
    (hok : g.reconnect s edge d = .ok h) : h.edgeIds ⊆ g.edgeIds := by
  rcases cases_of_reconnect s g edge d with hsame | ⟨e, he, ends, k, hmoved, hedges⟩
  · cases hok.symm.trans hsame
    exact List.Subset.refl _
  · cases hok.symm.trans hmoved
    intro id hid
    rw [edgeIds, hedges, edgesMoving, List.mem_map] at hid
    obtain ⟨f, hf, rfl⟩ := hid
    obtain ⟨k, hk, hkf⟩ := List.mem_filterMap.1 hf
    split at hkf
    · cases hkf
      show e.id ∈ g.edgeIds
      exact List.mem_map_of_mem he
    · split at hkf
      · cases hkf
      · cases hkf
        exact List.mem_map_of_mem hk

/-! ## Connecting -/

theorem survivor?_eq_none_iff_free : g.survivor? ends = none ↔
    ∀ f ∈ g.edges, f.sourceKey ≠ ends.sourceKey ∧ f.targetKey ≠ ends.targetKey := by
  rw [survivor?_eq_none_iff]
  refine forall₂_congr fun f _ => ?_
  rw [← Bool.not_eq_true, Edge.meets_iff, not_or]

theorem exists_connect_of_survivor (fresh : Identifier) (ha : ends.Allowed s g)
    (he : g.survivor? ends = some e) : ∃ h, g.connect s fresh ends.drop = .ok h := by
  have hd : ends.drop.ends s g = .ok ends := Drop.ends_eq_ok_iff.2 ⟨rfl, ha⟩
  obtain ⟨manner, hm, hr⟩ := resolveConnect_of_survivor fresh hd he
  obtain ⟨h, hok, -⟩ := apply_plan_of_mem hm (mem_of_survivor? he) ha
  refine ⟨h, ?_⟩
  rw [connect, hr]
  exact hok

theorem connect_of_no_survivor (fresh : Identifier) (ha : ends.Allowed s g)
    (he : g.survivor? ends = none) :
    g.connect s fresh ends.drop = g.addEdge (.plain fresh.1 ends fresh.2) := by
  have hd : ends.drop.ends s g = .ok ends := Drop.ends_eq_ok_iff.2 ⟨rfl, ha⟩
  rw [connect, resolveConnect_of_free hd he]
  exact apply_plan_of_free fresh (survivor?_eq_none_iff.1 he)

theorem addEdge_of_taken (h : e.id ∈ g.edgeIds) :
    g.addEdge e = .error (.integrity (.repeatedEdge e.id)) := by
  rw [addEdge, dif_pos h]

theorem exists_connect_of_fresh (ha : ends.Allowed s g) (hf : fresh.1 ∉ g.edgeIds) :
    ∃ h, g.connect s fresh ends.drop = .ok h := by
  obtain ⟨⟨h, hok, -⟩, -⟩ := connect_eq ha hf
  exact ⟨h, hok⟩

/-- The one collision: a new edge is due between free handles, and its identifier is taken. -/
def Collides (s : ConnectionSettings) (fresh : Identifier) (g : Graph) (d : Drop) : Prop :=
  fresh.1 ∈ g.edgeIds ∧ ∃ ends, d = Ends.drop ends ∧ ends.Allowed s g ∧
    ∀ f ∈ g.edges, f.sourceKey ≠ ends.sourceKey ∧ f.targetKey ≠ ends.targetKey

theorem connect_of_collides (h : g.Collides s fresh d) :
    g.connect s fresh d = .error (.integrity (.repeatedEdge fresh.1)) := by
  obtain ⟨hid, ends, rfl, ha, hfree⟩ := h
  rw [connect_of_no_survivor fresh ha (survivor?_eq_none_iff_free.2 hfree)]
  exact addEdge_of_taken (e := .plain fresh.1 ends fresh.2) hid

theorem exists_connect_of_not_collides (h : ¬ g.Collides s fresh d) :
    ∃ k, g.connect s fresh d = .ok k := by
  by_cases hd : d.Meant s g
  · obtain ⟨ends, rfl, ha⟩ := hd
    by_cases hf : fresh.1 ∈ g.edgeIds
    · cases he : g.survivor? ends with
      | some e => exact exists_connect_of_survivor fresh ha he
      | none => exact absurd ⟨hf, ends, rfl, ha, survivor?_eq_none_iff_free.1 he⟩ h
    · exact exists_connect_of_fresh ha hf
  · exact ⟨g, (connect_of_not_meant hd).1⟩

theorem connect_eq_error_iff {fault : Fault} : g.connect s fresh d = .error fault ↔
    g.Collides s fresh d ∧ fault = .integrity (.repeatedEdge fresh.1) := by
  by_cases h : g.Collides s fresh d
  · rw [connect_of_collides h]
    simp [h, eq_comm]
  · obtain ⟨k, hok⟩ := exists_connect_of_not_collides h
    simp [hok, h]

/-! ## All gestures -/

theorem signal_eq_error_iff {gesture : Gesture} {fault : Fault} :
    (g.resolveSignal s fresh gesture d).apply g = .error fault ↔
      gesture.isReconnecting = false ∧ g.connect s fresh d = .error fault := by
  cases hg : gesture.isReconnecting with
  | false =>
    simp only [resolveSignal, hg, Bool.false_eq_true, if_false, true_and]
    rfl
  | true =>
    simp only [resolveSignal, hg, if_true, Bool.true_eq_false, false_and, iff_false]
    cases gesture.edge with
    | none => exact fun h => nomatch h
    | some edge =>
      obtain ⟨h, hok⟩ := exists_reconnect s g (some edge) d
      intro herror
      cases hok.symm.trans herror

theorem gesture_fails_iff (s : ConnectionSettings) (fresh : Identifier) (g : Graph) (d : Drop) :
    (∀ edge, ∃ h, g.reconnect s edge d = .ok h) ∧
      (∀ fault, g.connect s fresh d = .error fault ↔
        g.Collides s fresh d ∧ fault = .integrity (.repeatedEdge fresh.1)) ∧
      ∀ gesture fault, (g.resolveSignal s fresh gesture d).apply g = .error fault ↔
        gesture.isReconnecting = false ∧ g.connect s fresh d = .error fault :=
  ⟨fun edge => exists_reconnect s g edge d, fun _ => connect_eq_error_iff,
    fun _ _ => signal_eq_error_iff⟩

/-! ## Handles that were shared before -/

/-- Even where every handle is free, an identifier that is taken is refused; on a handle that two
edges share it is not asked for. -/
theorem gesture_fails_tangle :
    (tangle.Collides {} ⟨"1", by decide⟩ (Ends.drop ⟨"a", some "x", "c", some "y"⟩) ∧
      tangle.connect {} ⟨"1", by decide⟩ (Ends.drop ⟨"a", some "x", "c", some "y"⟩) =
        .error (.integrity (.repeatedEdge "1"))) ∧
    ¬ tangle.Collides {} ⟨"1", by decide⟩ (Ends.drop ⟨"a", none, "c", some "y"⟩) ∧
      ∀ fault, tangle.connect {} ⟨"1", by decide⟩ (Ends.drop ⟨"a", none, "c", some "y"⟩) ≠
        .error fault := by
  have hcollides : tangle.Collides {} ⟨"1", by decide⟩
      (Ends.drop ⟨"a", some "x", "c", some "y"⟩) :=
    ⟨by decide, _, rfl, ⟨by decide, by decide, by decide⟩, by decide⟩
  have hshared : ¬ tangle.Collides {} ⟨"1", by decide⟩
      (Ends.drop ⟨"a", none, "c", some "y"⟩) := by
    rintro ⟨-, ⟨_, _, _, _⟩, hd, -, hfree⟩
    cases hd
    exact absurd hfree (by decide)
  refine ⟨⟨hcollides, ?_⟩, hshared, fun fault hfault => ?_⟩
  · exact ((gesture_fails_iff {} ⟨"1", by decide⟩ tangle _).2.1 _).2 ⟨hcollides, rfl⟩
  · exact hshared (((gesture_fails_iff {} ⟨"1", by decide⟩ tangle _).2.1 fault).1 hfault).1

end WorkflowCanvas.Graph
