/-! Lists whose items have distinct identifiers. Main statements: they stay distinct when a new
item is added at the end, when items are left out, when items change without their identifiers,
and when one item is put in the place of another. -/
namespace WorkflowCanvas.Distinct
set_option autoImplicit false

variable {α : Type} (id : α → String)

theorem append_one {xs : List α} {x : α} (h : (xs.map id).Nodup) (hx : id x ∉ xs.map id) :
    ((xs ++ [x]).map id).Nodup := by
  rw [List.map_append, List.nodup_append]
  refine ⟨h, by simp, ?_⟩
  intro a ha b hb
  simp only [List.map_cons, List.map_nil, List.mem_singleton] at hb
  rintro rfl
  exact hx (hb ▸ ha)

theorem filter {xs : List α} (p : α → Bool) (h : (xs.map id).Nodup) :
    ((xs.filter p).map id).Nodup := h.sublist (List.filter_sublist.map id)

theorem map_same {xs : List α} {f : α → α} (h : (xs.map id).Nodup) (hf : ∀ x, id (f x) = id x) :
    ((xs.map f).map id).Nodup := by
  have : id ∘ f = id := funext hf
  rwa [List.map_map, this]

/-- Replaces every item of an identifier. -/
def put (x : α) (old : String) (xs : List α) : List α :=
  xs.map fun y => if id y == old then x else y

theorem put_nodup {xs : List α} {x : α} {old : String} (h : (xs.map id).Nodup)
    (hx : id x = old ∨ id x ∉ xs.map id) : ((put id x old xs).map id).Nodup := by
  induction xs with
  | nil => simp [put]
  | cons y rest ih =>
    simp only [List.map_cons, List.nodup_cons] at h
    have hrest : id x = old ∨ id x ∉ rest.map id := by
      rcases hx with hx | hx
      · exact .inl hx
      · exact .inr fun hm => hx (List.mem_cons_of_mem _ hm)
    have ih := ih h.2 hrest
    have kept : ∀ z ∈ (put id x old rest).map id, z ∈ rest.map id ∨ z = id x := by
      intro z hz
      simp only [put, List.mem_map] at hz ⊢
      grind
    simp only [put, List.map_cons, List.nodup_cons] at ih ⊢
    refine ⟨?_, ih⟩
    by_cases hy : id y = old
    · subst hy
      simp only [beq_self_eq_true, if_true]
      intro hm
      have same : put id x (id y) rest = rest := by
        refine (List.map_congr_left fun z hz => ?_).trans (List.map_id _)
        have : id z ≠ id y := fun he => h.1 (he ▸ List.mem_map_of_mem hz)
        simp [this]
      rw [show List.map (fun z => if (id z == id y) = true then x else z) rest = rest from same]
        at hm
      rcases hx with hx | hx
      · exact h.1 (hx ▸ hm)
      · exact hx (by simp [hm])
    · rw [if_neg (by simpa using hy)]
      intro hm
      rcases kept _ hm with hm | hm
      · exact h.1 hm
      · rcases hx with hx | hx
        · exact hy (hm.trans hx)
        · exact hx (by simp [hm])

end WorkflowCanvas.Distinct
