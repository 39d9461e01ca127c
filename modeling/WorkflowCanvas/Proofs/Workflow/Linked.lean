import WorkflowCanvas.Graph.Chain
import WorkflowCanvas.Proofs.Workflow.Line

/-! Edges from each node of a row to the next. They are named for their ends, joined by hyphens,
and identifiers may hold hyphens themselves. Main statement: the edges of a row without repetitions
are told apart by their names exactly when no name can be cut at two places into neighbours. -/
namespace WorkflowCanvas.Chain
set_option autoImplicit false

variable {a b c d : String} {ids : List String}

/-! ## Ends -/

theorem links_eq (ids : List String) :
    links ids = (neighbours ids).map fun p => link p.1 p.2 := by
  fun_induction neighbours ids with
  | case1 => rfl
  | case2 a => rfl
  | case3 a b rest ih => rw [links, ih, List.map_cons]

theorem ends_links (ids : List String) :
    (links ids).map (fun e => (e.source, e.target)) = neighbours ids := by
  rw [links_eq, List.map_map]
  exact List.map_id _

theorem anchored_links {e : Edge} (he : e ∈ links ids) : e.source ∈ ids ∧ e.target ∈ ids := by
  have hp : (e.source, e.target) ∈ neighbours ids := ends_links ids ▸ List.mem_map_of_mem he
  exact mem_of_mem_neighbours hp

/-! ## Names -/

theorem toList_edgeId (source target : String) :
    (edgeId source target).toList = 'e' :: '-' :: (source.toList ++ '-' :: target.toList) := by
  simp [edgeId]

/-- Two neighbours and two others whose edges have one name. -/
def Ambiguous (ids : List String) : Prop :=
  ∃ a m d, (a, m ++ "-" ++ d) ∈ neighbours ids ∧ (a ++ "-" ++ m, d) ∈ neighbours ids

theorem eq_or_exists_between {rest : List Char} (hc : c.toList = a.toList ++ rest)
    (hb : '-' :: b.toList = rest ++ '-' :: d.toList) :
    a = c ∧ b = d ∨ ∃ m, c = a ++ "-" ++ m ∧ b = m ++ "-" ++ d := by
  -- The rest is empty, or it starts with the hyphen of the shorter source.
  rcases List.cons_eq_append_iff.1 hb with ⟨rfl, hd⟩ | ⟨chars, rfl, hchars⟩
  · rw [List.append_nil] at hc
    rw [List.cons.injEq] at hd
    exact .inl ⟨String.toList_injective hc.symm, String.toList_injective hd.2.symm⟩
  · refine .inr ⟨String.ofList chars, String.toList_injective ?_, String.toList_injective ?_⟩
    · simpa using hc
    · simpa using hchars

theorem edgeId_eq_iff : edgeId a b = edgeId c d ↔ a = c ∧ b = d ∨
    (∃ m, c = a ++ "-" ++ m ∧ b = m ++ "-" ++ d) ∨ ∃ m, a = c ++ "-" ++ m ∧ d = m ++ "-" ++ b := by
  constructor
  · intro h
    have hchars := congrArg String.toList h
    simp only [toList_edgeId, List.cons.injEq, true_and] at hchars
    -- Of the two sources one is the front of the other.
    rcases List.append_eq_append_iff.1 hchars with ⟨rest, hc, hb⟩ | ⟨rest, ha, hd⟩
    · rcases eq_or_exists_between hc hb with heq | hm
      · exact .inl heq
      · exact .inr (.inl hm)
    · rcases eq_or_exists_between ha hd with ⟨rfl, rfl⟩ | hm
      · exact .inl ⟨rfl, rfl⟩
      · exact .inr (.inr hm)
  · rintro (⟨rfl, rfl⟩ | ⟨m, rfl, rfl⟩ | ⟨m, rfl, rfl⟩)
    · rfl
    · simp [edgeId, String.append_assoc]
    · simp [edgeId, String.append_assoc]

theorem not_ambiguous_of_plain (h : ∀ id ∈ ids, '-' ∉ id.toList) : ¬ Ambiguous ids := by
  rintro ⟨a, m, d, -, hcut⟩
  exact h _ (mem_of_mem_neighbours hcut).1 (by simp)

theorem nodup_links_iff (h : ids.Nodup) : ((links ids).map Edge.id).Nodup ↔ ¬ Ambiguous ids := by
  have hnames : (links ids).map Edge.id = (neighbours ids).map fun p => edgeId p.1 p.2 := by
    rw [links_eq, List.map_map]
    rfl
  rw [hnames]
  constructor
  · rintro hnodup ⟨a, m, d, hlong, hshort⟩
    have heq := List.inj_on_of_nodup_map hnodup hlong hshort
      (edgeId_eq_iff.2 (.inr (.inl ⟨m, rfl, rfl⟩)))
    have hsource : a = a ++ "-" ++ m := congrArg Prod.fst heq
    have hlength := congrArg String.length hsource
    rw [String.length_append, String.length_append] at hlength
    have hhyphen : "-".length = 1 := rfl
    omega
  · intro hplain
    refine List.Nodup.map_on ?_ (nodup_neighbours h)
    rintro ⟨a, b⟩ hab ⟨c, d⟩ hcd heq
    have hcut := edgeId_eq_iff.1 heq
    dsimp only at hcut
    rcases hcut with ⟨rfl, rfl⟩ | ⟨m, rfl, rfl⟩ | ⟨m, rfl, rfl⟩
    · rfl
    · exact absurd ⟨a, m, d, hab, hcd⟩ hplain
    · exact absurd ⟨c, m, b, hcd, hab⟩ hplain

end WorkflowCanvas.Chain
