import Mathlib.Data.List.Perm.Basic
import WorkflowCanvas.Json.Bisection
import WorkflowCanvas.Proofs.Attempt

/-! Sorting by bisection. Main statements: sorting keeps the items, and does not fail on items of
which any two can be compared. -/
namespace WorkflowCanvas.Bisection
open Attempt
set_option autoImplicit false

variable {α ε : Type} {less : α → α → Except ε Bool} {items : List α} {last a : α}

/-! ## Sorting keeps the items -/

theorem eq_of_rise {p : List α × List α} (h : rise less last items = .ok p) :
    items = p.1 ++ p.2 := by
  induction items generalizing last p with
  | nil => cases h; rfl
  | cons b rest ih =>
    rw [rise, bind_eq_ok_iff] at h
    obtain ⟨falls, -, h⟩ := h
    cases falls with
    | true => cases h; rfl
    | false =>
      obtain ⟨q, hq, h⟩ := bind_eq_ok_iff.1 h
      cases h
      exact congrArg (b :: ·) (ih hq)

theorem eq_of_fall {p : List α × List α} (h : fall less last items = .ok p) :
    items = p.1 ++ p.2 := by
  induction items generalizing last p with
  | nil => cases h; rfl
  | cons b rest ih =>
    rw [fall, bind_eq_ok_iff] at h
    obtain ⟨falls, -, h⟩ := h
    cases falls with
    | false => cases h; rfl
    | true =>
      obtain ⟨q, hq, h⟩ := bind_eq_ok_iff.1 h
      cases h
      exact congrArg (b :: ·) (ih hq)

theorem perm_of_firstRun {p : List α × List α} (h : firstRun less items = .ok p) :
    (p.1 ++ p.2).Perm items := by
  match items with
  | [] => cases h; exact .refl _
  | [a] => cases h; exact .refl _
  | a :: b :: rest =>
    rw [firstRun, bind_eq_ok_iff] at h
    obtain ⟨falls, -, h⟩ := h
    cases falls with
    | false =>
      obtain ⟨q, hq, h⟩ := bind_eq_ok_iff.1 h
      cases h
      exact .of_eq (congrArg (a :: b :: ·) (eq_of_rise hq).symm)
    | true =>
      obtain ⟨q, hq, h⟩ := bind_eq_ok_iff.1 h
      cases h
      rw [eq_of_fall hq]
      have : (q.1.reverse ++ [b, a]).Perm (a :: b :: q.1) := by
        have := List.reverse_perm (a :: b :: q.1)
        simpa using this
      exact this.append_right q.2

theorem perm_of_place {row sorted : List α} (h : place less a row = .ok sorted) :
    sorted.Perm (a :: row) := by
  induction hn : row.length using Nat.strongRecOn generalizing row sorted with
  | ind n ih =>
    have hsplit := List.take_append_drop (row.length / 2) row
    rw [place] at h
    split at h
    · rename_i hdrop
      cases h
      have hrow : row = [] := by
        have := congrArg List.length hdrop
        simp only [List.length_drop, List.length_nil] at this
        exact List.length_eq_zero_iff.1 (by omega)
      rw [hrow]
    · rename_i b after hdrop
      have hlength := congrArg List.length hdrop
      simp only [List.length_drop, List.length_cons] at hlength
      rw [hdrop] at hsplit
      obtain ⟨before, -, h⟩ := bind_eq_ok_iff.1 h
      cases before with
      | true =>
        obtain ⟨q, hq, h⟩ := bind_eq_ok_iff.1 h
        cases h
        have hq := ih _ (by simp only [List.length_take]; omega) hq rfl
        have := hq.append_right (b :: after)
        rwa [List.cons_append, hsplit] at this
      | false =>
        obtain ⟨q, hq, h⟩ := bind_eq_ok_iff.1 h
        cases h
        have hq := ih _ (by omega) hq rfl
        have := ((hq.cons b).append_left (row.take (row.length / 2))).trans
          ((List.Perm.swap a b after).append_left _ |>.trans List.perm_middle)
        rwa [hsplit] at this

theorem perm_of_sort {sorted : List α} (h : sort less items = .ok sorted) :
    sorted.Perm items := by
  obtain ⟨⟨run, others⟩, hrun, h⟩ := bind_eq_ok_iff.1 h
  refine List.Perm.trans ?_ (perm_of_firstRun hrun)
  replace h : others.foldlM (fun row a => place less a row) run = .ok sorted := h
  clear hrun
  induction others generalizing run with
  | nil => cases h; simp
  | cons a rest ih =>
    obtain ⟨row, hrow, h⟩ := foldlM_cons_eq_ok_iff.1 h
    refine (ih row h).trans ?_
    exact ((perm_of_place hrow).append_right rest).trans List.perm_middle.symm

/-! ## Sorting that does not fail -/

/-- Any two items of some kind can be compared. -/
def Compares (less : α → α → Except ε Bool) (kind : α → Prop) : Prop :=
  ∀ a b, kind a → kind b → ∃ answer, less a b = .ok answer

variable {kind : α → Prop}

theorem exists_rise (h : Compares less kind) (hlast : kind last) (hitems : ∀ x ∈ items, kind x) :
    ∃ parts, rise less last items = .ok parts := by
  induction items generalizing last with
  | nil => exact ⟨_, rfl⟩
  | cons b rest ih =>
    have hb := hitems b List.mem_cons_self
    obtain ⟨falls, hfalls⟩ := h b last hb hlast
    obtain ⟨parts, hparts⟩ := ih hb fun x hx => hitems x (List.mem_cons_of_mem b hx)
    cases falls <;> simp [rise, hfalls, hparts, bind, Except.bind, pure, Except.pure]

theorem exists_fall (h : Compares less kind) (hlast : kind last) (hitems : ∀ x ∈ items, kind x) :
    ∃ parts, fall less last items = .ok parts := by
  induction items generalizing last with
  | nil => exact ⟨_, rfl⟩
  | cons b rest ih =>
    have hb := hitems b List.mem_cons_self
    obtain ⟨falls, hfalls⟩ := h b last hb hlast
    obtain ⟨parts, hparts⟩ := ih hb fun x hx => hitems x (List.mem_cons_of_mem b hx)
    cases falls <;> simp [fall, hfalls, hparts, bind, Except.bind, pure, Except.pure]

theorem exists_firstRun (h : Compares less kind) (hitems : ∀ x ∈ items, kind x) :
    ∃ parts, firstRun less items = .ok parts := by
  match items with
  | [] => exact ⟨_, rfl⟩
  | [a] => exact ⟨_, rfl⟩
  | a :: b :: rest =>
    have hb : kind b := hitems b (by simp)
    have hrest : ∀ x ∈ rest, kind x := fun x hx => hitems x (by simp [hx])
    obtain ⟨falls, hfalls⟩ := h b a hb (hitems a (by simp))
    obtain ⟨risen, hrise⟩ := exists_rise h hb hrest
    obtain ⟨fallen, hfall⟩ := exists_fall h hb hrest
    cases falls <;> simp [firstRun, hfalls, hrise, hfall, bind, Except.bind, pure, Except.pure]

theorem exists_place {row : List α} (h : Compares less kind) (ha : kind a)
    (hrow : ∀ x ∈ row, kind x) : ∃ placed, place less a row = .ok placed := by
  -- Either half of the row is shorter, whichever the comparison at the middle picks.
  induction hn : row.length using Nat.strongRecOn generalizing row with
  | ind n ih =>
    rw [place]
    split
    · exact ⟨_, rfl⟩
    · rename_i b after hdrop
      have hlength := congrArg List.length hdrop
      simp only [List.length_drop, List.length_cons] at hlength
      have hafter : ∀ x ∈ b :: after, kind x := fun x hx =>
        hrow x (List.mem_of_mem_drop (hdrop ▸ hx))
      obtain ⟨before, hbefore⟩ := h a b ha (hafter b List.mem_cons_self)
      have htake : (row.take (row.length / 2)).length < n := by
        rw [List.length_take]
        omega
      obtain ⟨left, hleft⟩ := ih _ htake (fun x hx => hrow x (List.mem_of_mem_take hx)) rfl
      obtain ⟨right, hright⟩ := ih _ (by omega)
        (fun x hx => hafter x (List.mem_cons_of_mem b hx)) rfl
      cases before <;> simp [hbefore, hleft, hright, bind, Except.bind, pure, Except.pure]

theorem exists_sort (h : Compares less kind) (hitems : ∀ x ∈ items, kind x) :
    ∃ sorted, sort less items = .ok sorted := by
  obtain ⟨⟨run, others⟩, hfirst⟩ := exists_firstRun h hitems
  have hall : ∀ x ∈ run ++ others, kind x := fun x hx =>
    hitems x ((perm_of_firstRun hfirst).mem_iff.1 hx)
  have hrun : ∀ x ∈ run, kind x := fun x hx => hall x (List.mem_append_left others hx)
  have hothers : ∀ x ∈ others, kind x := fun x hx => hall x (List.mem_append_right run hx)
  rw [sort, hfirst]
  show ∃ sorted, others.foldlM (fun row a => place less a row) run = .ok sorted
  clear hfirst hall
  induction others generalizing run with
  | nil => exact ⟨run, rfl⟩
  | cons a rest ih =>
    have ha := hothers a List.mem_cons_self
    obtain ⟨row, hrow⟩ := exists_place h ha hrun
    have hkind : ∀ x ∈ row, kind x := by
      intro x hx
      rcases List.mem_cons.1 ((perm_of_place hrow).mem_iff.1 hx) with rfl | hx
      · exact ha
      · exact hrun x hx
    obtain ⟨sorted, hsorted⟩ := ih row hkind fun x hx => hothers x (List.mem_cons_of_mem a hx)
    refine ⟨sorted, ?_⟩
    rw [List.foldlM_cons, hrow]
    exact hsorted

end WorkflowCanvas.Bisection
