import Mathlib.Data.List.Perm.Subperm
import WorkflowCanvas.Graph.Difference
import WorkflowCanvas.Graph.Distinct
import WorkflowCanvas.Proofs.Graph.Scan

/-! Comparing rows of items that are told apart by identifiers. Main statements: what came, went and
changed when an item is added at the end, when items are left out, and when one item is put in the
place of another; seen from the other side arrivals and departures are exchanged; and two rows do
not differ exactly when they are of one length and each item of the first has a partner that it
agrees with. -/
namespace WorkflowCanvas
set_option autoImplicit false

/-! ## Rows in order -/

namespace Text

theorem sorted_nil : sorted [] = [] := List.mergeSort_nil

theorem sorted_singleton (s : String) : sorted [s] = [s] := List.mergeSort_singleton s

theorem sorted_eq_nil_iff {texts : List String} : sorted texts = [] ↔ texts = [] := by
  rw [← List.length_eq_zero_iff, sorted, List.length_mergeSort, List.length_eq_zero_iff]

theorem sorted_of_pairwise {texts : List String} (h : texts.Pairwise (· ≤ ·)) :
    sorted texts = texts := List.mergeSort_of_pairwise (h.imp fun hle => decide_eq_true hle)

theorem pairwise_sorted (texts : List String) : (sorted texts).Pairwise (· ≤ ·) := by
  refine (List.pairwise_mergeSort ?_ ?_ texts).imp of_decide_eq_true
  · intro a b c hab hbc
    exact decide_eq_true (String.le_trans (of_decide_eq_true hab) (of_decide_eq_true hbc))
  · intro a b
    rw [Bool.or_eq_true, decide_eq_true_iff, decide_eq_true_iff]
    exact String.le_total a b

/-- Texts that are each listed once are in order the same however they were listed. -/
theorem sorted_congr {these those : List String} (hthese : these.Nodup) (hthose : those.Nodup)
    (h : ∀ s, s ∈ these ↔ s ∈ those) : sorted these = sorted those := by
  have hperm : (sorted these).Perm (sorted those) :=
    (List.mergeSort_perm _ _).trans
      (((List.perm_ext_iff_of_nodup hthese hthose).2 h).trans (List.mergeSort_perm _ _).symm)
  exact hperm.eq_of_pairwise (fun _ _ _ _ => String.le_antisymm) (pairwise_sorted _)
    (pairwise_sorted _)

end Text

/-! ## Comparing rows of items -/

namespace Difference

theorem beyond_eq_sorted {these those want : List String} (hthese : these.Nodup)
    (hwant : want.Nodup) (h : ∀ s, s ∈ want ↔ s ∈ these ∧ s ∉ those) :
    beyond these those = Text.sorted want := by
  refine Text.sorted_congr (hthese.filter _) hwant fun s => ?_
  rw [h]
  simp

theorem beyond_eq_nil_iff {these those : List String} :
    beyond these those = [] ↔ these ⊆ those := by
  rw [beyond, Text.sorted_eq_nil_iff, List.filter_eq_nil_iff]
  simp [List.subset_def]

section Rows
variable {α : Type} (id : α → String) (agree : α → α → Bool)

/-- The identifiers of the items of a row that disagree with those of another. -/
abbrev alteredTo (xs ys : List α) : List String :=
  altered id (fun a => ys.find? fun b => id b == id a) agree xs

variable {id agree} {xs ys : List α} {x : α} {old : String}

theorem mem_alteredTo_iff (hys : (ys.map id).Nodup) {s : String} :
    s ∈ alteredTo id agree xs ys ↔
      ∃ a ∈ xs, ∃ b ∈ ys, id a = s ∧ id b = s ∧ agree a b = false := by
  have hfind : ∀ a b, ys.find? (fun c => id c == id a) = some b ↔ b ∈ ys ∧ id b = id a :=
    fun _ _ => Distinct.find?_eq_some_iff id hys
  simp only [alteredTo, altered, Text.mem_sorted, List.mem_map, List.mem_filter, Option.any_eq_true,
    hfind, Bool.not_eq_true']
  constructor
  · rintro ⟨a, ⟨ha, b, ⟨hb, hid⟩, hne⟩, rfl⟩
    exact ⟨a, ha, b, hb, rfl, hid, hne⟩
  · rintro ⟨a, ha, b, hb, rfl, hid, hne⟩
    exact ⟨a, ⟨ha, b, ⟨hb, hid⟩, hne⟩, rfl⟩

/-- What came, went and changed from one row of items to another, by their identifiers. -/
structure Differ (id : α → String) (agree : α → α → Bool) (xs ys : List α)
    (came went changed : List String) : Prop where
  came : beyond (ys.map id) (xs.map id) = came
  went : beyond (xs.map id) (ys.map id) = went
  changed : alteredTo id agree xs ys = changed

theorem nodup_alteredTo (hxs : (xs.map id).Nodup) : (alteredTo id agree xs ys).Nodup :=
  (List.mergeSort_perm _ _).nodup_iff.2 (Distinct.filter id _ hxs)

/-- Items that are kept or new do not disagree. -/
theorem alteredTo_of_kept (hxs : (xs.map id).Nodup) (hys : (ys.map id).Nodup)
    (hagree : ∀ a, agree a a = true) (hkept : ∀ b ∈ ys, b ∈ xs ∨ id b ∉ xs.map id) :
    alteredTo id agree xs ys = [] := by
  rw [List.eq_nil_iff_forall_not_mem]
  intro s hs
  obtain ⟨a, ha, b, hb, hida, hidb, hne⟩ := (mem_alteredTo_iff hys).1 hs
  rcases hkept b hb with hb | hnew
  · rw [Distinct.eq_of_id_eq id hxs ha hb (hida.trans hidb.symm), hagree] at hne
    cases hne
  · exact hnew (hidb.trans hida.symm ▸ List.mem_map_of_mem ha)

namespace Differ

theorem of_perm (hxs : (xs.map id).Nodup) (hagree : ∀ a, agree a a = true) (h : ys.Perm xs) :
    Differ id agree xs ys [] [] [] where
  came := beyond_eq_nil_iff.2 (h.map id).subset
  went := beyond_eq_nil_iff.2 (h.map id).symm.subset
  changed := alteredTo_of_kept hxs ((h.map id).nodup_iff.2 hxs) hagree
    fun _ hb => .inl (h.subset hb)

theorem symm {came went changed : List String} (hxs : (xs.map id).Nodup)
    (hys : (ys.map id).Nodup) (hagree : ∀ a b, agree a b = agree b a)
    (h : Differ id agree xs ys came went changed) : Differ id agree ys xs went came changed where
  came := h.went
  went := h.came
  changed := by
    have hmem : ∀ s, s ∈ alteredTo id agree ys xs ↔ s ∈ alteredTo id agree xs ys := by
      intro s
      rw [mem_alteredTo_iff hxs, mem_alteredTo_iff hys]
      constructor
      all_goals
        rintro ⟨a, ha, b, hb, hida, hidb, hne⟩
        exact ⟨b, hb, a, ha, hidb, hida, hagree b a ▸ hne⟩
    simp only [alteredTo, altered, Text.mem_sorted] at hmem
    rw [← h.changed]
    exact Text.sorted_congr (Distinct.filter id _ hys) (Distinct.filter id _ hxs) hmem

theorem concat (hxs : (xs.map id).Nodup) (hagree : ∀ a, agree a a = true)
    (hx : id x ∉ xs.map id) : Differ id agree xs (xs ++ [x]) [id x] [] [] where
  came := by
    rw [← Text.sorted_singleton]
    refine beyond_eq_sorted (Distinct.append_one id hxs hx) (List.nodup_singleton _) fun s => ?_
    rw [List.map_append, List.map_singleton, List.mem_append, List.mem_singleton]
    grind
  went := by
    rw [beyond_eq_nil_iff, List.map_append]
    exact List.subset_append_left _ _
  changed := by
    refine alteredTo_of_kept hxs (Distinct.append_one id hxs hx) hagree fun b hb => ?_
    rcases List.mem_append.1 hb with hb | hb
    · exact .inl hb
    · exact .inr (List.mem_singleton.1 hb ▸ hx)

theorem filter (hxs : (xs.map id).Nodup) (hagree : ∀ a, agree a a = true) (test : α → Bool) :
    Differ id agree xs (xs.filter test) []
      (Text.sorted ((xs.filter fun a => !test a).map id)) [] where
  came := beyond_eq_nil_iff.2 (List.map_subset id (List.filter_subset_self xs))
  went := by
    refine beyond_eq_sorted hxs (Distinct.filter id _ hxs) fun s => ?_
    simp only [List.mem_map, List.mem_filter, Bool.not_eq_true']
    constructor
    · rintro ⟨a, ⟨ha, hfails⟩, rfl⟩
      refine ⟨⟨a, ha, rfl⟩, ?_⟩
      rintro ⟨b, ⟨hb, hpasses⟩, hid⟩
      rw [Distinct.eq_of_id_eq id hxs hb ha hid, hfails] at hpasses
      cases hpasses
    · rintro ⟨⟨a, ha, rfl⟩, hgone⟩
      refine ⟨a, ⟨ha, ?_⟩, rfl⟩
      rw [← Bool.not_eq_true]
      exact fun hpasses => hgone ⟨a, ⟨ha, hpasses⟩, rfl⟩
  changed := alteredTo_of_kept hxs (Distinct.filter id _ hxs) hagree
    fun _ hb => .inl (List.mem_filter.1 hb).1

end Differ

theorem mem_put_iff {b : α} : b ∈ Distinct.put id x old xs ↔
    (b = x ∧ old ∈ xs.map id) ∨ (b ∈ xs ∧ id b ≠ old) := by
  simp only [Distinct.put, List.mem_map]
  constructor
  · rintro ⟨a, ha, rfl⟩
    by_cases hid : id a = old
    · exact .inl ⟨by simp [hid], a, ha, hid⟩
    · exact .inr (by simpa [hid] using ha)
  · rintro (⟨rfl, a, ha, hid⟩ | ⟨hb, hid⟩)
    · exact ⟨a, ha, by simp [hid]⟩
    · exact ⟨b, hb, by simp [hid]⟩

theorem eq_nil_or_eq_singleton {texts : List String} {s : String} (h : texts.Nodup)
    (hall : ∀ t ∈ texts, t = s) : texts = [] ∨ texts = [s] := by
  cases texts with
  | nil => exact .inl rfl
  | cons t rest =>
    obtain rfl := hall t List.mem_cons_self
    have hrest : rest = [] := by
      rw [List.eq_nil_iff_forall_not_mem]
      intro r hr
      exact (List.nodup_cons.1 h).1 (hall r (List.mem_cons_of_mem t hr) ▸ hr)
    exact .inr (by rw [hrest])

theorem ids_filter_eq (hxs : (xs.map id).Nodup) (name : String) :
    (xs.filter fun a => id a == name).map id = if name ∈ xs.map id then [name] else [] := by
  have hcomm : (xs.map id).filter (· == name) = (xs.filter fun a => id a == name).map id :=
    List.filter_map
  rw [← hcomm, List.filter_beq, hxs.count]
  split <;> rfl

namespace Differ

/-- An item in the place of one of its identifier may disagree with it. -/
theorem put_same (hxs : (xs.map id).Nodup) (hagree : ∀ a, agree a a = true) (hx : id x = old) :
    ∃ changed, (changed = [] ∨ changed = [old]) ∧
      Differ id agree xs (Distinct.put id x old xs) [] [] changed := by
  have hids : (Distinct.put id x old xs).map id = xs.map id := by
    rw [Distinct.put, List.map_map]
    refine List.map_congr_left fun a _ => ?_
    by_cases hid : id a = old <;> simp [hid, hx]
  have hys := Distinct.put_nodup id hxs (.inl hx)
  refine ⟨_, eq_nil_or_eq_singleton (nodup_alteredTo hxs) fun s hs => ?_, ⟨?_, ?_, rfl⟩⟩
  · obtain ⟨a, ha, b, hb, hida, hidb, hne⟩ := (mem_alteredTo_iff hys).1 hs
    rcases mem_put_iff.1 hb with ⟨rfl, -⟩ | ⟨hb, -⟩
    · exact hidb.symm.trans hx
    · rw [Distinct.eq_of_id_eq id hxs ha hb (hida.trans hidb.symm), hagree] at hne
      cases hne
  · rw [hids, beyond_eq_nil_iff]
    exact List.Subset.refl _
  · rw [hids, beyond_eq_nil_iff]
    exact List.Subset.refl _

theorem put_new (hxs : (xs.map id).Nodup) (hagree : ∀ a, agree a a = true)
    (hold : old ∈ xs.map id) (hx : id x ∉ xs.map id) :
    Differ id agree xs (Distinct.put id x old xs) [id x] [old] [] := by
  have hys : ((Distinct.put id x old xs).map id).Nodup := Distinct.put_nodup id hxs (.inr hx)
  have hids : ∀ s, s ∈ (Distinct.put id x old xs).map id ↔
      s = id x ∨ (s ∈ xs.map id ∧ s ≠ old) := by
    intro s
    simp only [List.mem_map, mem_put_iff]
    constructor
    · rintro ⟨b, ⟨rfl, -⟩ | ⟨hb, hid⟩, rfl⟩
      · exact .inl rfl
      · exact .inr ⟨⟨b, hb, rfl⟩, hid⟩
    · rintro (rfl | ⟨⟨b, hb, rfl⟩, hid⟩)
      · exact ⟨x, .inl ⟨rfl, List.mem_map.1 hold⟩, rfl⟩
      · exact ⟨b, .inr ⟨hb, hid⟩, rfl⟩
  refine ⟨?_, ?_, alteredTo_of_kept hxs hys hagree fun b hb => ?_⟩
  · rw [← Text.sorted_singleton]
    refine beyond_eq_sorted hys (List.nodup_singleton _) fun s => ?_
    rw [hids, List.mem_singleton]
    grind
  · rw [← Text.sorted_singleton]
    refine beyond_eq_sorted hxs (List.nodup_singleton _) fun s => ?_
    rw [hids, List.mem_singleton]
    grind
  · rcases mem_put_iff.1 hb with ⟨rfl, -⟩ | ⟨hb, -⟩
    · exact .inr hx
    · exact .inl hb

end Differ

theorem matched_iff (hys : (ys.map id).Nodup) :
    Graph.matched (fun a => ys.find? fun b => id b == id a) agree xs = true ↔
      ∀ a ∈ xs, ∃ b ∈ ys, id b = id a ∧ agree a b = true := by
  have hfind : ∀ a b, ys.find? (fun c => id c == id a) = some b ↔ b ∈ ys ∧ id b = id a :=
    fun _ _ => Distinct.find?_eq_some_iff id hys
  simp only [Graph.matched, List.all_eq_true, Option.any_eq_true, hfind, and_assoc]

/-- Rows of equal length in which each item has a partner do not differ: neither has one left. -/
theorem differ_nil_iff (hxs : (xs.map id).Nodup) (hys : (ys.map id).Nodup) :
    Differ id agree xs ys [] [] [] ↔ xs.length = ys.length ∧
      Graph.matched (fun a => ys.find? fun b => id b == id a) agree xs = true := by
  have hlength : (xs.map id).length = (ys.map id).length ↔ xs.length = ys.length := by
    rw [List.length_map, List.length_map]
  rw [matched_iff hys, ← hlength]
  constructor
  · intro h
    have hcame := beyond_eq_nil_iff.1 h.came
    have hwent := beyond_eq_nil_iff.1 h.went
    refine ⟨Nat.le_antisymm (List.subperm_of_subset hxs hwent).length_le
      (List.subperm_of_subset hys hcame).length_le, fun a ha => ?_⟩
    obtain ⟨b, hb, hid⟩ := List.mem_map.1 (hwent (List.mem_map_of_mem ha))
    refine ⟨b, hb, hid, eq_true_of_ne_false fun hne => ?_⟩
    have hmem : id a ∈ alteredTo id agree xs ys :=
      (mem_alteredTo_iff hys).2 ⟨a, ha, b, hb, rfl, hid, hne⟩
    rw [h.changed] at hmem
    cases hmem
  · rintro ⟨hlen, hall⟩
    have hsub : xs.map id ⊆ ys.map id := by
      intro s hs
      obtain ⟨a, ha, rfl⟩ := List.mem_map.1 hs
      obtain ⟨b, hb, hid, -⟩ := hall a ha
      exact hid ▸ List.mem_map_of_mem hb
    have hperm := (List.subperm_of_subset hxs hsub).perm_of_length_le (Nat.le_of_eq hlen.symm)
    refine ⟨beyond_eq_nil_iff.2 hperm.symm.subset, beyond_eq_nil_iff.2 hsub, ?_⟩
    rw [List.eq_nil_iff_forall_not_mem]
    intro s hs
    obtain ⟨a, ha, b, hb, hida, hidb, hne⟩ := (mem_alteredTo_iff hys).1 hs
    obtain ⟨c, hc, hid, hsame⟩ := hall a ha
    rw [Distinct.eq_of_id_eq id hys hc hb (hid.trans (hida.trans hidb.symm)), hne] at hsame
    cases hsame

end Rows

end Difference
end WorkflowCanvas
