import Mathlib.Data.List.Perm.Basic
import WorkflowCanvas.Json.Datum
import WorkflowCanvas.Proofs.Json.RoundTrip
import WorkflowCanvas.Proofs.Json.Sorting

/-! Data that spells a document value. Main statement: data that spells a legible object is
written, and what is written is read as that object, but for the order of fields when the fields
were sorted. -/
namespace WorkflowCanvas
set_option autoImplicit false

namespace Json

/-! ## Values that differ in the order of fields alone -/

/-- The same value, but for the order of the fields of its objects. -/
inductive Same : Json → Json → Prop where
  | refl (v : Json) : Same v v
  | arr {items others : List Json} (hitems : List.Forall₂ Same items others) :
    Same (arr items) (arr others)
  | obj {fields reordered others : Fields} (hperm : fields.Perm reordered)
      (hnames : reordered.map Prod.fst = others.map Prod.fst)
      (hvalues : List.Forall₂ Same (reordered.map Prod.snd) (others.map Prod.snd)) :
    Same (obj fields) (obj others)

variable {α : Type} {rows : List α} {name : α → String} {left right : α → Json}

theorem same_arr (h : ∀ row ∈ rows, Same (left row) (right row)) :
    Same (arr (rows.map left)) (arr (rows.map right)) := by
  refine .arr ?_
  rw [List.forall₂_map_left_iff, List.forall₂_map_right_iff, List.forall₂_same]
  exact h

theorem same_obj {fields : Fields} (hperm : fields.Perm (rows.map fun row => (name row, left row)))
    (h : ∀ row ∈ rows, Same (left row) (right row)) :
    Same (obj fields) (obj (rows.map fun row => (name row, right row))) := by
  refine .obj hperm (by simp) ?_
  rw [List.map_map, List.map_map, List.forall₂_map_left_iff, List.forall₂_map_right_iff,
    List.forall₂_same]
  exact h

/-! ## Long numbers -/

theorem itemsHaveLong_eq_false {items : List Json} (h : ∀ item ∈ items, item.hasLong = false) :
    itemsHaveLong items = false := by
  induction items with
  | nil => rfl
  | cons item rest ih =>
    rw [itemsHaveLong, h item List.mem_cons_self,
      ih fun x hx => h x (List.mem_cons_of_mem item hx)]
    rfl

theorem fieldsHaveLong_eq_false {fields : Fields} (h : ∀ field ∈ fields, field.2.hasLong = false) :
    fieldsHaveLong fields = false := by
  induction fields with
  | nil => rfl
  | cons field rest ih =>
    obtain ⟨name, v⟩ := field
    rw [fieldsHaveLong, h (name, v) List.mem_cons_self,
      ih fun x hx => h x (List.mem_cons_of_mem (name, v) hx)]
    rfl

theorem Legible.hasLong {v : Json} (h : Legible v) : v.hasLong = false := by
  induction h with
  | int hlong => exact hlong
  | arr _ ih => exact itemsHaveLong_eq_false ih
  | obj _ _ ih => exact fieldsHaveLong_eq_false ih
  | _ => rfl

/-! ## Sorted values -/

theorem sortedItems_eq_map (items : List Json) : sortedItems items = items.map sorted := by
  induction items with
  | nil => rfl
  | cons item rest ih => rw [sortedItems, ih, List.map_cons]

theorem sortedFields_eq_map (fields : Fields) :
    sortedFields fields = fields.map fun field => (field.1, field.2.sorted) := by
  induction fields with
  | nil => rfl
  | cons field rest ih => rw [sortedFields, ih, List.map_cons]

theorem Legible.obj_of_perm {fields reordered : Fields} (hperm : fields.Perm reordered)
    (h : Legible (.obj reordered)) : Legible (.obj fields) := by
  cases h with
  | obj hnames hfields =>
    exact .obj ((hperm.map Prod.fst).nodup_iff.2 hnames) fun field hfield =>
      hfields field (hperm.mem_iff.1 hfield)

theorem sorted_obj_perm (fields : Fields) : ∃ reordered, (Json.obj fields).sorted = .obj reordered ∧
    reordered.Perm (fields.map fun field => (field.1, field.2.sorted)) := by
  refine ⟨_, rfl, ?_⟩
  rw [sortFields, sortedFields_eq_map]
  exact List.mergeSort_perm _ _

theorem Legible.sorted {v : Json} (h : Legible v) : Legible v.sorted ∧ Same v.sorted v := by
  induction h with
  | @arr items _ ih =>
    rw [Json.sorted, sortedItems_eq_map]
    refine ⟨.arr fun item hitem => ?_, ?_⟩
    · obtain ⟨v, hv, rfl⟩ := List.mem_map.1 hitem
      exact (ih v hv).1
    · have h := same_arr fun v hv => (ih v hv).2
      rwa [List.map_id'] at h
  | @obj fields hnames _ ih =>
    obtain ⟨reordered, heq, hperm⟩ := sorted_obj_perm fields
    rw [heq]
    refine ⟨.obj_of_perm hperm (.obj ?_ ?_), ?_⟩
    · rwa [List.map_map]
    · intro field hfield
      obtain ⟨old, hold, rfl⟩ := List.mem_map.1 hfield
      exact (ih old hold).1
    · have h := same_obj hperm fun field hfield => (ih field hfield).2
      rwa [List.map_id'] at h
  | null => exact ⟨.null, .refl _⟩
  | bool value => exact ⟨.bool value, .refl _⟩
  | int hlong => exact ⟨.int hlong, .refl _⟩
  | float hreads => exact ⟨.float hreads, .refl _⟩
  | str value => exact ⟨.str value, .refl _⟩

end Json

namespace Datum

/-! ## Data of a document value -/

/-- Data that is laid out as a document value: the value, a list of data or a table under texts. -/
inductive Spells : Datum → Json → Prop where
  | plain (v : Json) : Spells (plain v) v
  | list {rows : List (Datum × Json)} (h : ∀ row ∈ rows, Spells row.1 row.2) :
    Spells (list (rows.map Prod.fst)) (.arr (rows.map Prod.snd))
  | table {rows : List (String × Datum × Json)} (h : ∀ row ∈ rows, Spells row.2.1 row.2.2) :
    Spells (table (rows.map fun row => (.text row.1, row.2.1)))
      (.obj (rows.map fun row => (row.1, row.2.2)))

variable {sortKeys : Bool}

theorem settleItems_map {rows : List (Datum × Json)} {written : Datum × Json → Json}
    (h : ∀ row ∈ rows, settle sortKeys row.1 = .ok (written row)) :
    settleItems sortKeys (rows.map Prod.fst) = .ok (rows.map written) := by
  induction rows with
  | nil => rfl
  | cons row rest ih =>
    rw [List.map_cons, settleItems, h row List.mem_cons_self]
    simp only [ih fun x hx => h x (List.mem_cons_of_mem row hx)]
    rfl

theorem settleEntries_eq_map (entries : List (Key × Datum)) :
    settleEntries sortKeys entries =
      entries.map fun entry => (entry.1, settle sortKeys entry.2) := by
  induction entries with
  | nil => rfl
  | cons entry rest ih => rw [settleEntries, ih, List.map_cons]

/-- An entry whose key is a text and whose value is written. -/
def told (field : String × Json) : Key × Except WriteFault Json := (.text field.1, .ok field.2)

theorem nameFields_told (fields : Fields) : nameFields (fields.map told) = .ok fields := by
  induction fields with
  | nil => rfl
  | cons field rest ih =>
    show (nameFields (rest.map told)).map (field :: ·) = .ok (field :: rest)
    rw [ih]
    rfl

theorem exists_arrange {entries : List (Key × Except WriteFault Json)}
    (h : ∀ entry ∈ entries, ∃ s, entry.1 = .text s) :
    ∃ arranged, arrange sortKeys entries = .ok arranged ∧ arranged.Perm entries ∧
      (sortKeys = false → arranged = entries) := by
  cases sortKeys with
  | false => exact ⟨entries, rfl, .refl _, fun _ => rfl⟩
  | true =>
    have hless : Bisection.Compares
        (fun a b : Key × Except WriteFault Json => precedes a.1 b.1)
        (fun entry => ∃ s, entry.1 = .text s) := by
      rintro ⟨-, v⟩ ⟨-, w⟩ ⟨s, rfl⟩ ⟨t, rfl⟩
      exact ⟨_, rfl⟩
    obtain ⟨arranged, harranged⟩ := Bisection.exists_sort hless h
    exact ⟨arranged, harranged, Bisection.perm_of_sort harranged, nofun⟩

theorem exists_settle_table {rows : List (String × Datum × Json)}
    {written : String × Datum × Json → Json}
    (h : ∀ row ∈ rows, settle sortKeys row.2.1 = .ok (written row)) :
    ∃ fields, settle sortKeys (table (rows.map fun row => (.text row.1, row.2.1))) =
        .ok (.obj fields) ∧ fields.Perm (rows.map fun row => (row.1, written row)) ∧
      (sortKeys = false → fields = rows.map fun row => (row.1, written row)) := by
  have hentries : settleEntries sortKeys (rows.map fun row => (Key.text row.1, row.2.1)) =
      (rows.map fun row => (row.1, written row)).map told := by
    rw [settleEntries_eq_map, List.map_map, List.map_map]
    refine List.map_congr_left fun row hrow => ?_
    show (Key.text row.1, settle sortKeys row.2.1) = (Key.text row.1, .ok (written row))
    rw [h row hrow]
  have htexts : ∀ entry ∈ (rows.map fun row => (row.1, written row)).map told,
      ∃ s, entry.1 = .text s := by
    intro entry hentry
    obtain ⟨field, -, rfl⟩ := List.mem_map.1 hentry
    exact ⟨field.1, rfl⟩
  obtain ⟨arranged, harranged, hperm, hkept⟩ := exists_arrange htexts
  -- What the arranged entries tell are the fields in some order.
  obtain ⟨fields, rfl, hfields⟩ : (Relation.Comp (· = List.map told ·) List.Perm) arranged
      (rows.map fun row => (row.1, written row)) := by
    rw [List.eq_map_comp_perm]
    exact hperm
  refine ⟨fields, ?_, hfields, fun hsort => ?_⟩
  · rw [settle, hentries, harranged]
    show (nameFields (fields.map told)).map Json.obj = _
    rw [nameFields_told]
    rfl
  · have hsame := congrArg nameFields (hkept hsort)
    rw [nameFields_told, nameFields_told] at hsame
    exact Except.ok.inj hsame

/-- Data that spells a legible value is written as that value, but for the order of fields when they
are sorted. -/
theorem Spells.settle {d : Datum} {v : Json} (h : d.Spells v) (hv : v.Legible) :
    ∃ w, d.settle sortKeys = .ok w ∧ w.Legible ∧ w.Same v ∧ (sortKeys = false → w = v) := by
  induction h with
  | plain v =>
    rw [Datum.settle, hv.hasLong]
    cases sortKeys with
    | false => exact ⟨v, rfl, hv, .refl v, fun _ => rfl⟩
    | true => exact ⟨v.sorted, rfl, hv.sorted.1, hv.sorted.2, nofun⟩
  | @list rows _ ih =>
    cases hv with
    | arr hitems =>
      have hrows : ∀ row ∈ rows, ∃ w, row.1.settle sortKeys = .ok w ∧ w.Legible ∧ w.Same row.2 ∧
          (sortKeys = false → w = row.2) := fun row hrow =>
        ih row hrow (hitems row.2 (List.mem_map_of_mem hrow))
      choose! written hwritten using hrows
      refine ⟨.arr (rows.map written), ?_, .arr ?_, ?_, ?_⟩
      · rw [Datum.settle, settleItems_map fun row hrow => (hwritten row hrow).1]
        rfl
      · intro w hw
        obtain ⟨row, hrow, rfl⟩ := List.mem_map.1 hw
        exact (hwritten row hrow).2.1
      · exact Json.same_arr fun row hrow => (hwritten row hrow).2.2.1
      · intro hsort
        rw [List.map_congr_left fun row hrow => (hwritten row hrow).2.2.2 hsort]
  | @table rows _ ih =>
    cases hv with
    | obj hnames hfields =>
      have hrows : ∀ row ∈ rows, ∃ w, row.2.1.settle sortKeys = .ok w ∧ w.Legible ∧
          w.Same row.2.2 ∧ (sortKeys = false → w = row.2.2) := fun row hrow =>
        ih row hrow (hfields (row.1, row.2.2) (List.mem_map_of_mem hrow))
      choose! written hwritten using hrows
      obtain ⟨fields, hsettle, hperm, hkept⟩ := exists_settle_table fun row hrow =>
        (hwritten row hrow).1
      refine ⟨.obj fields, hsettle, .obj_of_perm hperm (.obj ?_ ?_), ?_, ?_⟩
      · rw [List.map_map] at hnames ⊢
        exact hnames
      · intro field hfield
        obtain ⟨row, hrow, rfl⟩ := List.mem_map.1 hfield
        exact (hwritten row hrow).2.1
      · exact Json.same_obj hperm fun row hrow => (hwritten row hrow).2.2.1
      · intro hsort
        rw [hkept hsort, List.map_congr_left fun row hrow => by
          rw [(hwritten row hrow).2.2.2 hsort]]

end Datum
end WorkflowCanvas
