import WorkflowCanvas.Proofs.Storage.Shelf
import WorkflowCanvas.Workflow.Metadata

/-! Whether documents under different names are kept apart. Main statement: saving and deleting
under one name of a workflow leaves what is loaded under another alone, and nothing is found under
the other, exactly when the two names have different keys. Different names may have one key. -/
namespace WorkflowCanvas
set_option autoImplicit false

/-! ## Names that are not too long -/

theorem utf8Len_le (cs : List Char) : String.utf8Len cs ≤ 4 * cs.length := by
  induction cs with
  | nil => exact Nat.le_refl _
  | cons c rest ih =>
    have hc := c.utf8Size_le_four
    rw [String.utf8Len_cons, List.length_cons]
    omega

namespace FileStorage
variable {s : FileStorage} {v : Volume} {a b : WorkflowName}

theorem fits_workflowName (n : WorkflowName) : Fits n.text := by
  have hname := utf8Len_le (keyOf n.text).toList
  have hshort := n.fits
  have hending : ".json".utf8ByteSize = 5 := rfl
  rw [toList_keyOf, List.length_map, String.length_toList] at hname
  rw [Fits, String.utf8ByteSize_append, keyOf, String.utf8ByteSize_ofList, hending,
    Volume.nameLimit]
  omega

theorem workflowName_ne_empty (n : WorkflowName) : n.text ≠ "" := by
  intro hempty
  have hblank := n.notBlank
  rw [hempty] at hblank
  exact absurd hblank (by decide)

/-! ## Calls under one name -/

/-- The name that a call is under. -/
def Call.name? : Call → Option String
  | save name _ | load name | delete name => some name
  | list => none

variable {shelf : String → Option Datum} {call : Call} {calls : List Call} {name key : String}

theorem keep_save_of_other (document : Datum) (hkey : key ≠ keyOf name) :
    keep shelf (.save name document) key = shelf key := by
  cases hrender : document.render {} with
  | error why => rw [keep_save_of_fault hrender]
  | ok text =>
    by_cases hfits : Fits name
    · rw [keep_save hrender hfits, Function.update_of_ne hkey]
    · rw [keep_save_of_long hrender hfits]

theorem keep_of_other (hname : call.name? = some name) (hkey : key ≠ keyOf name) :
    keep shelf call key = shelf key := by
  cases call with
  | save other document =>
    obtain rfl := Option.some.inj hname
    exact keep_save_of_other document hkey
  | delete other =>
    obtain rfl := Option.some.inj hname
    rw [keep_delete, Function.update_of_ne hkey]
  | load other => rfl
  | list => rfl

theorem keep_eq_none (h : shelf key = none)
    (hsaves : ∀ name document, call = .save name document → key ≠ keyOf name) :
    keep shelf call key = none := by
  cases call with
  | save name document => rw [keep_save_of_other document (hsaves name document rfl), h]
  | delete name =>
    by_cases hkey : key = keyOf name
    · rw [keep_delete, hkey, Function.update_self]
    · rw [keep_delete, Function.update_of_ne hkey, h]
  | load name => exact h
  | list => exact h

theorem kept_eq_none (hsaves : ∀ name document, .save name document ∈ calls → key ≠ keyOf name) :
    kept calls key = none := by
  suffices hall : ∀ shelf : String → Option Datum, shelf key = none →
      calls.foldl keep shelf key = none from hall _ rfl
  induction calls with
  | nil => exact fun _ h => h
  | cons call calls ih =>
    intro shelf h
    refine ih (fun name document hmem => hsaves name document (List.mem_cons_of_mem call hmem)) _ ?_
    refine keep_eq_none h fun name document hcall => hsaves name document ?_
    rw [hcall]
    exact List.mem_cons_self

theorem kept_concat (calls : List Call) (call : Call) :
    kept (calls ++ [call]) = keep (kept calls) call := by
  rw [kept, List.foldl_append]
  rfl

theorem run_concat (calls : List Call) (call : Call) :
    s.run v (calls ++ [call]) = s.after (s.run v calls) call := by
  rw [run, List.foldl_append]
  rfl

/-! ## Names that are kept apart -/

/-- Documents under a name `b` are kept apart from those under a name `a`: whatever the calls
before, a call under `a` leaves what is loaded under `b` alone; and nothing is found under `b` while
documents were saved under `a` alone. -/
structure KeptApart (s : FileStorage) (v : Volume) (a b : WorkflowName) : Prop where
  unchanged : ∀ calls, (∀ call ∈ calls, call.Sound) → ∀ call, call.Sound →
    call.name? = some a.text →
      s.load (s.after (s.run v calls) call) b.text = s.load (s.run v calls) b.text
  unknown : ∀ calls, (∀ call ∈ calls, call.Sound) →
    (∀ name document, .save name document ∈ calls → name = a.text) →
      s.load (s.run v calls) b.text =
        .error (.fault (.workflowUnknown b.text (some (s.pathFor b.text).text)))

variable (hending : s.ending = ".json") (hdirectory : v.hasDirectory s.directory = .ok true)
  (hempty : v.namesIn s.directory = [])

include hending hdirectory hempty

theorem keptApart_of_ne (hkey : keyOf b.text ≠ keyOf a.text) : KeptApart s v a b where
  unchanged calls hcalls call hcall hname := by
    have hboth : ∀ other ∈ calls ++ [call], other.Sound :=
      List.forall_mem_append.2 ⟨hcalls, List.forall_mem_singleton.2 hcall⟩
    obtain ⟨place, h⟩ := holds_of_calls hending hdirectory hempty hcalls
    obtain ⟨there, h'⟩ := holds_of_calls hending hdirectory hempty hboth
    rw [run_concat, kept_concat] at h'
    exact h'.load_congr h (fits_workflowName b) (keep_of_other hname hkey)
  unknown calls hcalls hsaves := by
    obtain ⟨place, h⟩ := holds_of_calls hending hdirectory hempty hcalls
    refine h.load_of_absent (fits_workflowName b) (kept_eq_none fun name document hmem => ?_)
    rwa [hsaves name document hmem]

/-- A document that was saved under one name of a key is found under every other. -/
theorem not_keptApart_of_eq (hkey : keyOf b.text = keyOf a.text) : ¬ KeptApart s v a b := by
  intro hapart
  have hcalls : ∀ call ∈ [Call.save a.text sampleDocument], call.Sound :=
    List.forall_mem_singleton.2 ⟨workflowName_ne_empty a, sampleDocument_roundTrips⟩
  have htext : sampleDocument.render {} = .ok _ := rfl
  have hkept : kept [.save a.text sampleDocument] (keyOf b.text) = some sampleDocument := by
    rw [kept, List.foldl_cons, List.foldl_nil, keep_save htext (fits_workflowName a), hkey,
      Function.update_self]
  obtain ⟨place, h⟩ := holds_of_calls hending hdirectory hempty hcalls
  obtain ⟨fields, hload, -⟩ := h.load_of_kept (fits_workflowName b) hkept
  have hunknown := hapart.unknown _ hcalls fun name document hmem => by
    cases List.mem_singleton.1 hmem
    rfl
  cases hload.symm.trans hunknown

theorem keptApart_iff : KeptApart s v a b ↔ keyOf b.text ≠ keyOf a.text :=
  ⟨fun h hkey => not_keptApart_of_eq hending hdirectory hempty hkey h,
    keptApart_of_ne hending hdirectory hempty⟩

omit hending hdirectory hempty

/-! ## A blank and a hyphen -/

def spaced : WorkflowName := ⟨"a b", by decide, by decide, by decide⟩

def hyphened : WorkflowName := ⟨"a-b", by decide, by decide, by decide⟩

def joined : WorkflowName := ⟨"ab", by decide, by decide, by decide⟩

theorem keptApart_joined :
    (here.ending = ".json" ∧ ({} : Volume).hasDirectory here.directory = .ok true ∧
      ({} : Volume).namesIn here.directory = []) ∧ KeptApart here {} spaced joined :=
  ⟨⟨rfl, rfl, rfl⟩, (keptApart_iff rfl rfl rfl).2 (by decide)⟩

/-- Not all different names are kept apart: a document that was saved under one is found under
another. -/
theorem not_keptApart_hyphened :
    ¬ ∀ (s : FileStorage) (v : Volume) (a b : WorkflowName), s.ending = ".json" →
      v.hasDirectory s.directory = .ok true → v.namesIn s.directory = [] → a ≠ b →
        KeptApart s v a b := by
  intro hall
  have hapart := hall here {} spaced hyphened rfl rfl rfl (by decide)
  exact not_keptApart_of_eq rfl rfl rfl (by decide) hapart

end FileStorage
end WorkflowCanvas
