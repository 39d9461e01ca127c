import Mathlib.Data.List.Nodup
import Mathlib.Data.String.Basic
import Mathlib.Logic.Function.Basic
import WorkflowCanvas.Proofs.Json.Spelled
import WorkflowCanvas.Proofs.Storage.Contents
import WorkflowCanvas.Proofs.Storage.Naming

/-! A directory of documents as a shelf. Main statement: after any calls on an empty directory, it
behaves like a map from keys to documents, in which saving sets and deleting clears the key of a
name: loading, deleting, saving and listing answer what the map says. What a call does to the map is
said once, and what one call preserves is carried along the calls. -/
namespace WorkflowCanvas
set_option autoImplicit false

/-- The text of data, if it has one, is read as an object that the data spells. -/
def Datum.RoundTrips (d : Datum) : Prop :=
  ∀ text, d.render {} = .ok text →
    ∃ fields, Json.readObject text = .ok fields ∧ d.Spells (.obj fields)

theorem Datum.roundTrips_of_legible {d : Datum} {fields : Fields} (h : d.Spells (.obj fields))
    (hlegible : Json.Legible (.obj fields)) : d.RoundTrips := by
  intro text htext
  obtain ⟨w, hsettle, -, -, hkept⟩ := h.settle hlegible
  obtain rfl := hkept rfl
  rw [render, hsettle] at htext
  cases htext
  exact ⟨fields, Json.readObject_write hlegible _, h⟩

namespace FileStorage

/-! ## Calls -/

/-- A call on a directory of documents. -/
inductive Call where
  | save (name : String) (document : Datum)
  | load (name : String)
  | delete (name : String)
  | list

/-- A call under a name that is not empty, with a document whose text is read back. -/
def Call.Sound : Call → Prop
  | save name document => name ≠ "" ∧ document.RoundTrips
  | load name | delete name => name ≠ ""
  | list => True

/-- The volume behind an attempt to delete. -/
def remaining (v : Volume) : Except Failure (Bool × Volume) → Volume
  | .ok (_, w) => w
  | .error _ => v

/-- The volume after a call. -/
def after (s : FileStorage) (v : Volume) : Call → Volume
  | .save name document => (s.save v name document).2
  | .delete name => remaining v (s.delete v name)
  | .load _ | .list => v

/-- The volume after calls. -/
def run (s : FileStorage) (v : Volume) (calls : List Call) : Volume := calls.foldl s.after v

/-- The documents under their keys after a call. A document that is not written, or under a name
too long for a file, is not kept. -/
def keep (shelf : String → Option Datum) : Call → String → Option Datum
  | .save name document =>
    match document.render {} with
    | .ok _ => if Fits name then Function.update shelf (keyOf name) (some document) else shelf
    | .error _ => shelf
  | .delete name => Function.update shelf (keyOf name) none
  | .load _ | .list => shelf

/-- The documents under their keys after calls: what was saved last under a key and not deleted
since. -/
def kept (calls : List Call) : String → Option Datum := calls.foldl keep fun _ => none

variable {s : FileStorage} {v w : Volume} {place : List String} {shelf : String → Option Datum}
  {name key text : String} {document : Datum} {calls : List Call} {call : Call}

theorem after_save {saved : Except Failure String} (h : s.save v name document = (saved, w)) :
    s.after v (.save name document) = w :=
  congrArg Prod.snd h

theorem after_delete {found : Bool} (h : s.delete v name = .ok (found, w)) :
    s.after v (.delete name) = w := by
  show remaining v (s.delete v name) = w
  rw [h]
  rfl

theorem after_delete_of_error {why : Failure} (h : s.delete v name = .error why) :
    s.after v (.delete name) = v := by
  show remaining v (s.delete v name) = v
  rw [h]
  rfl

theorem keep_save (htext : document.render {} = .ok text) (hfits : Fits name) :
    keep shelf (.save name document) = Function.update shelf (keyOf name) (some document) := by
  simp only [keep, htext, if_pos hfits]

theorem keep_save_of_long (htext : document.render {} = .ok text) (hlong : ¬ Fits name) :
    keep shelf (.save name document) = shelf := by
  simp only [keep, htext, if_neg hlong]

theorem keep_save_of_fault {why : Datum.WriteFault} (h : document.render {} = .error why) :
    keep shelf (.save name document) = shelf := by
  simp only [keep, h]

theorem keep_load (shelf : String → Option Datum) (name : String) :
    keep shelf (.load name) = shelf := rfl

theorem keep_delete (shelf : String → Option Datum) (name : String) :
    keep shelf (.delete name) = Function.update shelf (keyOf name) none := rfl

theorem keep_list (shelf : String → Option Datum) : keep shelf .list = shelf := rfl

/-! ## What a directory holds -/

/-- What a file holds for a document: a text of it that is read back; there is no file for none. -/
def Stored : Option Datum → Option Item → Prop
  | none, item => item = none
  | some d, item => ∃ text fields, d.render {} = .ok text ∧ Json.readObject text = .ok fields ∧
      d.Spells (.obj fields) ∧ item = some (.file (Text.Utf8.encode text.toList))

/-- The key of some name that is not empty and not too long. -/
structure IsKey (key : String) : Prop where
  ne_empty : key ≠ ""
  fits : Fits key
  own : keyOf key = key

theorem IsKey.of_name {name : String} (hempty : name ≠ "") (hfits : Fits name) :
    IsKey (keyOf name) :=
  ⟨keyOf_ne_empty hempty, fits_keyOf.2 hfits, keyOf_keyOf name⟩

/-- The directory of a storage, at a place of a volume, holds the documents of a shelf. -/
structure Holds (s : FileStorage) (v : Volume) (place : List String)
    (shelf : String → Option Datum) : Prop where
  ending : s.ending = ".json"
  isAt : v.IsAt s.directory place
  stored : ∀ key, Stored (shelf key) (v.item? (place ++ [key ++ ".json"]))
  keys : ∀ key, (shelf key).isSome → IsKey key
  ended : ∀ x, (v.item? (place ++ [x])).isSome → ∃ key, x = key ++ ".json"
  distinct : (v.namesIn s.directory).Nodup

theorem Stored.isSome {document : Option Datum} {item : Option Item} (h : Stored document item) :
    item.isSome = document.isSome := by
  cases document with
  | none => rw [show item = none from h]; rfl
  | some d =>
    obtain ⟨text, fields, -, -, -, rfl⟩ := h
    rfl

theorem Stored.ne_directory {document : Option Datum} {item : Option Item}
    (h : Stored document item) : item ≠ some .directory := by
  rintro rfl
  cases document with
  | none => cases h
  | some d =>
    obtain ⟨text, fields, -, -, -, hfile⟩ := h
    cases hfile

namespace Holds

theorem nothing (hending : s.ending = ".json") (hat : v.IsAt s.directory place)
    (hempty : v.namesIn s.directory = []) : Holds s v place fun _ => none := by
  have hnone : ∀ x, v.item? (place ++ [x]) = none := by
    intro x
    have hx : ¬ x ∈ v.namesIn s.directory := by simp [hempty]
    rw [hat.mem_namesIn_iff] at hx
    simpa using hx
  refine ⟨hending, hat, fun key => hnone _, fun key hkey => by simp at hkey, fun x hx => ?_, ?_⟩
  · simp [hnone x] at hx
  · simp [hempty]

theorem has?_pathFor (h : Holds s v place shelf) (hfits : Fits name) :
    v.has? (s.pathFor name) = .ok (shelf (keyOf name)).isSome := by
  rw [pathFor_eq h.ending, h.isAt.has?_below hfits.takes, (h.stored _).isSome]

theorem find_pathFor_long (h : Holds s v place shelf) (hlong : ¬ Fits name) :
    v.find (s.pathFor name) = .error .nameTooLong := by
  rw [pathFor_eq h.ending]
  exact h.isAt.find_below_long (ne_of_short _ (by decide)) (Nat.lt_of_not_le hlong)

/-! ## Loading -/

theorem load_of_absent (h : Holds s v place shelf) (hfits : Fits name)
    (hnone : shelf (keyOf name) = none) :
    s.load v name = .error (.fault (.workflowUnknown name (some (s.pathFor name).text))) := by
  have hhas := h.has?_pathFor hfits
  rw [hnone] at hhas
  unfold load
  simp only [hhas]
  rfl

theorem load_of_text (h : Holds s v place shelf) (hfits : Fits name)
    (hsome : shelf (keyOf name) = some document) :
    ∃ text fields, document.render {} = .ok text ∧ Json.readObject text = .ok fields ∧
      document.Spells (.obj fields) ∧ s.load v name = .ok fields := by
  have hhas := h.has?_pathFor hfits
  have hstored := h.stored (keyOf name)
  rw [hsome] at hhas hstored
  obtain ⟨text, fields, htext, hread, hspells, hfile⟩ := hstored
  have hcontent := h.isAt.read_below hfits.takes hfile
  rw [← pathFor_eq h.ending] at hcontent
  refine ⟨text, fields, htext, hread, hspells, ?_⟩
  rw [load_of_read hhas hcontent, documentOf_render htext, hread]
  rfl

theorem load_of_kept (h : Holds s v place shelf) (hfits : Fits name)
    (hsome : shelf (keyOf name) = some document) :
    ∃ fields, s.load v name = .ok fields ∧ document.Spells (.obj fields) := by
  obtain ⟨-, fields, -, -, hspells, hload⟩ := h.load_of_text hfits hsome
  exact ⟨fields, hload, hspells⟩

/-- What is loaded depends on the document under the key alone. -/
theorem load_congr {elsewhere : List String} {others : String → Option Datum}
    (h : Holds s v place shelf) (h' : Holds s w elsewhere others) (hfits : Fits name)
    (hsame : shelf (keyOf name) = others (keyOf name)) : s.load v name = s.load w name := by
  cases hshelf : shelf (keyOf name) with
  | none =>
    rw [h.load_of_absent hfits hshelf, h'.load_of_absent hfits (hsame ▸ hshelf)]
  | some document =>
    obtain ⟨text, fields, htext, hread, -, hload⟩ := h.load_of_text hfits hshelf
    obtain ⟨text', fields', htext', hread', -, hload'⟩ := h'.load_of_text hfits (hsame ▸ hshelf)
    obtain rfl := Except.ok.inj (htext.symm.trans htext')
    obtain rfl := Except.ok.inj (hread.symm.trans hread')
    rw [hload, hload']

/-! ## Saving -/

theorem save_of_fault {why : Datum.WriteFault} (h : document.render {} = .error why)
    (s : FileStorage) (v : Volume) (name : String) : s.save v name document =
      (.error (.fault (.storage s!"Failed to save workflow '{name}': {why.message}"
        (some (s.pathFor name).text))), v) := by
  unfold save
  simp only [h]

theorem save_of_text (h : Holds s v place shelf) (hfits : Fits name)
    (htext : document.render {} = .ok text) : s.save v name document =
      (.ok (s.pathFor name).text, v.put (place ++ [keyOf name ++ ".json"])
        (.file (Text.Utf8.encode text.toList))) := by
  have hwrite := h.isAt.write_below hfits.takes (h.stored _).ne_directory
    (Text.Utf8.encode text.toList)
  rw [← pathFor_eq h.ending] at hwrite
  unfold save
  simp only [htext, parent_pathFor h.ending, h.isAt.makeDirectories, hwrite]

theorem save_of_long (h : Holds s v place shelf) (hlong : ¬ Fits name)
    (htext : document.render {} = .ok text) :
    ∃ why : String, s.save v name document = (.error (.fault (.storage
      s!"Failed to save workflow '{name}': {why}" (some (s.pathFor name).text))), v) := by
  have hwrite : v.write (s.pathFor name) (Text.Utf8.encode text.toList) =
      .error ⟨.nameTooLong, (s.pathFor name).text⟩ := by
    rw [Volume.write, h.find_pathFor_long hlong]
    rfl
  refine ⟨PathFault.message ⟨.nameTooLong, (s.pathFor name).text⟩, ?_⟩
  unfold save
  simp only [htext, parent_pathFor h.ending, h.isAt.makeDirectories, hwrite]

/-! ## Deleting -/

theorem delete_of_absent (h : Holds s v place shelf) (hfits : Fits name)
    (hnone : shelf (keyOf name) = none) : s.delete v name = .ok (false, v) := by
  have hhas := h.has?_pathFor hfits
  rw [hnone] at hhas
  unfold delete
  simp only [hhas]
  rfl

theorem delete_of_kept (h : Holds s v place shelf) (hfits : Fits name)
    (hsome : shelf (keyOf name) = some document) :
    s.delete v name = .ok (true, v.without (place ++ [keyOf name ++ ".json"])) := by
  have hhas := h.has?_pathFor hfits
  have hstored := h.stored (keyOf name)
  rw [hsome] at hhas hstored
  obtain ⟨text, fields, -, -, -, hfile⟩ := hstored
  have hremove := h.isAt.remove_below hfits.takes hfile
  rw [← pathFor_eq h.ending] at hremove
  unfold delete
  simp only [hhas, Option.isSome_some, hremove]

theorem delete_of_long (h : Holds s v place shelf) (hlong : ¬ Fits name) :
    ∃ why, s.delete v name = .error why := by
  have hhas : v.has? (s.pathFor name) = .error ⟨.nameTooLong, (s.pathFor name).text⟩ := by
    rw [Volume.has?, Volume.has, Volume.item, h.find_pathFor_long hlong]
    rfl
  refine ⟨.unreachable ⟨.nameTooLong, (s.pathFor name).text⟩, ?_⟩
  unfold delete
  simp only [hhas]

/-! ## What a call preserves -/

theorem change (h : Holds s v place shelf) {document : Option Datum}
    (hat : w.IsAt s.directory place)
    (hother : ∀ other, other ≠ place ++ [key ++ ".json"] → w.item? other = v.item? other)
    (hhere : Stored document (w.item? (place ++ [key ++ ".json"])))
    (hkey : document.isSome → IsKey key) (hdistinct : (w.namesIn s.directory).Nodup) :
    Holds s w place (Function.update shelf key document) := by
  have hne : ∀ x, x ≠ key ++ ".json" → w.item? (place ++ [x]) = v.item? (place ++ [x]) :=
    fun x hx => hother _ (by simpa using hx)
  refine ⟨h.ending, hat, fun other => ?_, fun other hsome => ?_, fun x hx => ?_, hdistinct⟩
  · by_cases hsame : other = key
    · rw [hsame, Function.update_self]
      exact hhere
    · rw [Function.update_of_ne hsame, hne _ fun heq => hsame (json_injective heq)]
      exact h.stored other
  · by_cases hsame : other = key
    · rw [hsame, Function.update_self] at hsome
      exact hsame ▸ hkey hsome
    · rw [Function.update_of_ne hsame] at hsome
      exact h.keys other hsome
  · by_cases hsame : x = key ++ ".json"
    · exact ⟨key, hsame⟩
    · rw [hne x hsame] at hx
      exact h.ended x hx

theorem nodup_filter_append {names : List String} (h : names.Nodup) (x : String) :
    (names.filter (· != x) ++ [x]).Nodup := by
  rw [List.nodup_append]
  refine ⟨h.filter _, List.pairwise_singleton _ x, fun y hy z hz => ?_⟩
  rw [List.mem_singleton] at hz
  have hne := (List.mem_filter.1 hy).2
  rw [bne_iff_ne] at hne
  rwa [hz]

theorem of_save (h : Holds s v place shelf) (hempty : name ≠ "") (hdoc : document.RoundTrips) :
    Holds s (s.after v (.save name document)) place (keep shelf (.save name document)) := by
  cases hrender : document.render {} with
  | error why =>
    rw [after_save (save_of_fault hrender s v name), keep_save_of_fault hrender]
    exact h
  | ok text =>
    by_cases hfits : Fits name
    · obtain ⟨fields, hread, hspells⟩ := hdoc text hrender
      have hfile := (h.stored (keyOf name)).ne_directory
      have hat := h.isAt.put_file hfile (Text.Utf8.encode text.toList)
      have hself := v.item?_put_self place (keyOf name ++ ".json")
        (.file (Text.Utf8.encode text.toList))
      rw [after_save (h.save_of_text hfits hrender), keep_save hrender hfits]
      refine h.change hat (fun other hother => v.item?_put_of_ne _ hother)
        ⟨text, fields, hrender, hread, hspells, hself⟩ (fun _ => .of_name hempty hfits) ?_
      rw [h.isAt.namesIn_put hat]
      exact nodup_filter_append h.distinct _
    · obtain ⟨why, hsave⟩ := h.save_of_long hfits hrender
      rw [after_save hsave, keep_save_of_long hrender hfits]
      exact h

theorem of_delete (h : Holds s v place shelf) :
    Holds s (s.after v (.delete name)) place (keep shelf (.delete name)) := by
  have hunchanged : shelf (keyOf name) = none → keep shelf (.delete name) = shelf := by
    intro hnone
    rw [keep_delete, ← hnone, Function.update_eq_self]
  by_cases hfits : Fits name
  · cases hshelf : shelf (keyOf name) with
    | none =>
      rw [after_delete (h.delete_of_absent hfits hshelf), hunchanged hshelf]
      exact h
    | some document =>
      have hfile := (h.stored (keyOf name)).ne_directory
      have hat := h.isAt.without_file hfile
      have hself := v.item?_without_self place (keyOf name ++ ".json")
      rw [after_delete (h.delete_of_kept hfits hshelf), keep_delete]
      refine h.change hat (fun other hother => v.item?_without_of_ne hother) hself nofun ?_
      rw [h.isAt.namesIn_without hat]
      exact h.distinct.filter _
  · -- A name that is too long is that of no file.
    have hnone : shelf (keyOf name) = none := by
      by_contra hsome
      exact hfits (fits_keyOf.1 (h.keys _ (Option.isSome_iff_ne_none.2 hsome)).fits)
    obtain ⟨why, hdelete⟩ := h.delete_of_long hfits
    rw [after_delete_of_error hdelete, hunchanged hnone]
    exact h

theorem of_call (h : Holds s v place shelf) (hcall : call.Sound) :
    Holds s (s.after v call) place (keep shelf call) := by
  cases call with
  | save name document => exact h.of_save hcall.1 hcall.2
  | delete name => exact h.of_delete
  | load name => exact h
  | list => exact h

theorem of_calls (h : Holds s v place shelf) (hcalls : ∀ call ∈ calls, call.Sound) :
    Holds s (s.run v calls) place (calls.foldl keep shelf) := by
  induction calls generalizing v shelf with
  | nil => exact h
  | cons call calls ih =>
    exact ih (h.of_call (hcalls call List.mem_cons_self)) fun other hother =>
      hcalls other (List.mem_cons_of_mem call hother)

/-! ## Listing -/

theorem mem_namesIn_iff (h : Holds s v place shelf) {x : String} :
    x ∈ v.namesIn s.directory ↔ ∃ key, (shelf key).isSome ∧ x = key ++ ".json" := by
  rw [h.isAt.mem_namesIn_iff]
  constructor
  · intro hx
    obtain ⟨key, rfl⟩ := h.ended x hx
    exact ⟨key, (h.stored key).isSome ▸ hx, rfl⟩
  · rintro ⟨key, hkey, rfl⟩
    rwa [(h.stored key).isSome]

theorem stem_of_mem (h : Holds s v place shelf) {x : String} (hx : x ∈ v.namesIn s.directory) :
    (shelf (Path.stem x)).isSome ∧ x = Path.stem x ++ ".json" := by
  obtain ⟨key, hkey, rfl⟩ := h.mem_namesIn_iff.1 hx
  rw [Path.stem_json (h.keys key hkey).ne_empty]
  exact ⟨hkey, rfl⟩

theorem names_eq (h : Holds s v place shelf) :
    s.names v = .ok (Text.sorted ((v.namesIn s.directory).map Path.stem)) := by
  have hall : (v.namesIn s.directory).filter (·.endsWith s.ending) = v.namesIn s.directory := by
    rw [List.filter_eq_self]
    intro x hx
    rw [h.ending, (h.stem_of_mem hx).2, String.endsWith_eq_endsWith_toSlice,
      String.Slice.endsWith_string_iff]
    simp
  rw [names, h.isAt.hasDirectory]
  simp only [hall]

theorem exists_names (h : Holds s v place shelf) : ∃ names, s.names v = .ok names ∧
    names.Pairwise (· < ·) ∧ ∀ key, key ∈ names ↔ (shelf key).isSome := by
  refine ⟨_, h.names_eq, ?_, fun key => ?_⟩
  · have hstems : ((v.namesIn s.directory).map Path.stem).Nodup := by
      refine h.distinct.map_on fun x hx y hy hxy => ?_
      rw [(h.stem_of_mem hx).2, (h.stem_of_mem hy).2, hxy]
    have hordered : (Text.sorted ((v.namesIn s.directory).map Path.stem)).Pairwise
        fun a b => decide (a ≤ b) = true :=
      List.pairwise_mergeSort (by simpa using fun a b c => le_trans) (by simpa using le_total) _
    have hnodup : (Text.sorted ((v.namesIn s.directory).map Path.stem)).Nodup :=
      (List.mergeSort_perm _ _).nodup_iff.2 hstems
    exact (hordered.and hnodup).imp fun hab =>
      lt_of_le_of_ne (of_decide_eq_true hab.1) hab.2
  · rw [Text.mem_sorted, List.mem_map]
    constructor
    · rintro ⟨x, hx, rfl⟩
      exact (h.stem_of_mem hx).1
    · intro hkey
      exact ⟨key ++ ".json", h.mem_namesIn_iff.2 ⟨key, hkey, rfl⟩,
        Path.stem_json (h.keys key hkey).ne_empty⟩

end Holds

/-! ## A map from keys to documents -/

/-- A directory answers calls as a map from keys to documents does. Names of files that the volume
does not take are left aside. -/
structure Behaves (s : FileStorage) (v : Volume) (shelf : String → Option Datum) : Prop where
  load : ∀ name, Fits name →
    (∀ document, shelf (keyOf name) = some document →
      ∃ fields, s.load v name = .ok fields ∧ document.Spells (.obj fields)) ∧
    (s.load v name = .error (.fault (.workflowUnknown name (some (s.pathFor name).text))) ↔
      shelf (keyOf name) = none)
  delete : ∀ name, Fits name → ∃ w, s.delete v name = .ok ((shelf (keyOf name)).isSome, w)
  save : ∀ name document text, Fits name → document.render {} = .ok text →
    (s.save v name document).1 = .ok (s.pathFor name).text
  refuse : ∀ name document why, document.render {} = .error why →
    s.after v (.save name document) = v ∧ ∃ message, (s.save v name document).1 =
      .error (.fault (.storage message (some (s.pathFor name).text)))
  list : ∃ names, s.names v = .ok names ∧ names.Pairwise (· < ·) ∧
    (∀ key, key ∈ names ↔ (shelf key).isSome) ∧
    ∀ key ∈ names, ∃ document fields, shelf key = some document ∧ s.load v key = .ok fields ∧
      document.Spells (.obj fields)

theorem Holds.behaves (h : Holds s v place shelf) : Behaves s v shelf where
  load name hfits := by
    refine ⟨fun document hsome => h.load_of_kept hfits hsome, fun hload => ?_,
      fun hnone => h.load_of_absent hfits hnone⟩
    cases hshelf : shelf (keyOf name) with
    | none => rfl
    | some document =>
      obtain ⟨fields, hok, -⟩ := h.load_of_kept hfits hshelf
      cases hok.symm.trans hload
  delete name hfits := by
    cases hshelf : shelf (keyOf name) with
    | none => exact ⟨v, h.delete_of_absent hfits hshelf⟩
    | some document => exact ⟨_, h.delete_of_kept hfits hshelf⟩
  save name document text hfits htext := by rw [h.save_of_text hfits htext]
  refuse name document why hfault :=
    ⟨after_save (save_of_fault hfault s v name), _, by rw [save_of_fault hfault]⟩
  list := by
    obtain ⟨names, hnames, hordered, hmem⟩ := h.exists_names
    refine ⟨names, hnames, hordered, hmem, fun key hkey => ?_⟩
    have hsome := (hmem key).1 hkey
    have hown := (h.keys key hsome).own
    obtain ⟨document, hdocument⟩ := Option.isSome_iff_exists.1 hsome
    rw [← hown] at hdocument
    obtain ⟨fields, hload, hspells⟩ := h.load_of_kept (h.keys key hsome).fits hdocument
    rw [hown] at hdocument
    exact ⟨document, fields, hdocument, hload, hspells⟩

theorem holds_of_calls (hending : s.ending = ".json")
    (hdirectory : v.hasDirectory s.directory = .ok true) (hempty : v.namesIn s.directory = [])
    (hcalls : ∀ call ∈ calls, call.Sound) :
    ∃ place, Holds s (s.run v calls) place (kept calls) := by
  obtain ⟨place, hat⟩ := Volume.exists_isAt hdirectory
  exact ⟨place, (Holds.nothing hending hat hempty).of_calls hcalls⟩

theorem behaves_of_calls (s : FileStorage) (v : Volume) (calls : List Call)
    (hending : s.ending = ".json") (hdirectory : v.hasDirectory s.directory = .ok true)
    (hempty : v.namesIn s.directory = []) (hcalls : ∀ call ∈ calls, call.Sound) :
    Behaves s (s.run v calls) (kept calls) := by
  obtain ⟨place, h⟩ := holds_of_calls hending hdirectory hempty hcalls
  exact h.behaves

/-! ## Two names of one key -/

def sampleDocument : Datum :=
  .plain (.obj [("workflowName", .str "My Flow"), ("workflowSteps", .arr [])])

/-- No document: its key is no text. -/
def sampleRefused : Datum := .table [(.other "tuple", .plain .null)]

def sampleCalls : List Call :=
  [.save "My Flow" sampleDocument, .save "My-Flow" sampleRefused, .list, .save "x" sampleDocument,
    .load "My_Flow", .delete "x"]

theorem sampleDocument_roundTrips : sampleDocument.RoundTrips := by
  refine Datum.roundTrips_of_legible (.plain _) (.obj (by decide) ?_)
  simp only [List.forall_mem_cons]
  exact ⟨.str _, .arr nofun, nofun⟩

theorem sampleCalls_sound : ∀ call ∈ sampleCalls, call.Sound := by
  have hrefused : sampleRefused.RoundTrips := nofun
  simp only [sampleCalls, List.forall_mem_cons]
  exact ⟨⟨by decide, sampleDocument_roundTrips⟩, ⟨by decide, hrefused⟩, trivial,
    ⟨by decide, sampleDocument_roundTrips⟩, (by decide : "My_Flow" ≠ ""), (by decide : "x" ≠ ""),
    nofun⟩

theorem behaves_of_sampleCalls :
    (here.ending = ".json" ∧ ({} : Volume).hasDirectory here.directory = .ok true ∧
      ({} : Volume).namesIn here.directory = [] ∧ ∀ call ∈ sampleCalls, call.Sound) ∧
    Behaves here (here.run {} sampleCalls) (kept sampleCalls) ∧
    ∃ fields, here.load (here.run {} sampleCalls) "My/Flow" = .ok fields ∧
      sampleDocument.Spells (.obj fields) := by
  have hbehaves : Behaves here (here.run {} sampleCalls) (kept sampleCalls) :=
    behaves_of_calls here {} sampleCalls rfl rfl rfl sampleCalls_sound
  have htext : sampleDocument.render {} = .ok _ := rfl
  have hrefused : sampleRefused.render {} = .error (.badKey "tuple") := rfl
  have hkept : kept sampleCalls (keyOf "My/Flow") = some sampleDocument := by
    have hx : keyOf "My/Flow" ≠ keyOf "x" := by decide
    have hsame : keyOf "My/Flow" = keyOf "My Flow" := by decide
    simp only [kept, sampleCalls, List.foldl_cons, List.foldl_nil]
    rw [keep_delete, Function.update_of_ne hx, keep_load, keep_save htext (by decide),
      Function.update_of_ne hx, keep_list, keep_save_of_fault hrefused,
      keep_save htext (by decide), hsame, Function.update_self]
  exact ⟨⟨rfl, rfl, rfl, sampleCalls_sound⟩, hbehaves,
    (hbehaves.load "My/Flow" (by decide)).1 _ hkept⟩

end FileStorage
end WorkflowCanvas
