import WorkflowCanvas.Proofs.Storage.Directory
import WorkflowCanvas.Storage.Files

/-! Names of files. The key of a name keeps its ASCII letters and digits and has a hyphen for every
other character. Main statements: files are named for keys, so that the path of a name is that of
one file in the directory; a key is its own key; and the stem of the file of a key is the key. -/
namespace WorkflowCanvas
set_option autoImplicit false

/-! ## Paths of plain names -/

namespace Path

theorem pieces_of_not_mem {cs : List Char} (h : '/' ∉ cs) : pieces cs = [cs] := by
  induction cs with
  | nil => rfl
  | cons c rest ih =>
    rw [List.mem_cons, not_or] at h
    have hc : (c == '/') = false := by simpa using Ne.symm h.1
    rw [pieces, hc, ih h.2]
    rfl

theorem rootOf_of_not_mem {cs : List Char} (h : '/' ∉ cs) : rootOf cs = "" := by
  cases cs with
  | nil => rfl
  | cons c rest =>
    rw [List.mem_cons, not_or] at h
    have hc : (c == '/') = false := by simpa using Ne.symm h.1
    rw [rootOf, List.takeWhile_cons, hc]
    rfl

/-- A name without a slash, other than that of the place itself, is a path of one name. -/
theorem ofText_of_not_mem {x : String} (hslash : '/' ∉ x.toList) (hempty : x ≠ "")
    (hdot : x ≠ ".") : ofText x = ⟨"", [x]⟩ := by
  rw [ofText, rootOf_of_not_mem hslash, pieces_of_not_mem hslash, List.map_singleton,
    String.ofList_toList, List.filter_cons_of_pos (by simp [hempty, hdot]), List.filter_nil]

theorem stem_json {key : String} (h : key ≠ "") : stem (key ++ ".json") = key := by
  have hchars : (key ++ ".json").toList = key.toList ++ ['.', 'j', 's', 'o', 'n'] :=
    String.toList_append
  have hsuffix : (((key.toList ++ ['.', 'j', 's', 'o', 'n']).reverse).takeWhile (· != '.')).length =
      4 := by
    rw [List.reverse_append]
    rfl
  have hlength : key.toList.length ≠ 0 := by simpa using h
  have hkept : (key.toList ++ ['.', 'j', 's', 'o', 'n']).length - 4 - 1 = key.toList.length := by
    rw [List.length_append]
    rfl
  simp only [stem, hchars, hsuffix, hkept]
  rw [if_neg (by rw [List.length_append]; simp; omega), List.take_left, String.ofList_toList]

end Path

namespace FileStorage
variable {s : FileStorage} {name key : String}

/-! ## Keys -/

/-- Whether a character is an ASCII letter or digit. -/
def IsKept (c : Char) : Prop :=
  ('a' ≤ c ∧ c ≤ 'z') ∨ ('A' ≤ c ∧ c ≤ 'Z') ∨ ('0' ≤ c ∧ c ≤ '9')

instance (c : Char) : Decidable (IsKept c) := inferInstanceAs (Decidable (_ ∨ _))

/-- The key of a name: its ASCII letters and digits as they are, and a hyphen for every other
character. -/
def keyOf (name : String) : String :=
  String.ofList (name.toList.map fun c => if IsKept c then c else '-')

theorem isKept_iff {c : Char} : IsKept c ↔ c.isAlphanum = true := by
  have hclasses : c.isAlphanum = ((decide ('A' ≤ c ∧ c ≤ 'Z') ||
      (decide ('a' ≤ c) && decide (c ≤ 'z'))) || (decide ('0' ≤ c) && decide (c ≤ '9'))) := rfl
  simp only [IsKept, hclasses, Bool.or_eq_true, Bool.and_eq_true, decide_eq_true_eq]
  tauto

/-- Files are named for keys. -/
theorem fileName_eq (name : String) : fileName name = keyOf name := by
  simp only [fileName, keyOf, isKept_iff]

theorem toList_keyOf (name : String) :
    (keyOf name).toList = name.toList.map fun c => if IsKept c then c else '-' := by
  rw [keyOf, String.toList_ofList]

theorem keyOf_keyOf (name : String) : keyOf (keyOf name) = keyOf name := by
  rw [keyOf, toList_keyOf, List.map_map, keyOf]
  refine congrArg String.ofList (List.map_congr_left fun c _ => ?_)
  by_cases hc : IsKept c
  · simp [hc]
  · simp [hc]

theorem keyOf_ne_empty (h : name ≠ "") : keyOf name ≠ "" := by
  intro hempty
  have hchars := congrArg String.toList hempty
  rw [toList_keyOf] at hchars
  simp [h] at hchars

theorem slash_not_mem_keyOf (name : String) : '/' ∉ (keyOf name).toList := by
  rw [toList_keyOf, List.mem_map]
  rintro ⟨c, -, hc⟩
  split at hc
  · rename_i hkept
    rw [hc] at hkept
    exact absurd hkept (by decide)
  · exact absurd hc (by decide)

/-! ## Files of keys -/

theorem ne_of_short {x : String} (key : String) (h : x.length < 5) : key ++ ".json" ≠ x := by
  rintro rfl
  rw [String.length_append] at h
  have : ".json".length = 5 := rfl
  omega

theorem json_injective {a b : String} (h : a ++ ".json" = b ++ ".json") : a = b := by
  simpa using h

theorem pathFor_eq (hending : s.ending = ".json") (name : String) :
    s.pathFor name = Volume.below s.directory (keyOf name ++ ".json") := by
  have hslash : '/' ∉ (keyOf name ++ ".json").toList := by
    rw [String.toList_append, List.mem_append, not_or]
    exact ⟨slash_not_mem_keyOf name, by decide⟩
  rw [pathFor, fileName_eq, hending, Path.child,
    Path.ofText_of_not_mem hslash (ne_of_short _ (by decide)) (ne_of_short _ (by decide))]
  rfl

theorem parent_pathFor (hending : s.ending = ".json") (name : String) :
    (s.pathFor name).parent = s.directory := by
  rw [pathFor_eq hending, Volume.parent_below]

/-- Whether a volume takes the name of a file: it is not too long. -/
def Fits (name : String) : Prop := (keyOf name ++ ".json").utf8ByteSize ≤ Volume.nameLimit

instance (name : String) : Decidable (Fits name) :=
  inferInstanceAs (Decidable (_ ≤ _))

theorem Fits.takes (h : Fits name) : Volume.Takes (keyOf name ++ ".json") :=
  ⟨ne_of_short _ (by decide), h⟩

theorem fits_keyOf : Fits (keyOf name) ↔ Fits name := by
  rw [Fits, keyOf_keyOf, Fits]

end FileStorage
end WorkflowCanvas
