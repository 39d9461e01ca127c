import WorkflowCanvas.Proofs.Json.LongNumber
import WorkflowCanvas.Storage.Files

/-! Documents that are loaded from files, whatever bytes these hold. Main statement: a text is read
as an object or refused for what is wrong with it, and so is the file of a document that is there,
exactly when reading does not come, with no fault before, to a number that is too long. -/
namespace WorkflowCanvas.FileStorage
set_option autoImplicit false

variable {s : FileStorage} {v : Volume} {name : String} {content : List UInt8} {digits : Nat}

/-! ## Contents -/

theorem documentOf_eq_longNumber_iff :
    documentOf content = .error (.notJson (.longNumber digits)) ↔
      ∃ text, textOf content = .ok text ∧ Json.StopsAtNumber text.toList digits := by
  rw [documentOf]
  cases htext : textOf content with
  | error why => simp
  | ok text =>
    simp only [Except.ok.injEq, exists_eq_left', ← Json.readObject_eq_longNumber_iff]
    cases Json.readObject text with
    | ok fields =>
      constructor
      all_goals
        intro h
        cases h
    | error why =>
      show Except.error (ContentFault.notJson why) = _ ↔ _
      simp

/-! ## Files -/

/-- A document whose file is there but is not read. -/
def unread (s : FileStorage) (name why : String) : Failure :=
  .fault (.storage s!"Failed to read workflow '{name}': {why}" (some (s.pathFor name).text))

theorem load_of_unread {why : PathFault} (h : v.has? (s.pathFor name) = .ok true)
    (hread : v.read (s.pathFor name) = .error why) :
    s.load v name = .error (s.unread name why.message) := by
  unfold load
  simp only [h, hread]
  rfl

theorem load_of_read (h : v.has? (s.pathFor name) = .ok true)
    (hread : v.read (s.pathFor name) = .ok content) :
    s.load v name = match documentOf content with
      | .ok fields => .ok fields
      | .error (.notJson (.longNumber digits)) => .error (.unreadable (.longNumber digits))
      | .error why => .error (s.unread name why.message) := by
  unfold load
  simp only [h, hread]
  rfl

theorem load_cases (h : v.has? (s.pathFor name) = .ok true) :
    (∃ fields, s.load v name = .ok fields) ∨
      (∃ why, s.load v name = .error (s.unread name why)) ∨
      ∃ content digits, v.read (s.pathFor name) = .ok content ∧
        documentOf content = .error (.notJson (.longNumber digits)) ∧
        s.load v name = .error (.unreadable (.longNumber digits)) := by
  cases hread : v.read (s.pathFor name) with
  | error why => exact .inr (.inl ⟨_, load_of_unread h hread⟩)
  | ok content =>
    rw [load_of_read h hread]
    split
    · exact .inl ⟨_, rfl⟩
    · rename_i digits hlong
      exact .inr (.inr ⟨content, digits, rfl, hlong, rfl⟩)
    · exact .inr (.inl ⟨_, rfl⟩)

theorem load_eq_longNumber_iff (h : v.has? (s.pathFor name) = .ok true) :
    s.load v name = .error (.unreadable (.longNumber digits)) ↔
      ∃ content text, v.read (s.pathFor name) = .ok content ∧ textOf content = .ok text ∧
        Json.StopsAtNumber text.toList digits := by
  constructor
  · intro hload
    rcases load_cases h with ⟨fields, hok⟩ | ⟨why, hunread⟩ | ⟨content, other, hread, hlong, hother⟩
    · cases hok.symm.trans hload
    · cases hunread.symm.trans hload
    · cases hother.symm.trans hload
      obtain ⟨text, htext, hstops⟩ := documentOf_eq_longNumber_iff.1 hlong
      exact ⟨content, text, hread, htext, hstops⟩
  · rintro ⟨content, text, hread, htext, hstops⟩
    rw [load_of_read h hread, documentOf_eq_longNumber_iff.2 ⟨text, htext, hstops⟩]

/-! ## A file of a row of ones -/

theorem plainBreaks_of_not_mem {cs : List Char} (h : '\r' ∉ cs) :
    Text.Utf8.plainBreaks cs = cs := by
  fun_induction Text.Utf8.plainBreaks cs with
  | case1 rest ih => simp at h
  | case2 rest _ ih => simp at h
  | case3 c rest _ _ ih => rw [ih fun hmem => h (List.mem_cons_of_mem _ hmem)]
  | case4 => rfl

theorem mem_rowChars {c : Char} {count : Nat} (h : c ∈ Json.rowChars count) :
    c ∈ ['{', '"', 'a', ':', '1', '}'] := by
  simp only [Json.rowChars, List.mem_cons, List.mem_append, List.mem_replicate] at h ⊢
  grind

theorem textOf_rowChars (count : Nat) :
    textOf (Text.Utf8.encode (Json.rowChars count)) =
      .ok (String.ofList (Json.rowChars count)) := by
  have hascii : ∀ c ∈ Json.rowChars count, c.toNat < 0x80 := by
    intro c hc
    have hsome := mem_rowChars hc
    simp only [List.mem_cons, List.not_mem_nil, or_false] at hsome
    rcases hsome with rfl | rfl | rfl | rfl | rfl | rfl <;> decide
  have hbreaks : '\r' ∉ Json.rowChars count := fun h => absurd (mem_rowChars h) (by decide)
  rw [textOf, Text.Utf8.decode_encode_ascii hascii]
  simp only [Except.map, plainBreaks_of_not_mem hbreaks]

def here : FileStorage where
  directory := ⟨"", []⟩

/-- A volume with one file, an object whose field is a row of so many ones. -/
def rowVolume (count : Nat) : Volume :=
  ⟨[(["a.json"], .file (Text.Utf8.encode (Json.rowChars count)))]⟩

theorem pathFor_here : here.pathFor "a" = ⟨"", ["a.json"]⟩ := by decide

theorem has_rowVolume (count : Nat) : (rowVolume count).has? (here.pathFor "a") = .ok true := by
  rw [pathFor_here]
  rfl

theorem read_rowVolume (count : Nat) : (rowVolume count).read (here.pathFor "a") =
    .ok (Text.Utf8.encode (Json.rowChars count)) := by
  rw [pathFor_here]
  rfl

theorem stops_rowVolume {count : Nat} (h : Json.digitLimit < count) :
    ∃ content text, (rowVolume count).read (here.pathFor "a") = .ok content ∧
      textOf content = .ok text ∧ Json.StopsAtNumber text.toList count := by
  refine ⟨_, _, read_rowVolume count, textOf_rowChars count, ?_⟩
  rw [String.toList_ofList]
  exact Json.stopsAtNumber_rowChars h

/-! ## All texts and files -/

theorem read_told_iff (text : String) (h : v.has? (s.pathFor name) = .ok true) :
    (((∃ fields, Json.readObject text = .ok fields) ∨
        (∃ complaint spot, Json.readObject text = .error (.malformed complaint spot)) ∨
        ∃ kind, Json.readObject text = .error (.notObject kind)) ↔
      ∀ digits, ¬ Json.StopsAtNumber text.toList digits) ∧
    (((∃ fields, s.load v name = .ok fields) ∨ ∃ why, s.load v name = .error (s.unread name why)) ↔
      ∀ content written digits, v.read (s.pathFor name) = .ok content →
        textOf content = .ok written → ¬ Json.StopsAtNumber written.toList digits) ∧
    ∀ digits, s.load v name = .error (.unreadable (.longNumber digits)) ↔
      ∃ content written, v.read (s.pathFor name) = .ok content ∧ textOf content = .ok written ∧
        Json.StopsAtNumber written.toList digits := by
  refine ⟨Json.readObject_told_iff text, ⟨?_, ?_⟩, fun digits => load_eq_longNumber_iff h⟩
  · intro htold content written digits hread htext hstops
    have hlong := (load_eq_longNumber_iff h).2 ⟨content, written, hread, htext, hstops⟩
    rcases htold with ⟨fields, hok⟩ | ⟨why, hunread⟩
    · cases hlong.symm.trans hok
    · cases hlong.symm.trans hunread
  · intro hnone
    rcases load_cases h with hok | hunread | ⟨content, digits, hread, hlong, -⟩
    · exact .inl hok
    · exact .inr hunread
    · obtain ⟨written, htext, hstops⟩ := documentOf_eq_longNumber_iff.1 hlong
      exact absurd hstops (hnone content written digits hread htext)

theorem read_told_rowVolume :
    (rowVolume 4301).has? (here.pathFor "a") = .ok true ∧
      here.load (rowVolume 4301) "a" = .error (.unreadable (.longNumber 4301)) :=
  ⟨has_rowVolume 4301, ((read_told_iff "" (has_rowVolume 4301)).2.2 4301).2
    (stops_rowVolume (by decide))⟩

/-- Neither texts nor files are always read or refused for what is wrong with them. -/
theorem not_always_told :
    (¬ ∀ text, (∃ fields, Json.readObject text = .ok fields) ∨
      (∃ complaint spot, Json.readObject text = .error (.malformed complaint spot)) ∨
      ∃ kind, Json.readObject text = .error (.notObject kind)) ∧
    ¬ ∀ (s : FileStorage) (v : Volume) (name : String), v.has? (s.pathFor name) = .ok true →
      (∃ fields, s.load v name = .ok fields) ∨
        ∃ why, s.load v name = .error (s.unread name why) := by
  constructor
  · intro hall
    have hlong := Json.readObject_rowChars (by decide : Json.digitLimit < 4301)
    rcases hall (String.ofList (Json.rowChars 4301)) with
      ⟨fields, hok⟩ | ⟨complaint, spot, hmalformed⟩ | ⟨kind, hkind⟩
    · cases hlong.symm.trans hok
    · cases hlong.symm.trans hmalformed
    · cases hlong.symm.trans hkind
  · intro hall
    have hlong : here.load (rowVolume 4301) "a" = .error (.unreadable (.longNumber 4301)) :=
      (load_eq_longNumber_iff (has_rowVolume 4301)).2 (stops_rowVolume (by decide))
    rcases hall here (rowVolume 4301) "a" (has_rowVolume 4301) with ⟨fields, hok⟩ | ⟨why, hunread⟩
    · cases hlong.symm.trans hok
    · cases hlong.symm.trans hunread

end WorkflowCanvas.FileStorage
