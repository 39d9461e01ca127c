import WorkflowCanvas.Proofs.Json.LongNumber
import WorkflowCanvas.Proofs.Json.Token

/-! Reading back what was written. Main statement: the text of a legible value, on one line or
indented, is read as that value. The machine is followed along the text: the text of a value takes
it from a state in which a value may come to the state in which that value is delivered, whatever
is open around it and stands behind it. -/
namespace WorkflowCanvas.Json
set_option autoImplicit false

variable {expect : Expect} {stack : List Frame} {text more rest : List Char}
  {a b c : Expect × List Frame} {token : Token} {indent : Option Nat} {depth : Nat}

/-! ## The machine along a text -/

/-- In front of some rest, wherever it stands, a text takes the machine from a state to another. -/
def Passes (text rest : List Char) (a b : Expect × List Frame) : Prop :=
  ∀ place, run a.1 a.2 (cut place 0 (text ++ rest)) =
    run b.1 b.2 (cut (place + text.length) 0 rest)

theorem Passes.nil (rest : List Char) (a : Expect × List Frame) : Passes [] rest a a :=
  fun _ => rfl

theorem Passes.append (h : Passes text (more ++ rest) a b) (h' : Passes more rest b c) :
    Passes (text ++ more) rest a c := by
  intro place
  rw [List.append_assoc, h, h', List.length_append, Nat.add_assoc]

theorem passes_blanks (h : ∀ x ∈ text, isGap x = true) : Passes text rest a a := by
  induction text with
  | nil => exact .nil rest a
  | cons x text ih =>
    intro place
    have hrest := ih (fun y hy => h y (List.mem_cons_of_mem x hy)) (place + 1)
    rw [List.cons_append, cut, if_pos (h x List.mem_cons_self), hrest, List.length_cons,
      Nat.add_assoc, Nat.add_comm 1]

theorem cut_skip (place : Nat) (text rest : List Char) :
    cut place text.length (text ++ rest) = cut (place + text.length) 0 rest := by
  induction text generalizing place with
  | nil => rfl
  | cons x text ih =>
    rw [List.length_cons, List.cons_append, cut, ih, Nat.add_assoc, Nat.add_comm 1]

theorem passes_token (htoken : IsToken text rest token)
    (hstep : ∀ place, step a.1 place token a.2 = .ok b) : Passes text rest a b := by
  obtain ⟨c, tail, rfl, hgap, hat⟩ := htoken
  intro place
  rw [List.cons_append, cut, hgap]
  simp only [Bool.false_eq_true, if_false, hat, List.length_cons, Nat.add_sub_cancel, cut_skip, run,
    hstep]
  rw [Nat.add_assoc, Nat.add_comm 1]

theorem step_of_startValue {place : Nat} (hexpect : expect.takesValue = true)
    (h : startValue place token stack = .ok b) : step expect place token stack = .ok b := by
  cases expect with
  | value => exact h
  | firstItem => cases token <;> first | exact h | cases h
  | _ => cases hexpect

theorem passes_value (hexpect : expect.takesValue = true) (htoken : IsToken text rest token)
    (h : ∀ place, startValue place token stack = .ok b) : Passes text rest (expect, stack) b :=
  passes_token htoken fun place => step_of_startValue hexpect (h place)

/-! ## Lists and objects -/

theorem isGap_gap (indent : Option Nat) (depth : Nat) : ∀ x ∈ gap indent depth, isGap x = true := by
  intro x hx
  cases indent with
  | none => cases hx
  | some n =>
    rcases List.mem_cons.1 hx with rfl | hx
    · rfl
    · rw [List.eq_of_mem_replicate hx]
      rfl

theorem exists_separator (indent : Option Nat) (depth : Nat) :
    ∃ blanks, separator indent depth = ',' :: blanks ∧ ∀ x ∈ blanks, isGap x = true := by
  cases indent with
  | none => exact ⟨[' '], rfl, List.forall_mem_singleton.2 rfl⟩
  | some n => exact ⟨gap (some n) depth, rfl, isGap_gap (some n) depth⟩

theorem delimited_cons {x : Char} (h : x ∈ [',', ']', '}', '\n']) (rest : List Char) :
    Delimited (x :: rest) := by
  rintro y ⟨⟩
  exact h

theorem delimited_gap (h : Delimited rest) : Delimited (gap indent depth ++ rest) := by
  cases indent with
  | none => exact h
  | some n => exact delimited_cons (by decide) _

/-- How the machine reads what stands between two brackets: the frame that holds the items so far,
newest first, the states in which an item may start, at first and behind a comma, and the value
that the items make. -/
structure Bracketed (α : Type) where
  left : Char
  right : Char
  opening : Token
  closing : Token
  frame : List α → Frame
  first : Expect
  later : Expect
  whole : List α → Json
  sign_left : sign? left = some opening
  sign_right : sign? right = some closing
  right_delimits : right ∈ [',', ']', '}', '\n']
  start_opening : ∀ place stack,
    startValue place opening stack = .ok (first, frame [] :: stack)
  step_first_closing : ∀ place stack,
    step first place closing (frame [] :: stack) = .ok (deliver (whole []) stack)
  after_closing : ∀ place items stack,
    afterValue place closing (frame items :: stack) = .ok (deliver (whole items.reverse) stack)
  after_comma : ∀ place items stack,
    afterValue place .comma (frame items :: stack) = .ok (later, frame items :: stack)

namespace Bracketed

/-- The items of a list. -/
def list : Bracketed Json where
  left := '['
  right := ']'
  opening := .openArr
  closing := .closeArr
  frame := .list
  first := .firstItem
  later := .value
  whole := arr
  sign_left := rfl
  sign_right := rfl
  right_delimits := by decide
  start_opening := fun _ _ => rfl
  step_first_closing := fun _ _ => rfl
  after_closing := fun _ _ _ => rfl
  after_comma := fun _ _ _ => rfl

/-- The fields of an object. -/
def object : Bracketed (String × Json) where
  left := '{'
  right := '}'
  opening := .openObj
  closing := .closeObj
  frame := .object
  first := .firstName
  later := .name
  whole := fun fields => obj (Fields.ofPairs fields)
  sign_left := rfl
  sign_right := rfl
  right_delimits := by decide
  start_opening := fun _ _ => rfl
  step_first_closing := fun _ _ => rfl
  after_closing := fun _ _ _ => rfl
  after_comma := fun _ _ _ => rfl

variable {α : Type} {write : α → List Char} {items : List α}

/-- The text of an item goes into the frame, where an item may start. -/
def Takes (b : Bracketed α) (write : α → List Char) (stack : List Frame) (item : α) : Prop :=
  ∀ expect, (expect = b.first ∨ expect = b.later) → ∀ items rest, Delimited rest →
    Passes (write item) rest (expect, b.frame items :: stack)
      (.delimiter, b.frame (item :: items) :: stack)

theorem passes_separator (b : Bracketed α) :
    Passes (separator indent depth) rest (.delimiter, b.frame items :: stack)
      (b.later, b.frame items :: stack) := by
  obtain ⟨blanks, hseparator, hblanks⟩ := exists_separator indent depth
  rw [hseparator]
  have hcomma : Passes [','] (blanks ++ rest) (.delimiter, b.frame items :: stack)
      (b.later, b.frame items :: stack) :=
    passes_token (isToken_sign rfl) fun place => b.after_comma place items stack
  exact hcomma.append (passes_blanks hblanks)

/-- The texts of items, one behind the other, go into the frame. -/
theorem passes_items (b : Bracketed α) (hitems : ∀ item ∈ items, b.Takes write stack item)
    (hne : items ≠ []) {expect : Expect} (hexpect : expect = b.first ∨ expect = b.later)
    (hrest : Delimited rest) (read : List α) :
    Passes ((separator indent depth).intercalate (items.map write)) rest
      (expect, b.frame read :: stack) (.delimiter, b.frame (items.reverse ++ read) :: stack) := by
  -- The first item starts where the row starts; each later one starts behind a comma.
  induction items generalizing expect read with
  | nil => exact absurd rfl hne
  | cons item items ih =>
    have hitem := hitems item List.mem_cons_self expect hexpect read
    cases items with
    | nil =>
      rw [List.map_cons, List.map_nil, List.intercalate_singleton]
      exact hitem rest hrest
    | cons next items =>
      have htail := ih (fun x hx => hitems x (List.mem_cons_of_mem item hx)) (by simp) (.inr rfl)
        (item :: read)
      have hreverse : (item :: next :: items).reverse ++ read =
          (next :: items).reverse ++ item :: read := by simp
      rw [List.map_cons, List.map_cons, List.intercalate_cons_cons, ← List.map_cons, hreverse]
      refine (Passes.append (hitem _ ?_) b.passes_separator).append htail
      obtain ⟨blanks, hseparator, -⟩ := exists_separator indent depth
      rw [hseparator]
      exact delimited_cons (by decide) _

/-- The texts of items between their brackets are the value that the items make. -/
theorem passes_enclose (b : Bracketed α) (hitems : ∀ item ∈ items, b.Takes write stack item)
    (hexpect : expect.takesValue = true) :
    Passes (enclose indent depth b.left b.right (items.map write)) rest (expect, stack)
      (deliver (b.whole items) stack) := by
  have hopen : ∀ rest, Passes [b.left] rest (expect, stack) (b.first, b.frame [] :: stack) :=
    fun rest => passes_value hexpect (isToken_sign b.sign_left) fun place =>
      b.start_opening place stack
  rw [enclose]
  split
  · rename_i hempty
    obtain rfl : items = [] := by simpa using hempty
    have hclose : Passes [b.right] rest (b.first, b.frame [] :: stack)
        (deliver (b.whole []) stack) :=
      passes_token (isToken_sign b.sign_right) fun place => b.step_first_closing place stack
    exact (hopen _).append hclose
  · rename_i hsome
    have hne : items ≠ [] := by simpa using hsome
    have hclose : Passes [b.right] rest (.delimiter, b.frame items.reverse :: stack)
        (deliver (b.whole items) stack) := by
      refine passes_token (isToken_sign b.sign_right) fun place => ?_
      have h := b.after_closing place items.reverse stack
      rwa [List.reverse_reverse] at h
    have hright : Delimited (gap indent depth ++ ([b.right] ++ rest)) :=
      delimited_gap (delimited_cons b.right_delimits rest)
    have hbody : Passes ((separator indent (depth + 1)).intercalate (items.map write))
        (gap indent depth ++ ([b.right] ++ rest)) (b.first, b.frame [] :: stack)
        (.delimiter, b.frame (items.reverse ++ []) :: stack) :=
      b.passes_items hitems hne (.inl rfl) hright []
    rw [List.append_nil] at hbody
    have hgap := fun depth => isGap_gap indent depth
    exact ((((hopen _).append (passes_blanks (hgap (depth + 1)))).append hbody).append
      (passes_blanks (hgap depth))).append hclose

end Bracketed

/-! ## Legible values -/

theorem itemTexts_eq_map (items : List Json) :
    itemTexts indent depth items = items.map (writeAt indent depth) := by
  induction items with
  | nil => rfl
  | cons item rest ih => rw [itemTexts, ih, List.map_cons]

/-- The text of a field. -/
def fieldText (indent : Option Nat) (depth : Nat) (field : String × Json) : List Char :=
  stringText field.1 ++ ':' :: ' ' :: writeAt indent depth field.2

theorem fieldTexts_eq_map (fields : List (String × Json)) :
    fieldTexts indent depth fields = fields.map (fieldText indent depth) := by
  induction fields with
  | nil => rfl
  | cons field rest ih =>
    obtain ⟨name, v⟩ := field
    rw [fieldTexts, ih, List.map_cons, fieldText]

/-- A value that its text tells: its whole numbers are not too long, its doubles are read from
their numerals, and no object in it has a name twice. -/
inductive Legible : Json → Prop where
  | null : Legible null
  | bool (value : Bool) : Legible (bool value)
  | int {value : Int} (hlong : isLong value = false) : Legible (int value)
  | float {value : Float} (hreads : Decimal.ReadsBack value) : Legible (float value)
  | str (value : String) : Legible (str value)
  | arr {items : List Json} (hitems : ∀ item ∈ items, Legible item) : Legible (arr items)
  | obj {fields : List (String × Json)} (hnames : (fields.map Prod.fst).Nodup)
      (hfields : ∀ field ∈ fields, Legible field.2) : Legible (obj fields)

/-- An object that has no name twice is the one that its fields spell. -/
theorem ofPairs_of_nodup {fields : Fields} (h : (fields.map Prod.fst).Nodup) :
    Fields.ofPairs fields = fields := by
  -- Each field is new to those set before it, and so comes to stand behind them.
  suffices hall : ∀ done : Fields, ((done ++ fields).map Prod.fst).Nodup →
      Fields.setAll done fields = done ++ fields from hall [] h
  clear h
  induction fields with
  | nil => exact fun done _ => (List.append_nil done).symm
  | cons field fields ih =>
    intro done h
    have habsent : Fields.get? done field.1 = none := by
      rw [Fields.get?, List.lookup_eq_none_iff]
      intro other hother
      rw [List.map_append, List.nodup_append] at h
      have hne := h.2.2 other.1 (List.mem_map_of_mem hother) field.1 List.mem_cons_self
      simpa using hne.symm
    have hstep : Fields.setAll done (field :: fields) =
        Fields.setAll (done.set field.1 field.2) fields := rfl
    rw [hstep, Fields.set_of_absent _ habsent, ih _ (by simpa using h), List.append_assoc]
    rfl

/-- The text of a value takes the machine to where the value is delivered. -/
def IsRead (indent : Option Nat) (v : Json) : Prop :=
  ∀ depth expect stack rest, expect.takesValue = true → Delimited rest →
    Passes (writeAt indent depth v) rest (expect, stack) (deliver v stack)

theorem isRead_token {v : Json} {text : List Char} (htext : ∀ depth, writeAt indent depth v = text)
    (htoken : ∀ rest, Delimited rest → ∃ token, IsToken text rest token ∧
      ∀ place stack, startValue place token stack = .ok (deliver v stack)) : IsRead indent v := by
  intro depth expect stack rest hexpect hrest
  obtain ⟨token, hcut, hstart⟩ := htoken rest hrest
  rw [htext]
  exact passes_value hexpect hcut fun place => hstart place stack

theorem isRead_word {v : Json} {text : List Char} (htext : ∀ depth, writeAt indent depth v = text)
    (hstart : StartsLiteral text)
    (hword : ∀ rest, literal? (text ++ rest) = some (.constant v, text.length)) : IsRead indent v :=
  isRead_token htext fun rest _ =>
    ⟨.constant v, isToken_literal hstart (hword rest), fun _ _ => rfl⟩

theorem isRead_int {n : Int} (hlong : isLong n = false) : IsRead indent (int n) := by
  refine isRead_token (fun _ => rfl) fun rest hrest => ⟨_, isToken_intText n hrest, fun _ _ => ?_⟩
  have hlimit : ¬ digitLimit < Decimal.digitCount n.natAbs := by
    rwa [isLong, decide_eq_false_iff_not] at hlong
  rw [startValue, if_neg hlimit]

theorem isRead_arr {items : List Json} (hitems : ∀ item ∈ items, IsRead indent item) :
    IsRead indent (arr items) := by
  intro depth expect stack rest hexpect hrest
  rw [writeAt, itemTexts_eq_map]
  refine Bracketed.list.passes_enclose (fun item hitem expect hstart read rest hrest => ?_) hexpect
  have htakes : expect.takesValue = true := by
    rcases hstart with rfl | rfl <;> rfl
  exact hitems item hitem (depth + 1) expect (.list read :: stack) rest htakes hrest

theorem takes_field {field : String × Json} (hvalue : IsRead indent field.2) :
    Bracketed.object.Takes (fieldText indent depth) stack field := by
  obtain ⟨name, v⟩ := field
  intro expect hstart read rest hrest
  have hname : Passes (stringText name) (':' :: ' ' :: writeAt indent depth v ++ rest)
      (expect, .object read :: stack) (.colon, .field read name :: stack) := by
    refine passes_token (isToken_string name) fun place => ?_
    rcases hstart with rfl | rfl <;> rfl
  have hcolon : Passes [':'] ([' '] ++ writeAt indent depth v ++ rest)
      (.colon, .field read name :: stack) (.value, .field read name :: stack) :=
    passes_token (isToken_sign rfl) fun _ => rfl
  have hblank : Passes [' '] (writeAt indent depth v ++ rest)
      (.value, .field read name :: stack) (.value, .field read name :: stack) :=
    passes_blanks (List.forall_mem_singleton.2 rfl)
  have htext := hvalue depth .value (.field read name :: stack) rest rfl hrest
  exact hname.append (hcolon.append (hblank.append htext))

theorem isRead_obj {fields : Fields} (hnames : (fields.map Prod.fst).Nodup)
    (hfields : ∀ field ∈ fields, IsRead indent field.2) : IsRead indent (obj fields) := by
  intro depth expect stack rest hexpect hrest
  have hwhole : Bracketed.object.whole fields = obj fields :=
    congrArg obj (ofPairs_of_nodup hnames)
  rw [writeAt, fieldTexts_eq_map, ← hwhole]
  exact Bracketed.object.passes_enclose (fun field hfield => takes_field (hfields field hfield))
    hexpect

theorem Legible.isRead {v : Json} (h : Legible v) : IsRead indent v := by
  induction h with
  | null => exact isRead_word (fun _ => rfl) ⟨'n', _, rfl, rfl, by decide, rfl⟩ fun _ => rfl
  | bool value =>
    cases value with
    | true => exact isRead_word (fun _ => rfl) ⟨'t', _, rfl, rfl, by decide, rfl⟩ fun _ => rfl
    | false => exact isRead_word (fun _ => rfl) ⟨'f', _, rfl, rfl, by decide, rfl⟩ fun _ => rfl
  | int hlong => exact isRead_int hlong
  | float hreads =>
    exact isRead_token (fun _ => rfl) fun _ hrest =>
      ⟨_, isToken_floatText hreads hrest, fun _ _ => rfl⟩
  | str value =>
    exact isRead_token (fun _ => rfl) fun _ _ => ⟨_, isToken_string value, fun _ _ => rfl⟩
  | arr _ ih => exact isRead_arr ih
  | obj hnames _ ih => exact isRead_obj hnames ih

/-! ## Texts -/

/-- A text on which the machine comes to a value is no text behind a byte order mark. -/
theorem readChars_of_run {cs : List Char} {v : Json} (h : run .value [] (tokens cs) = .ok v) :
    readChars cs = .ok v := by
  have hmark : (cs.head? == some '\uFEFF') = false := by
    cases cs with
    | nil => rfl
    | cons c rest =>
      rw [beq_eq_false_iff_ne]
      rintro ⟨⟩
      rw [tokens_byteOrderMark] at h
      cases h
  simp only [readChars, hmark, Bool.false_eq_true, if_false, h]

theorem read_write {v : Json} (h : Legible v) (indent : Option Nat) :
    read (write indent v) = .ok v := by
  have hread : IsRead indent v := h.isRead
  have hpasses := hread 0 .value [] [] rfl (by simp [Delimited]) 0
  rw [List.append_nil] at hpasses
  rw [read, write, String.toList_ofList]
  exact readChars_of_run hpasses

theorem readObject_write {fields : Fields} (h : Legible (.obj fields)) (indent : Option Nat) :
    readObject (write indent (.obj fields)) = .ok fields := by
  rw [readObject, read_write h]

end WorkflowCanvas.Json
