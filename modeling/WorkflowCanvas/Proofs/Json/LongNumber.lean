import WorkflowCanvas.Json.Reader

/-! Texts that are not read for the length of a number alone. Main statement: a text is read, or
malformed, or its value is no object, exactly when reading does not come, with no fault before, to
a value that is a whole number of more digits than the limit. -/
namespace WorkflowCanvas.Json
set_option autoImplicit false

variable {expect next : Expect} {stack : List Frame} {place digits : Nat} {token : Token}

/-! ## The machine part of the way -/

/-- Tokens behind others, which have been taken from a text before them. -/
def Tokens.behind (rest : Tokens) : List (Nat × Token) → Tokens
  | [] => rest
  | (place, token) :: taken => .more place token (rest.behind taken)

/-- Runs the machine over tokens that need not be all. -/
def steps (expect : Expect) (stack : List Frame) :
    List (Nat × Token) → Except Refusal (Expect × List Frame)
  | [] => .ok (expect, stack)
  | (place, token) :: taken =>
    match step expect place token stack with
    | .ok (next, stack) => steps next stack taken
    | .error refusal => .error refusal

theorem run_behind {taken : List (Nat × Token)} {stack' : List Frame} {rest : Tokens}
    (h : steps expect stack taken = .ok (next, stack')) :
    run expect stack (rest.behind taken) = run next stack' rest := by
  induction taken generalizing expect stack with
  | nil => cases h; rfl
  | cons t taken ih =>
    obtain ⟨place, token⟩ := t
    simp only [steps] at h
    simp only [Tokens.behind, run]
    cases hstep : step expect place token stack with
    | error refusal => simp only [hstep] at h; cases h
    | ok reached => simp only [hstep] at h ⊢; exact ih h

/-! ## Numbers that are too long for the machine -/

/-- Whether a value may come next. -/
def Expect.takesValue : Expect → Bool
  | .value | .firstItem => true
  | _ => false

theorem startValue_eq_longNumber_iff :
    startValue place token stack = .error (.longNumber digits) ↔
      ∃ n, token = .whole n digits ∧ digitLimit < digits := by
  cases token with
  | whole n written =>
    simp only [startValue]
    split
    · rename_i h
      constructor
      · intro heq
        cases heq
        exact ⟨n, rfl, h⟩
      · rintro ⟨m, heq, -⟩
        cases heq
        rfl
    · rename_i h
      constructor
      · intro heq
        cases heq
      · rintro ⟨m, heq, hlong⟩
        cases heq
        exact absurd hlong h
  | _ => simp [startValue]

theorem startField_ne_longNumber :
    startField place token stack ≠ .error (.longNumber digits) := by
  unfold startField
  intro h
  split at h
  · split at h <;> cases h
  · cases h

theorem afterValue_ne_longNumber :
    afterValue place token stack ≠ .error (.longNumber digits) := by
  unfold afterValue
  intro h
  split at h
  · split at h <;> cases h
  · split at h <;> cases h
  · cases h

/-- A single step refuses a number for its length only where a value may come. -/
theorem step_eq_longNumber_iff :
    step expect place token stack = .error (.longNumber digits) ↔
      expect.takesValue = true ∧ ∃ n, token = .whole n digits ∧ digitLimit < digits := by
  cases expect with
  | value => simp [step, Expect.takesValue, startValue_eq_longNumber_iff]
  | firstItem =>
    cases token with
    | closeArr => simp [step, Expect.takesValue]
    | _ => simp [step, Expect.takesValue, startValue_eq_longNumber_iff]
  | firstName =>
    cases token with
    | closeObj => simp [step, Expect.takesValue]
    | _ => simp [step, Expect.takesValue, startField_ne_longNumber]
  | name => simp [step, Expect.takesValue, startField_ne_longNumber]
  | colon => cases token <;> simp [step, Expect.takesValue]
  | delimiter => simp [step, Expect.takesValue, afterValue_ne_longNumber]
  | nothing result => simp [step, Expect.takesValue]

theorem finish_ne_longNumber {reason : Stop} :
    finish expect place reason ≠ .error (.longNumber digits) := by
  cases expect <;> cases reason <;> simp [finish]

/-- The machine takes tokens without a fault and comes, where a value may come, to a whole number of
so many digits, more than the limit. -/
def ComesToLong (expect : Expect) (stack : List Frame) (place digits : Nat) (ts : Tokens) : Prop :=
  ∃ taken next stack' n rest, ts = (Tokens.more place (.whole n digits) rest).behind taken ∧
    steps expect stack taken = .ok (next, stack') ∧ next.takesValue = true ∧ digitLimit < digits

theorem run_of_comesToLong {ts : Tokens} (h : ComesToLong expect stack place digits ts) :
    run expect stack ts = .error (.longNumber digits) := by
  obtain ⟨taken, next, stack', n, rest, rfl, hsteps, hvalue, hlong⟩ := h
  have hstep : step next place (.whole n digits) stack' = .error (.longNumber digits) :=
    step_eq_longNumber_iff.2 ⟨hvalue, n, rfl, hlong⟩
  rw [run_behind hsteps, run, hstep]

theorem run_eq_longNumber_iff {ts : Tokens} : run expect stack ts = .error (.longNumber digits) ↔
    ∃ place, ComesToLong expect stack place digits ts := by
  refine ⟨fun h => ?_, fun ⟨place, h⟩ => run_of_comesToLong h⟩
  induction ts generalizing expect stack with
  | stop place reason => exact absurd h finish_ne_longNumber
  | more place token rest ih =>
    rw [run] at h
    cases hstep : step expect place token stack with
    | error refusal =>
      rw [hstep] at h
      cases h
      obtain ⟨hvalue, n, rfl, hlong⟩ := step_eq_longNumber_iff.1 hstep
      exact ⟨place, [], expect, stack, n, rest, rfl, rfl, hvalue, hlong⟩
    | ok reached =>
      simp only [hstep] at h
      obtain ⟨there, taken, next, stack', n, rest', rfl, hsteps, hvalue, hlong⟩ := ih h
      refine ⟨there, (place, token) :: taken, next, stack', n, rest', rfl, ?_, hvalue, hlong⟩
      simp only [steps, hstep]
      exact hsteps

/-! ## Digits of a text -/

/-- How many digits stand in a row at a place of a text, behind a minus sign if there is one. -/
def digitsAt (cs : List Char) (place : Nat) : Nat :=
  match cs.drop place with
  | '-' :: rest => (rest.takeWhile Char.isDigit).length
  | rest => (rest.takeWhile Char.isDigit).length

variable {negative : Bool} {whole cs : List Char} {n : Int} {length : Nat}

theorem digitsAt_zero_of_ne (h : ∀ rest, cs ≠ '-' :: rest) :
    digitsAt cs 0 = (cs.takeWhile Char.isDigit).length := by
  rw [digitsAt, List.drop_zero]
  split
  · rename_i rest
    exact absurd rfl (h rest)
  · rfl

theorem digits_of_numberFrom
    (h : numberFrom negative whole cs = (.whole n digits, length)) : digits = whole.length := by
  unfold numberFrom at h
  dsimp only at h
  split at h
  · cases h
  · split at h
    · cases h
      rfl
    · cases h

/-- A literal of more than one digit does not start with a zero, and takes all digits in a row. -/
theorem digits_of_unsigned (h : unsigned? negative cs = some (.whole n digits, length))
    (hlong : 1 < digits) : digits = (cs.takeWhile Char.isDigit).length := by
  unfold unsigned? at h
  split at h
  · have hone := digits_of_numberFrom (Option.some.inj h)
    rw [List.length_singleton] at hone
    omega
  · dsimp only at h
    split at h
    · cases h
    · exact digits_of_numberFrom (Option.some.inj h)

theorem word_ne_whole : word? cs ≠ some (.whole n digits, length) := by
  unfold word?
  cases words.find? fun w => w.1.isPrefixOf cs with
  | none => simp
  | some w => simp

theorem digits_of_literal (h : literal? cs = some (.whole n digits, length)) (hlong : 1 < digits) :
    digitsAt cs 0 = digits := by
  unfold literal? at h
  cases hword : word? cs with
  | some found =>
    rw [hword, Option.some_or] at h
    exact absurd (hword.trans h) word_ne_whole
  | none =>
    rw [hword, Option.none_or] at h
    split at h
    · rename_i rest
      obtain ⟨⟨token, size⟩, hfound, heq⟩ := Option.map_eq_some_iff.1 h
      cases heq
      exact (digits_of_unsigned hfound hlong).symm
    · rename_i hminus
      rw [digitsAt_zero_of_ne hminus]
      exact (digits_of_unsigned h hlong).symm

theorem sign_ne_whole {c : Char} : sign? c ≠ some (.whole n digits) := by
  unfold sign?
  split <;> simp

theorem digits_of_tokenAt {c : Char} {rest : List Char}
    (h : tokenAt place c rest = .ok (.whole n digits, length)) (hlong : 1 < digits) :
    digitsAt (c :: rest) 0 = digits := by
  unfold tokenAt at h
  split at h
  · rename_i hsign
    cases h
    exact absurd hsign sign_ne_whole
  · split at h
    · split at h <;> cases h
    · split at h
      · rename_i hfound
        cases h
        exact digits_of_literal hfound hlong
      · cases h

/-- The digit count of a token is the number of digits in the text at the token's place. -/
theorem digits_of_cut {start skip : Nat} {taken : List (Nat × Token)} {rest : Tokens}
    (h : cut start skip cs = (Tokens.more place (.whole n digits) rest).behind taken)
    (hlong : 1 < digits) : start ≤ place ∧ digitsAt cs (place - start) = digits := by
  induction cs generalizing start skip taken with
  | nil => cases taken <;> simp [cut, Tokens.behind] at h
  | cons c cs ih =>
    -- A character is skipped, is white space or starts a token; the rest is cut from one place on.
    have hnext : ∀ {skip : Nat} {taken : List (Nat × Token)},
        cut (start + 1) skip cs = (Tokens.more place (.whole n digits) rest).behind taken →
          start ≤ place ∧ digitsAt (c :: cs) (place - start) = digits := by
      intro skip taken hcut
      obtain ⟨hplace, hdigits⟩ := ih hcut
      have hshift : place - start = (place - (start + 1)) + 1 := by omega
      refine ⟨by omega, ?_⟩
      rw [hshift, digitsAt, List.drop_succ_cons]
      exact hdigits
    cases skip with
    | succ skip => exact hnext h
    | zero =>
      rw [cut] at h
      split at h
      · exact hnext h
      · split at h
        · rename_i token length hfound
          cases taken with
          | nil =>
            cases h
            rw [Nat.sub_self]
            exact ⟨Nat.le_refl _, digits_of_tokenAt hfound hlong⟩
          | cons t taken =>
            injection h with _ _ hrest
            exact hnext hrest
        · cases taken <;> cases h

/-! ## Texts -/

/-- Reading a text comes, with no fault before, to a value that is a whole number of so many
digits, more than the limit; they stand at a place of the text. -/
def StopsAtNumber (cs : List Char) (digits : Nat) : Prop :=
  ∃ place, ComesToLong .value [] place digits (tokens cs) ∧ digitsAt cs place = digits

theorem run_tokens_eq_longNumber_iff :
    run .value [] (tokens cs) = .error (.longNumber digits) ↔ StopsAtNumber cs digits := by
  rw [run_eq_longNumber_iff]
  refine ⟨fun ⟨place, h⟩ => ⟨place, h, ?_⟩, fun ⟨place, h, _⟩ => ⟨place, h⟩⟩
  obtain ⟨taken, -, -, n, rest, htokens, -, -, hlong⟩ := h
  have hone : 1 < digits := Nat.lt_of_le_of_lt (by decide) hlong
  exact (digits_of_cut htokens hone).2

theorem tokens_byteOrderMark (rest : List Char) : tokens ('\uFEFF' :: rest) = .stop 0 .stray := rfl

theorem readChars_eq_longNumber_iff :
    readChars cs = .error (.longNumber digits) ↔ StopsAtNumber cs digits := by
  rw [← run_tokens_eq_longNumber_iff, readChars]
  split
  · rename_i hmark
    cases cs with
    | nil => cases hmark
    | cons c rest =>
      obtain rfl : c = '\uFEFF' := by simpa using hmark
      rw [tokens_byteOrderMark]
      simp [run, finish]
  · split
    · rename_i v hrun
      simp [hrun]
    · rename_i what place hrun
      simp [hrun]
    · rename_i written hrun
      simp [hrun]

theorem readObject_eq_longNumber_iff {text : String} :
    readObject text = .error (.longNumber digits) ↔ StopsAtNumber text.toList digits := by
  rw [← readChars_eq_longNumber_iff, readObject, read]
  split
  · rename_i fields hread
    simp [hread]
  · rename_i v _ hread
    simp [hread]
  · rename_i fault hread
    rw [hread]
    simp

/-- What is said about a text that is not read is about the text, unless it is the length of a
number. -/
theorem readObject_told_iff (text : String) :
    ((∃ fields, readObject text = .ok fields) ∨
      (∃ complaint spot, readObject text = .error (.malformed complaint spot)) ∨
      ∃ kind, readObject text = .error (.notObject kind)) ↔
    ∀ digits, ¬ StopsAtNumber text.toList digits := by
  simp only [← readObject_eq_longNumber_iff]
  cases readObject text with
  | ok fields => simp
  | error fault => cases fault <;> simp

/-! ## A row of ones -/

/-- An object of one field, whose value is a row of so many ones. -/
def rowChars (count : Nat) : List Char :=
  '{' :: '"' :: 'a' :: '"' :: ':' :: (List.replicate count '1' ++ ['}'])

theorem takeWhile_ones (count : Nat) :
    (List.replicate count '1' ++ ['}']).takeWhile Char.isDigit = List.replicate count '1' := by
  rw [List.takeWhile_append_of_pos]
  · simp [Char.isDigit]
  · intro c hc
    rw [List.eq_of_mem_replicate hc]
    rfl

theorem tokenAt_ones (place count : Nat) :
    ∃ n, tokenAt place '1' (List.replicate count '1' ++ ['}']) =
      .ok (.whole n (count + 1), count + 1) := by
  have hword : word? ('1' :: (List.replicate count '1' ++ ['}'])) = none := rfl
  have hdigits : ('1' :: (List.replicate count '1' ++ ['}'])).takeWhile Char.isDigit =
      List.replicate (count + 1) '1' := takeWhile_ones (count + 1)
  have hrest : ('1' :: (List.replicate count '1' ++ ['}'])).drop
      (List.replicate (count + 1) '1').length = ['}'] := by
    rw [← List.cons_append, ← List.replicate_succ, List.drop_left]
  have hunsigned : unsigned? false ('1' :: (List.replicate count '1' ++ ['}'])) =
      some (numberFrom false (List.replicate (count + 1) '1') ['}']) := by
    rw [unsigned?, hdigits, hrest]
    · rfl
    · rintro rest ⟨⟩
  have hnumber : numberFrom false (List.replicate (count + 1) '1') ['}'] =
      (.whole (Decimal.ofDigits (List.replicate (count + 1) '1')) (count + 1), count + 1) := by
    simp [numberFrom, fractionPart, powerPart]
  refine ⟨Decimal.ofDigits (List.replicate (count + 1) '1'), ?_⟩
  simp [tokenAt, sign?, literal?, hword, hunsigned, hnumber]

theorem tokens_rowChars (count : Nat) : ∃ n rest, tokens (rowChars (count + 1)) =
    (Tokens.more 5 (.whole n (count + 1)) rest).behind
      [(0, .openObj), (1, .text (String.ofList ['a'])), (4, .colon)] := by
  obtain ⟨n, hn⟩ := tokenAt_ones 5 count
  refine ⟨n, cut 6 count (List.replicate count '1' ++ ['}']), ?_⟩
  have hcut : cut 5 0 ('1' :: (List.replicate count '1' ++ ['}'])) =
      .more 5 (.whole n (count + 1)) (cut 6 count (List.replicate count '1' ++ ['}'])) := by
    rw [cut, hn]
    rfl
  rw [Tokens.behind, Tokens.behind, Tokens.behind, Tokens.behind, ← hcut]
  rfl

theorem stopsAtNumber_rowChars {count : Nat} (h : digitLimit < count) :
    StopsAtNumber (rowChars count) count := by
  obtain ⟨count, rfl⟩ : ∃ k, count = k + 1 := ⟨count - 1, by omega⟩
  obtain ⟨n, rest, htokens⟩ := tokens_rowChars count
  have hcomes : ComesToLong .value [] 5 (count + 1) (tokens (rowChars (count + 1))) :=
    ⟨_, .value, [.field [] (String.ofList ['a'])], n, rest, htokens, rfl, rfl, h⟩
  exact run_tokens_eq_longNumber_iff.1 (run_of_comesToLong hcomes)

theorem readObject_rowChars {count : Nat} (h : digitLimit < count) :
    readObject (String.ofList (rowChars count)) = .error (.longNumber count) := by
  rw [readObject_eq_longNumber_iff, String.toList_ofList]
  exact stopsAtNumber_rowChars h

end WorkflowCanvas.Json
