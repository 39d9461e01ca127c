import Mathlib.Data.List.DropRight
import Mathlib.Data.List.TakeDrop
import WorkflowCanvas.Decimal.Numeral

/-! Numerals in their parts: digits, a fraction and a power of ten. Main statements: a numeral is
read as the number of its parts, and a double that is read from its own numeral is written with
digits before the point that start with no zero, unless a zero is all that stands there. -/
namespace WorkflowCanvas.Decimal
set_option autoImplicit false

/-! ## Digits -/

/-- A row of digits. -/
def IsRow (cs : List Char) : Prop := ∀ c ∈ cs, c.isDigit = true

/-- A text that does not go on with a digit. -/
def NoDigit (rest : List Char) : Prop := ∀ c ∈ rest.head?, c.isDigit = false

theorem isDigit_digitChar {k : Nat} (h : k < 10) : (digitChar k).isDigit = true := by
  have hall : ∀ k : Fin 10, (digitChar k).isDigit = true := by decide
  exact hall ⟨k, h⟩

theorem exists_digitChar {c : Char} (h : c.isDigit = true) : ∃ k : Fin 10, c = digitChar k := by
  have hbounds : 48 ≤ c.toNat ∧ c.toNat ≤ 57 := by
    rw [Char.isDigit, Bool.and_eq_true, decide_eq_true_eq, decide_eq_true_eq] at h
    exact ⟨UInt32.le_iff_toNat_le.1 h.1, UInt32.le_iff_toNat_le.1 h.2⟩
  refine ⟨⟨c.toNat - 48, by omega⟩, ?_⟩
  rw [digitChar, Nat.add_sub_cancel' hbounds.1, Char.ofNat_toNat]

theorem isRow_digitsOf (n : Nat) : IsRow (digitsOf n) := by
  induction n using digitsOf.induct with
  | case1 n h =>
    rw [digitsOf, if_pos h]
    intro c hc
    rw [List.mem_singleton.1 hc]
    exact isDigit_digitChar h
  | case2 n h ih =>
    rw [digitsOf, if_neg h]
    intro c hc
    rcases List.mem_append.1 hc with hc | hc
    · exact ih c hc
    · rw [List.mem_singleton.1 hc]
      exact isDigit_digitChar (Nat.mod_lt _ (by decide))

theorem digitsOf_ne_nil (n : Nat) : digitsOf n ≠ [] := by
  rw [digitsOf]
  split <;> simp

/-- The digits of a positive number start with no zero. -/
theorem exists_digitsOf {n : Nat} (h : n ≠ 0) : ∃ d ds, digitsOf n = d :: ds ∧ d ≠ '0' := by
  induction n using digitsOf.induct with
  | case1 n hn =>
    have hall : ∀ k : Fin 10, (k : Nat) ≠ 0 → digitChar k ≠ '0' := by decide
    exact ⟨digitChar n, [], by rw [digitsOf, if_pos hn], hall ⟨n, hn⟩ h⟩
  | case2 n hn ih =>
    obtain ⟨d, ds, hds, hd⟩ := ih (by omega)
    exact ⟨d, ds ++ [digitChar (n % 10)], by rw [digitsOf, if_neg hn, hds, List.cons_append], hd⟩

theorem isRow_replicate (count : Nat) : IsRow (List.replicate count '0') := by
  intro c hc
  rw [List.eq_of_mem_replicate hc]
  decide

theorem IsRow.append {cs ds : List Char} (hc : IsRow cs) (hd : IsRow ds) : IsRow (cs ++ ds) := by
  intro c h
  rcases List.mem_append.1 h with h | h
  · exact hc c h
  · exact hd c h

theorem takeWhile_row {ds rest : List Char} (hd : IsRow ds) (hr : NoDigit rest) :
    (ds ++ rest).takeWhile Char.isDigit = ds := by
  have hnone : rest.takeWhile Char.isDigit = [] := by
    cases rest with
    | nil => rfl
    | cons c rest => rw [List.takeWhile_cons, hr c rfl, if_neg (by simp)]
  rw [List.takeWhile_append_of_pos hd, hnone, List.append_nil]

theorem spanDigits_row {ds rest : List Char} (hd : IsRow ds) (hr : NoDigit rest) :
    spanDigits (ds ++ rest) = (ds, rest) := by
  have hdrop : (ds ++ rest).dropWhile Char.isDigit = rest := by
    have hsplit := List.takeWhile_append_dropWhile (p := Char.isDigit) (l := ds ++ rest)
    rw [takeWhile_row hd hr] at hsplit
    exact List.append_cancel_left hsplit
  rw [spanDigits, List.span_eq_takeWhile_dropWhile, takeWhile_row hd hr, hdrop]

theorem ofDigits_replicate (count : Nat) : ofDigits (List.replicate count '0') = 0 := by
  have hfold : ∀ count,
      (List.replicate count '0').foldl (fun n c => 10 * n + digitValue c) 0 = 0 := by
    intro count
    induction count with
    | zero => rfl
    | succ count ih => exact ih
  exact hfold count

/-! ## Signs -/

/-- The sign of a numeral. -/
def signText (negative : Bool) : List Char := if negative then ['-'] else []

/-- A text that starts with no sign and not like a word for a double that is no number. -/
def Unmarked (cs : List Char) : Prop :=
  ∃ c rest, cs = c :: rest ∧ c ≠ '-' ∧ c ≠ '+' ∧ c.toLower ≠ 'i' ∧ c.toLower ≠ 'n'

theorem unmarked_digit {c : Char} (hc : c.isDigit = true) (rest : List Char) :
    Unmarked (c :: rest) := by
  obtain ⟨k, rfl⟩ := exists_digitChar hc
  have hall : ∀ k : Fin 10, digitChar k ≠ '-' ∧ digitChar k ≠ '+' ∧
      (digitChar k).toLower ≠ 'i' ∧ (digitChar k).toLower ≠ 'n' := by decide
  exact ⟨_, rest, rfl, hall k⟩

theorem spanSign_unmarked {cs : List Char} (h : Unmarked cs) (negative : Bool) :
    spanSign (signText negative ++ cs) = (negative, cs) := by
  obtain ⟨c, rest, rfl, hminus, hplus, -⟩ := h
  cases negative with
  | true => rfl
  | false =>
    show spanSign (c :: rest) = _
    unfold spanSign
    split
    · rename_i heq
      injection heq with hc
      exact absurd hc hminus
    · rename_i heq
      injection heq with hc
      exact absurd hc hplus
    · rfl

theorem readPlain?_unmarked {cs : List Char} (h : Unmarked cs) (negative : Bool) :
    readPlain? (signText negative ++ cs) = (readUnsigned? negative cs).map toFloat := by
  rw [readPlain?, spanSign_unmarked h]
  obtain ⟨c, rest, rfl, -, -, hi, hn⟩ := h
  have hword : ∀ first word, c.toLower ≠ first →
      (Text.lowerAscii (c :: rest) == first :: word) = false := by
    intro first word hne
    rw [beq_eq_false_iff_ne]
    intro heq
    injection heq with hc
    exact hne hc
  have htexts : "inf".toList = 'i' :: ['n', 'f'] ∧ "nan".toList = 'n' :: ['a', 'n'] ∧
      "infinity".toList = 'i' :: ['n', 'f', 'i', 'n', 'i', 't', 'y'] := by decide
  simp only [htexts, hword _ _ hi, hword _ _ hn, Bool.or_self, Bool.false_eq_true, if_false]

/-! ## Numerals -/

/-- Digits, a fraction that may be empty and a power of ten that may be absent, with its sign.
Either there is one digit zero before the point, or no zero in front; and not all parts but the
digits are missing. -/
structure Numeral where
  whole : List Char
  fraction : List Char
  power : Option (Bool × List Char)
  whole_row : IsRow whole
  fraction_row : IsRow fraction
  power_row : ∀ p ∈ power, IsRow p.2 ∧ p.2 ≠ []
  leading : whole = ['0'] ∨ ∃ d ds, whole = d :: ds ∧ d ≠ '0'
  broken : fraction = [] → power ≠ none

namespace Numeral

/-- A fraction behind its point. -/
def pointed (fraction : List Char) : List Char :=
  if fraction = [] then [] else '.' :: fraction

/-- A power of ten behind its letter. -/
def powered : Option (Bool × List Char) → List Char
  | none => []
  | some (negative, digits) => 'e' :: (if negative then '-' else '+') :: digits

/-- The text of a numeral, without a sign. -/
def text (n : Numeral) : List Char := n.whole ++ (pointed n.fraction ++ powered n.power)

/-- The number of a numeral under a sign. -/
def decimal (n : Numeral) (negative : Bool) : Decimal :=
  match n.power with
  | none => ofParts negative n.whole n.fraction false []
  | some (powerNegative, digits) => ofParts negative n.whole n.fraction powerNegative digits

variable {rest : List Char}

theorem noDigit_nil : NoDigit [] := by simp [NoDigit]

theorem noDigit_powered (power : Option (Bool × List Char)) (h : NoDigit rest) :
    NoDigit (powered power ++ rest) := by
  cases power with
  | none => exact h
  | some p =>
    intro c hc
    cases hc
    rfl

theorem noDigit_pointed (fraction : List Char) (power : Option (Bool × List Char))
    (h : NoDigit rest) : NoDigit (pointed fraction ++ (powered power ++ rest)) := by
  rw [pointed]
  split
  · exact noDigit_powered power h
  · intro c hc
    cases hc
    rfl

theorem unmarked (n : Numeral) : Unmarked n.text := by
  rcases n.leading with h | ⟨d, ds, h, -⟩
  · rw [text, h]
    exact unmarked_digit (by decide) _
  · rw [text, h]
    exact unmarked_digit (n.whole_row d (by simp [h])) _

theorem spanFraction_text (fraction : List Char) (power : Option (Bool × List Char))
    (hf : IsRow fraction) :
    spanFraction (pointed fraction ++ powered power) = (fraction, powered power) := by
  have hrest : NoDigit (powered power) := by
    have h := noDigit_powered power noDigit_nil
    rwa [List.append_nil] at h
  rw [pointed]
  split
  · rename_i hnil
    subst hnil
    cases power with
    | none => rfl
    | some p => rfl
  · exact spanDigits_row hf hrest

theorem spanSign_power (negative : Bool) (digits : List Char) :
    spanSign ((if negative then '-' else '+') :: digits) = (negative, digits) := by
  cases negative <;> rfl

theorem readUnsigned?_text (n : Numeral) (negative : Bool) :
    readUnsigned? negative n.text = some (n.decimal negative) := by
  have hafter : NoDigit (pointed n.fraction ++ powered n.power) := by
    have h := noDigit_pointed n.fraction n.power noDigit_nil
    rwa [List.append_nil] at h
  have hwhole : n.whole.isEmpty = false := by
    rcases n.leading with h | ⟨d, ds, h, -⟩ <;> simp [h]
  rw [readUnsigned?, text, spanDigits_row n.whole_row hafter]
  simp only [spanFraction_text _ _ n.fraction_row, hwhole, Bool.false_and, Bool.false_eq_true,
    if_false, decimal]
  cases hpower : n.power with
  | none => rfl
  | some p =>
    obtain ⟨powerNegative, digits⟩ := p
    obtain ⟨hrow, hne⟩ := n.power_row _ hpower
    have hdigits : spanDigits digits = (digits, []) := by
      have h := spanDigits_row hrow noDigit_nil
      rwa [List.append_nil] at h
    simp [powered, spanSign_power, hdigits, hne]

end Numeral

/-! ## How a double is written -/

variable {ds : List Char} {place : Int}

theorem noDigit_point (rest : List Char) : NoDigit ('.' :: rest) := by
  intro c hc
  cases hc
  rfl

theorem exists_powerText (p : Int) :
    ∃ negative digits, IsRow digits ∧ digits ≠ [] ∧
      powerText p = Numeral.powered (some (negative, digits)) := by
  refine ⟨decide (p < 0), if (digitsOf p.natAbs).length < 2 then '0' :: digitsOf p.natAbs
    else digitsOf p.natAbs, ?_, ?_, by simp [powerText, Numeral.powered]⟩
  · split
    · exact (isRow_replicate 1).append (isRow_digitsOf _)
    · exact isRow_digitsOf _
  · split
    · simp
    · exact digitsOf_ne_nil _

/-- Digits that start with no zero are laid out as a numeral. -/
theorem exists_numeral (hrow : IsRow ds) (hlead : ∃ d rest, ds = d :: rest ∧ d ≠ '0') :
    ∃ n : Numeral, layout ds place = n.text := by
  obtain ⟨d, rest, rfl, hd⟩ := hlead
  have hrest : IsRow rest := fun c hc => hrow c (List.mem_cons_of_mem _ hc)
  have hfirst : IsRow [d] := fun c hc => hrow c (by simp_all)
  unfold layout
  split
  · obtain ⟨negative, digits, hdigits, hne, hpower⟩ := exists_powerText (place - 1)
    refine ⟨⟨[d], rest, some (negative, digits), hfirst, hrest, ?_, .inr ⟨d, [], rfl, hd⟩,
      fun _ => by simp⟩, ?_⟩
    · rintro p ⟨⟩
      exact ⟨hdigits, hne⟩
    · rw [hpower]
      cases rest with
      | nil => rfl
      | cons e rest => simp [Numeral.text, Numeral.pointed]
  · split
    · refine ⟨⟨['0'], List.replicate (-place).toNat '0' ++ d :: rest, none, isRow_replicate 1,
        (isRow_replicate _).append hrow, by simp, .inl rfl, by simp⟩, ?_⟩
      simp [Numeral.text, Numeral.pointed, Numeral.powered]
    · split
      · refine ⟨⟨d :: rest ++ List.replicate (place.toNat - (d :: rest).length) '0', ['0'], none,
          hrow.append (isRow_replicate _), isRow_replicate 1, by simp, .inr ⟨d, _, rfl, hd⟩,
          by simp⟩, ?_⟩
        simp [Numeral.text, Numeral.pointed, Numeral.powered]
      · rename_i hpositive hshort
        obtain ⟨k, hk⟩ : ∃ k, place.toNat = k + 1 := ⟨place.toNat - 1, by omega⟩
        have htake : (d :: rest).take place.toNat = d :: rest.take k := by rw [hk]; rfl
        have hdrop : (d :: rest).drop place.toNat ≠ [] := by
          rw [ne_eq, List.drop_eq_nil_iff]
          omega
        refine ⟨⟨(d :: rest).take place.toNat, (d :: rest).drop place.toNat, none,
          fun c hc => hrow c (List.mem_of_mem_take hc),
          fun c hc => hrow c (List.mem_of_mem_drop hc), by simp, .inr ⟨d, _, htake, hd⟩,
          fun h => absurd h hdrop⟩, ?_⟩
        simp [Numeral.text, Numeral.pointed, Numeral.powered, hdrop]

/-- The digits of a decimal that are written: none when it is zero, else they start with no zero. -/
theorem kept_cases (m : Nat) (h : (digitsOf m).rdropWhile (· == '0') ≠ []) :
    IsRow ((digitsOf m).rdropWhile (· == '0')) ∧
      ∃ d rest, (digitsOf m).rdropWhile (· == '0') = d :: rest ∧ d ≠ '0' := by
  have hpre := List.rdropWhile_prefix (· == '0') (digitsOf m)
  refine ⟨fun c hc => isRow_digitsOf m c (hpre.subset hc), ?_⟩
  have hm : m ≠ 0 := by
    rintro rfl
    rw [digitsOf, if_pos (by decide)] at h
    exact h (by decide)
  obtain ⟨d, ds, hds, hd⟩ := exists_digitsOf hm
  cases hkept : (digitsOf m).rdropWhile (· == '0') with
  | nil => exact absurd hkept h
  | cons c rest =>
    rw [hkept, hds, List.cons_prefix_cons] at hpre
    exact ⟨c, rest, rfl, hpre.1 ▸ hd⟩

theorem toFloat_zero (negative : Bool) (exponent : Int) :
    toFloat ⟨negative, 0, exponent⟩ = if negative then -0.0 else 0.0 := by
  simp [toFloat]

theorem readUnsigned?_zeros (negative : Bool) {before : Nat} (after : Nat) (h : before ≠ 0) :
    (readUnsigned? negative (List.replicate before '0' ++ '.' :: List.replicate after '0')).map
      toFloat = some (if negative then -0.0 else 0.0) := by
  have hspan : spanDigits (List.replicate after '0') = (List.replicate after '0', []) := by
    have hrow := spanDigits_row (isRow_replicate after) Numeral.noDigit_nil
    rwa [List.append_nil] at hrow
  have hzero : ofParts negative (List.replicate before '0') (List.replicate after '0') false [] =
      ⟨negative, 0, -(after : Int)⟩ := by
    rw [ofParts, ← List.replicate_add, ofDigits_replicate]
    simp [ofDigits]
  have hsome : (List.replicate before '0').isEmpty = false := by simp [h]
  rw [readUnsigned?, spanDigits_row (isRow_replicate before) (noDigit_point _)]
  simp only [spanFraction, hspan, hsome, Bool.false_and, Bool.false_eq_true, if_false,
    Option.map_some, hzero, toFloat_zero]

/-- Without digits a layout is no numeral, or one of zero. -/
theorem readPlain?_layout_nil (negative : Bool) :
    readPlain? (signText negative ++ layout [] place) = none ∨
      readPlain? (signText negative ++ layout [] place) = some (if negative then -0.0 else 0.0) := by
  unfold layout
  split
  · left
    have hunmarked : Unmarked (powerText (place - 1)) := ⟨'e', _, rfl, by decide⟩
    rw [readPlain?_unmarked hunmarked]
    rfl
  · right
    have hpoint : ∀ before after, before ≠ 0 → readPlain? (signText negative ++
        (List.replicate before '0' ++ '.' :: List.replicate after '0')) =
          some (if negative then -0.0 else 0.0) := by
      intro before after hbefore
      obtain ⟨k, rfl⟩ : ∃ k, before = k + 1 := ⟨before - 1, by omega⟩
      have hunmarked : Unmarked (List.replicate (k + 1) '0' ++ '.' :: List.replicate after '0') :=
        unmarked_digit (by decide) _
      rw [readPlain?_unmarked hunmarked, readUnsigned?_zeros negative after hbefore]
    split
    · have h := hpoint 1 (-place).toNat (by decide)
      rwa [List.append_nil]
    · rename_i hplace
      rw [List.length_nil, if_pos (Nat.zero_le _)]
      exact hpoint (place.toNat - 0) 1 (by omega)

/-! ## Doubles that are read from their own numerals -/

/-- The numeral of a double is read as that double. -/
def ReadsBack (x : Float) : Prop := readPlain? (floatText plainWords x) = some x

def zero : Numeral where
  whole := ['0']
  fraction := ['0']
  power := none
  whole_row := isRow_replicate 1
  fraction_row := isRow_replicate 1
  power_row := by simp
  leading := .inl rfl
  broken := by simp

theorem floatText_cases {x : Float} (h : ReadsBack x) :
    (x = 0.0 / 0.0 ∧ ∀ words, floatText words x = words.undefined) ∨
    (∃ negative, x = (if negative then -(1.0 / 0.0) else 1.0 / 0.0) ∧
      ∀ words, floatText words x = signText negative ++ words.infinite) ∨
    ∃ (negative : Bool) (n : Numeral), x = (n.decimal negative).toFloat ∧
      ∀ words, floatText words x = signText negative ++ n.text := by
  obtain ⟨negative, hsign⟩ : ∃ negative,
      (if x.toBits.toNat < Nat.pow 2 63 then [] else ['-']) = signText negative := by
    split
    · exact ⟨false, rfl⟩
    · exact ⟨true, rfl⟩
  have hnumeral : ∀ n : Numeral, (∀ words, floatText words x = signText negative ++ n.text) →
      x = (n.decimal negative).toFloat := by
    intro n htext
    rw [ReadsBack, htext, readPlain?_unmarked n.unmarked, n.readUnsigned?_text] at h
    exact (Option.some.inj h).symm
  by_cases hnan : x.isNaN = true
  · have htext : ∀ words, floatText words x = words.undefined := by
      intro words
      rw [floatText, if_pos hnan]
    rw [ReadsBack, htext] at h
    exact .inl ⟨(Option.some.inj h).symm, htext⟩
  by_cases hzero : (x.abs == 0.0) = true
  · have htext : ∀ words, floatText words x = signText negative ++ zero.text := by
      intro words
      simp only [floatText, hnan, hzero, hsign, if_true, if_false, Bool.false_eq_true]
      rfl
    exact .inr (.inr ⟨negative, zero, hnumeral zero htext, htext⟩)
  by_cases hinf : x.abs.isInf = true
  · have htext : ∀ words, floatText words x = signText negative ++ words.infinite := by
      intro words
      simp only [floatText, hnan, hzero, hinf, hsign, if_true, if_false, Bool.false_eq_true]
    rw [ReadsBack, htext] at h
    refine .inr (.inl ⟨negative, ?_, htext⟩)
    cases negative <;> exact (Option.some.inj h).symm
  have htext : ∀ words, floatText words x = signText negative ++ text (shortest x.abs) := by
    intro words
    simp only [floatText, hnan, hzero, hinf, hsign, if_false, Bool.false_eq_true]
  have hlayout : text (shortest x.abs) =
      layout ((digitsOf (shortest x.abs).digits).rdropWhile (· == '0'))
        ((digitsOf (shortest x.abs).digits).length + (shortest x.abs).exponent) := rfl
  by_cases hkept : (digitsOf (shortest x.abs).digits).rdropWhile (· == '0') = []
  · -- A numeral without digits stands for zero, which has a numeral of its own.
    rw [ReadsBack, htext, hlayout, hkept] at h
    rcases readPlain?_layout_nil negative with hnone | hsome
    · cases hnone.symm.trans h
    · obtain rfl := Option.some.inj (hsome.symm.trans h)
      exact absurd (by cases negative <;> decide) hzero
  · obtain ⟨hrow, hlead⟩ := kept_cases _ hkept
    obtain ⟨n, hn⟩ := exists_numeral hrow hlead
    have htext : ∀ words, floatText words x = signText negative ++ n.text := by
      intro words
      rw [htext, hlayout, hn]
    exact .inr (.inr ⟨negative, n, hnumeral n htext, htext⟩)

end WorkflowCanvas.Decimal
