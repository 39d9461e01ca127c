import WorkflowCanvas.Json.Reader
import WorkflowCanvas.Json.Writer
import WorkflowCanvas.Proofs.Decimal.Numeral

/-! Tokens of text that was written. Main statements: the text of a string, of a whole number and
of a double is one token, that of the value, whatever stands behind it that continues no number. -/
namespace WorkflowCanvas.Json
open Decimal (IsRow NoDigit Numeral signText)
set_option autoImplicit false

/-! ## Numbers -/

/-- A text that is empty or starts like what stands behind a value. -/
def Delimited (rest : List Char) : Prop := ∀ c ∈ rest.head?, c ∈ [',', ']', '}', '\n']

variable {rest : List Char}

theorem Delimited.cases (h : Delimited rest) :
    rest = [] ∨ ∃ c more, rest = c :: more ∧ c ∈ [',', ']', '}', '\n'] := by
  cases rest with
  | nil => exact .inl rfl
  | cons c more => exact .inr ⟨c, more, rfl, h c rfl⟩

theorem Delimited.noDigit (h : Delimited rest) : NoDigit rest := by
  intro c hc
  have hmem := h c hc
  simp only [List.mem_cons, List.not_mem_nil, or_false] at hmem
  rcases hmem with rfl | rfl | rfl | rfl <;> rfl

theorem fractionPart_delimited (h : Delimited rest) : fractionPart rest = [] := by
  rcases h.cases with rfl | ⟨c, more, rfl, hc⟩
  · rfl
  · simp only [List.mem_cons, List.not_mem_nil, or_false] at hc
    rcases hc with rfl | rfl | rfl | rfl <;> rfl

theorem powerPart_delimited (h : Delimited rest) : powerPart rest = none := by
  rcases h.cases with rfl | ⟨c, more, rfl, hc⟩
  · rfl
  · simp only [List.mem_cons, List.not_mem_nil, or_false] at hc
    rcases hc with rfl | rfl | rfl | rfl <;> rfl

theorem numberFrom_delimited (negative : Bool) (whole : List Char) (h : Delimited rest) :
    numberFrom negative whole rest =
      (.whole (if negative then -(Decimal.ofDigits whole : Int) else Decimal.ofDigits whole)
        whole.length, whole.length) := by
  simp [numberFrom, fractionPart_delimited h, powerPart_delimited h]

theorem fractionPart_numeral (n : Numeral) (h : Delimited rest) :
    fractionPart (Numeral.pointed n.fraction ++ (Numeral.powered n.power ++ rest)) =
      n.fraction := by
  have hrest := Numeral.noDigit_powered n.power h.noDigit
  rw [Numeral.pointed]
  split
  · rename_i hnil
    rw [hnil]
    cases hpower : n.power with
    | none => exact fractionPart_delimited h
    | some p => rfl
  · exact Decimal.takeWhile_row n.fraction_row hrest

theorem powerPart_powered {negative : Bool} {digits : List Char} (hrow : IsRow digits)
    (hne : digits ≠ []) (h : Delimited rest) :
    powerPart (Numeral.powered (some (negative, digits)) ++ rest) =
      some (negative, digits, (Numeral.powered (some (negative, digits))).length) := by
  have hsign : Decimal.spanSign ((if negative then '-' else '+') :: (digits ++ rest)) =
      (negative, digits ++ rest) := Numeral.spanSign_power negative _
  have htake : (digits ++ rest).takeWhile Char.isDigit = digits :=
    Decimal.takeWhile_row hrow h.noDigit
  simp [powerPart, Numeral.powered, hsign, htake, hne]
  omega

/-- The digits of a numeral, with what stands behind them, are its number. -/
theorem numberFrom_numeral (n : Numeral) (negative : Bool) (h : Delimited rest) :
    numberFrom negative n.whole (Numeral.pointed n.fraction ++ (Numeral.powered n.power ++ rest)) =
      (.constant (.float (n.decimal negative).toFloat), n.text.length) := by
  have hlength : (if n.fraction.isEmpty = true then 0 else n.fraction.length + 1) =
      (Numeral.pointed n.fraction).length := by
    cases hf : n.fraction <;> simp [Numeral.pointed]
  rw [numberFrom]
  simp only [fractionPart_numeral n h, hlength, List.drop_left]
  cases hpower : n.power with
  | none =>
    have hfraction : n.fraction.isEmpty = false := by
      cases hf : n.fraction with
      | nil => exact absurd hpower (n.broken hf)
      | cons c cs => rfl
    simp [powerPart_delimited h, hfraction, Numeral.decimal, hpower, Numeral.text,
      Numeral.powered]
  | some p =>
    obtain ⟨powerNegative, digits⟩ := p
    obtain ⟨hrow, hne⟩ := n.power_row _ hpower
    simp [powerPart_powered hrow hne h, Numeral.decimal, hpower, Numeral.text, Nat.add_assoc]

theorem unsigned?_row (negative : Bool) {whole after : List Char} (hrow : IsRow whole)
    (hlead : whole = ['0'] ∨ ∃ d ds, whole = d :: ds ∧ d ≠ '0') (hafter : NoDigit after) :
    unsigned? negative (whole ++ after) = some (numberFrom negative whole after) := by
  rcases hlead with rfl | ⟨d, ds, rfl, hd⟩
  · rfl
  · rw [unsigned?, Decimal.takeWhile_row hrow hafter, List.drop_left]
    · rfl
    · rintro cs heq
      injection heq with hzero
      exact hd hzero

theorem word?_digit (negative : Bool) {c : Char} (hc : c.isDigit = true) (more : List Char) :
    word? (signText negative ++ c :: more) = none := by
  obtain ⟨k, rfl⟩ := Decimal.exists_digitChar hc
  have hall : ∀ k : Fin 10, Decimal.digitChar k ≠ 'n' ∧ Decimal.digitChar k ≠ 't' ∧
      Decimal.digitChar k ≠ 'f' ∧ Decimal.digitChar k ≠ 'N' ∧ Decimal.digitChar k ≠ 'I' ∧
      Decimal.digitChar k ≠ '-' := by decide
  obtain ⟨hn, ht, hf, hN, hI, hminus⟩ := hall k
  have hwords : words.map Prod.fst = [['n', 'u', 'l', 'l'], ['t', 'r', 'u', 'e'],
      ['f', 'a', 'l', 's', 'e'], ['N', 'a', 'N'], ['I', 'n', 'f', 'i', 'n', 'i', 't', 'y'],
      ['-', 'I', 'n', 'f', 'i', 'n', 'i', 't', 'y']] := rfl
  rw [word?, Option.map_eq_none_iff, List.find?_eq_none]
  intro w hw
  have hmem := List.mem_map_of_mem (f := Prod.fst) hw
  rw [hwords] at hmem
  simp only [List.mem_cons, List.not_mem_nil, or_false] at hmem
  rcases hmem with h | h | h | h | h | h <;> rw [h] <;> cases negative <;>
    simp [signText, List.isPrefixOf, Ne.symm hn, Ne.symm ht, Ne.symm hf, Ne.symm hN, Ne.symm hI,
      Ne.symm hminus]

/-- A number starts with a digit, behind its sign. -/
theorem literal?_signed (negative : Bool) {cs : List Char} (hcs : Decimal.Unmarked cs)
    (hword : word? (signText negative ++ cs) = none) :
    literal? (signText negative ++ cs) =
      (unsigned? negative cs).map fun found => (found.1, found.2 + (signText negative).length) := by
  cases negative with
  | true =>
    have hcons : signText true ++ cs = '-' :: cs := rfl
    rw [hcons] at hword ⊢
    rw [literal?, hword, Option.none_or]
    rfl
  | false =>
    obtain ⟨c, more, rfl, hminus, -⟩ := hcs
    have hcons : signText false ++ c :: more = c :: more := rfl
    rw [hcons] at hword ⊢
    rw [literal?, hword, Option.none_or]
    · simp [signText]
    · intro rest heq
      injection heq with hc
      exact hminus hc

theorem literal?_row (negative : Bool) {whole after : List Char} (hrow : IsRow whole)
    (hlead : whole = ['0'] ∨ ∃ d ds, whole = d :: ds ∧ d ≠ '0') (hafter : NoDigit after)
    {token : Token} {length : Nat} (h : numberFrom negative whole after = (token, length)) :
    literal? (signText negative ++ (whole ++ after)) =
      some (token, length + (signText negative).length) := by
  obtain ⟨d, ds, rfl⟩ : ∃ d ds, whole = d :: ds := by
    rcases hlead with rfl | ⟨d, ds, rfl, -⟩
    · exact ⟨_, _, rfl⟩
    · exact ⟨d, ds, rfl⟩
  have hd : d.isDigit = true := hrow d List.mem_cons_self
  have hunsigned := unsigned?_row negative hrow hlead hafter
  rw [List.cons_append] at hunsigned ⊢
  rw [literal?_signed negative (Decimal.unmarked_digit hd _) (word?_digit negative hd _),
    hunsigned, h]
  rfl

theorem intText_eq (n : Int) :
    Decimal.intText n = signText (decide (n < 0)) ++ Decimal.digitsOf n.natAbs := by
  rw [Decimal.intText, signText]
  by_cases h : n < 0 <;> simp [h]

theorem literal?_intText (n : Int) (h : Delimited rest) :
    literal? (Decimal.intText n ++ rest) =
      some (.whole n (Decimal.digitCount n.natAbs), (Decimal.intText n).length) := by
  have hlead : Decimal.digitsOf n.natAbs = ['0'] ∨
      ∃ d ds, Decimal.digitsOf n.natAbs = d :: ds ∧ d ≠ '0' := by
    by_cases hn : n.natAbs = 0
    · rw [hn]
      exact .inl (by rw [Decimal.digitsOf, if_pos (by decide)]; rfl)
    · exact .inr (Decimal.exists_digitsOf hn)
  have hvalue : (if decide (n < 0) = true then -(n.natAbs : Int) else n.natAbs) = n := by
    split
    · rename_i hn
      rw [decide_eq_true_eq] at hn
      omega
    · rename_i hn
      rw [decide_eq_true_eq] at hn
      omega
  have hnumber := numberFrom_delimited (decide (n < 0)) (Decimal.digitsOf n.natAbs) h
  rw [Decimal.ofDigits_digitsOf, hvalue] at hnumber
  rw [intText_eq, List.append_assoc,
    literal?_row _ (Decimal.isRow_digitsOf _) hlead h.noDigit hnumber, List.length_append,
    Nat.add_comm]
  rfl

/-- A double that is read from its numeral is read from its text in a document. -/
theorem literal?_floatText {x : Float} (hx : Decimal.ReadsBack x) (h : Delimited rest) :
    literal? (floatText x ++ rest) = some (.constant (.float x), (floatText x).length) := by
  rw [floatText]
  rcases Decimal.floatText_cases hx with ⟨rfl, htext⟩ | ⟨negative, rfl, htext⟩ |
    ⟨negative, n, hvalue, htext⟩
  · rw [htext]
    rfl
  · rw [htext]
    cases negative <;> rfl
  · have hnumber := numberFrom_numeral n negative h
    rw [← hvalue] at hnumber
    rw [htext, List.append_assoc, Numeral.text, List.append_assoc, List.append_assoc,
      literal?_row negative n.whole_row n.leading (Numeral.noDigit_pointed _ _ h.noDigit) hnumber,
      List.length_append, Nat.add_comm]
    rfl

/-! ## Strings -/

/-- The code units of a character: two beyond the basic plane. -/
def unitsOf (c : Char) : List Nat :=
  if c.toNat < 0x10000 then [c.toNat]
  else [0xD800 + (c.toNat - 0x10000) / 0x400, 0xDC00 + (c.toNat - 0x10000) % 0x400]

/-- The four ways in which a character is written. -/
theorem charText_cases (c : Char) :
    (∃ d, charText c = ['\\', d] ∧ d ≠ 'u' ∧ escaped? d = some c ∧ c.toNat < 0x10000) ∨
    (charText c = [c] ∧ c ≠ '"' ∧ c ≠ '\\' ∧ 0x20 ≤ c.toNat ∧ c.toNat < 0x7F) ∨
    (charText c = unitText c.toNat ∧ c.toNat < 0x10000) ∨
    charText c = unitText (0xD800 + (c.toNat - 0x10000) / 0x400) ++
        unitText (0xDC00 + (c.toNat - 0x10000) % 0x400) ∧ 0x10000 ≤ c.toNat := by
  by_cases hescape : c ∈ ['"', '\\', '\n', '\r', '\t', '\x08', '\x0c']
  · simp only [List.mem_cons, List.not_mem_nil, or_false] at hescape
    rcases hescape with rfl | rfl | rfl | rfl | rfl | rfl | rfl <;>
      exact .inl ⟨_, rfl, by decide, rfl, by decide⟩
  · simp only [List.mem_cons, List.not_mem_nil, or_false, not_or] at hescape
    obtain ⟨hquote, hslash, hline, hreturn, htab, hback, hfeed⟩ := hescape
    right
    rw [charText]
    simp only [beq_iff_eq, hquote, hslash, hline, hreturn, htab, hback, hfeed, if_false]
    by_cases hplain : 0x20 ≤ c.toNat ∧ c.toNat < 0x7F
    · rw [if_pos hplain]
      exact .inl ⟨rfl, hquote, hslash, hplain⟩
    · rw [if_neg hplain]
      right
      by_cases hbasic : c.toNat < 0x10000
      · rw [if_pos hbasic]
        exact .inl ⟨rfl, hbasic⟩
      · rw [if_neg hbasic]
        exact .inr ⟨rfl, by omega⟩

variable {start place : Nat} {units : List Nat} {e : Char} {more : List Char}

theorem hexFour?_hex {n : Nat} (h : n < 0x10000) :
    ∃ a b c d, Text.hex 4 n = [a, b, c, d] ∧ hexFour? a b c d = some n := by
  have hall : ∀ k : Fin 16, hexValue? (Text.hexDigit k) = some (k : Nat) := by decide
  have hdigit : ∀ m, hexValue? (Text.hexDigit (m % 16)) = some (m % 16) :=
    fun m => hall ⟨m % 16, Nat.mod_lt _ (by decide)⟩
  refine ⟨_, _, _, _, rfl, ?_⟩
  simp only [hexFour?, hdigit, Option.pure_def, Option.bind_eq_bind, Option.bind_some,
    Option.some.injEq]
  omega

theorem scan_unitText {n : Nat} (h : n < 0x10000) :
    scanString start place units (unitText n ++ e :: more) =
      scanString start (place + (unitText n).length) (n :: units) (e :: more) := by
  obtain ⟨a, b, c, d, hhex, hfour⟩ := hexFour?_hex h
  rw [unitText, hhex]
  show scanString start place units ('\\' :: 'u' :: a :: b :: c :: d :: e :: more) = _
  rw [scanString]
  simp only [hfour]
  rfl

theorem scan_escape {c r : Char} (hc : c ≠ 'u') (h : escaped? c = some r) :
    scanString start place units ('\\' :: c :: more) =
      scanString start (place + 2) (r.toNat :: units) more := by
  rw [scanString]
  · simp only [h]
  · exact fun heq => hc heq

theorem scan_plain {c : Char} (hquote : c ≠ '"') (hslash : c ≠ '\\') (h : 0x20 ≤ c.toNat) :
    scanString start place units (c :: more) =
      scanString start (place + 1) (c.toNat :: units) more := by
  rw [scanString, if_neg (by omega)]
  · exact hquote
  · exact fun heq _ => hslash heq
  · exact fun _ heq _ => hslash heq
  · exact fun _ _ heq _ => hslash heq

theorem scan_charText (c : Char) :
    scanString start place units (charText c ++ e :: more) =
      scanString start (place + (charText c).length) ((unitsOf c).reverse ++ units)
        (e :: more) := by
  have hone : c.toNat < 0x10000 → (unitsOf c).reverse ++ units = c.toNat :: units := by
    intro h
    rw [unitsOf, if_pos h]
    rfl
  rcases charText_cases c with ⟨d, htext, hd, hc, hbasic⟩ | ⟨htext, hquote, hslash, hlow, hhigh⟩ |
    ⟨htext, hbasic⟩ | ⟨htext, hbeyond⟩
  · rw [htext, hone hbasic]
    exact scan_escape hd hc
  · rw [htext, hone (by omega)]
    exact scan_plain hquote hslash hlow
  · rw [htext, hone hbasic]
    exact scan_unitText hbasic
  · have hrange : c.toNat < 0xD800 ∨ 0xDFFF < c.toNat ∧ c.toNat < 0x110000 := c.valid
    have hpair : (unitsOf c).reverse ++ units = (0xDC00 + (c.toNat - 0x10000) % 0x400) ::
        (0xD800 + (c.toNat - 0x10000) / 0x400) :: units := by
      rw [unitsOf, if_neg (by omega)]
      rfl
    have hsecond : ∀ n, unitText n ++ e :: more = '\\' :: ('u' :: Text.hex 4 n ++ e :: more) :=
      fun _ => rfl
    rw [htext, hpair, List.append_assoc, List.length_append, hsecond, scan_unitText (by omega),
      ← hsecond, scan_unitText (by omega), Nat.add_assoc]

/-- The inside of a written string is read up to its closing quote. -/
theorem scan_chars (cs : List Char) :
    scanString start place units (cs.flatMap charText ++ '"' :: more) =
      .ok ((cs.flatMap unitsOf).reverse ++ units, place + (cs.flatMap charText).length + 1) := by
  induction cs generalizing place units with
  | nil => rfl
  | cons c cs ih =>
    obtain ⟨d, others, hnext⟩ : ∃ d others, cs.flatMap charText ++ '"' :: more = d :: others := by
      cases cs.flatMap charText with
      | nil => exact ⟨_, _, rfl⟩
      | cons d others => exact ⟨_, _, rfl⟩
    rw [List.flatMap_cons, List.append_assoc, hnext, scan_charText, ← hnext, ih, List.flatMap_cons,
      List.reverse_append, List.append_assoc, List.length_append, Nat.add_assoc place]

theorem joinUnits_basic {u : Nat} (h : ¬ (0xD800 ≤ u ∧ u ≤ 0xDFFF)) (others : List Nat) :
    joinUnits (u :: others) = Char.ofNat u :: joinUnits others := by
  have hhigh : isHigh u = false := by
    rw [isHigh, Bool.and_eq_false_iff, decide_eq_false_iff_not, decide_eq_false_iff_not]
    omega
  have hlow : isLow u = false := by
    rw [isLow, Bool.and_eq_false_iff, decide_eq_false_iff_not, decide_eq_false_iff_not]
    omega
  cases others with
  | nil => simp [joinUnits, hhigh, hlow]
  | cons v others => simp [joinUnits, hhigh, hlow]

theorem joinUnits_pair {m : Nat} (h : m < 0x100000) (others : List Nat) :
    joinUnits ((0xD800 + m / 0x400) :: (0xDC00 + m % 0x400) :: others) =
      Char.ofNat (0x10000 + m) :: joinUnits others := by
  have hhigh : isHigh (0xD800 + m / 0x400) = true := by
    rw [isHigh, Bool.and_eq_true, decide_eq_true_eq, decide_eq_true_eq]
    omega
  have hlow : isLow (0xDC00 + m % 0x400) = true := by
    rw [isLow, Bool.and_eq_true, decide_eq_true_eq, decide_eq_true_eq]
    omega
  have hsum : 0x10000 + (0xD800 + m / 0x400 - 0xD800) * 0x400 + (0xDC00 + m % 0x400 - 0xDC00) =
      0x10000 + m := by omega
  rw [joinUnits, hhigh, hlow, hsum]
  rfl

/-- The code units of characters join to these characters. -/
theorem joinUnits_units (cs : List Char) : joinUnits (cs.flatMap unitsOf) = cs := by
  induction cs with
  | nil => rfl
  | cons c cs ih =>
    have hrange : c.toNat < 0xD800 ∨ 0xDFFF < c.toNat ∧ c.toNat < 0x110000 := c.valid
    rw [List.flatMap_cons, unitsOf]
    split
    · rw [List.singleton_append, joinUnits_basic (by omega), ih, Char.ofNat_toNat]
    · have hback : 0x10000 + (c.toNat - 0x10000) = c.toNat := by omega
      rw [List.cons_append, List.singleton_append, joinUnits_pair (by omega), ih, hback,
        Char.ofNat_toNat]

/-! ## Texts that are one token -/

/-- Wherever it stands in front of some rest, a text is cut off as one token. -/
def IsToken (text rest : List Char) (token : Token) : Prop :=
  ∃ c tail, text = c :: tail ∧ isGap c = false ∧
    ∀ place, tokenAt place c (tail ++ rest) = .ok (token, text.length)

theorem isToken_sign {c : Char} {token : Token} (h : sign? c = some token) :
    IsToken [c] rest token := by
  refine ⟨c, [], rfl, ?_, fun place => by rw [tokenAt, h]; rfl⟩
  unfold sign? at h
  split at h <;> first | rfl | cases h

theorem isToken_string (s : String) : IsToken (stringText s) rest (.text s) := by
  refine ⟨'"', s.toList.flatMap charText ++ ['"'], rfl, rfl, fun place => ?_⟩
  have hlength : place + 1 + (s.toList.flatMap charText).length + 1 - place =
      (stringText s).length := by
    simp [stringText]
    omega
  have hscan : scanString place (place + 1) [] (s.toList.flatMap charText ++ '"' :: rest) = _ :=
    scan_chars s.toList
  rw [List.append_assoc, List.singleton_append, tokenAt]
  simp only [sign?, hscan, List.append_nil, List.reverse_reverse, joinUnits_units,
    String.ofList_toList, hlength]
  rfl

/-- A text that starts neither with a sign of the format nor with a quote or white space. -/
def StartsLiteral (cs : List Char) : Prop :=
  ∃ c tail, cs = c :: tail ∧ sign? c = none ∧ c ≠ '"' ∧ isGap c = false

theorem isToken_literal {text : List Char} {token : Token} (hstart : StartsLiteral text)
    (h : literal? (text ++ rest) = some (token, text.length)) : IsToken text rest token := by
  obtain ⟨c, tail, rfl, hsign, hquote, hgap⟩ := hstart
  refine ⟨c, tail, rfl, hgap, fun place => ?_⟩
  rw [List.cons_append] at h
  rw [tokenAt, hsign]
  simp only [beq_iff_eq, hquote, if_false, h]

theorem startsLiteral_digit (negative : Bool) {c : Char} (hc : c.isDigit = true)
    (more : List Char) : StartsLiteral (signText negative ++ c :: more) := by
  cases negative with
  | true => exact ⟨'-', _, rfl, rfl, by decide, rfl⟩
  | false =>
    obtain ⟨k, rfl⟩ := Decimal.exists_digitChar hc
    have hall : ∀ k : Fin 10, sign? (Decimal.digitChar k) = none ∧ Decimal.digitChar k ≠ '"' ∧
        isGap (Decimal.digitChar k) = false := by decide
    exact ⟨_, _, rfl, hall k⟩

theorem isToken_intText (n : Int) (h : Delimited rest) :
    IsToken (Decimal.intText n) rest (.whole n (Decimal.digitCount n.natAbs)) := by
  refine isToken_literal ?_ (literal?_intText n h)
  rw [intText_eq]
  cases hdigits : Decimal.digitsOf n.natAbs with
  | nil => exact absurd hdigits (Decimal.digitsOf_ne_nil _)
  | cons d ds =>
    exact startsLiteral_digit _ (Decimal.isRow_digitsOf n.natAbs d (by simp [hdigits])) ds

theorem isToken_floatText {x : Float} (hx : Decimal.ReadsBack x) (h : Delimited rest) :
    IsToken (floatText x) rest (.constant (.float x)) := by
  refine isToken_literal ?_ (literal?_floatText hx h)
  rw [floatText]
  rcases Decimal.floatText_cases hx with ⟨-, htext⟩ | ⟨negative, -, htext⟩ | ⟨negative, n, -, htext⟩
  · rw [htext]
    exact ⟨'N', _, rfl, rfl, by decide, rfl⟩
  · rw [htext]
    cases negative with
    | true => exact ⟨'-', _, rfl, rfl, by decide, rfl⟩
    | false => exact ⟨'I', _, rfl, rfl, by decide, rfl⟩
  · rw [htext]
    rcases n.leading with hzero | ⟨d, ds, hlead, -⟩
    · rw [Numeral.text, hzero]
      exact startsLiteral_digit negative (by decide) _
    · rw [Numeral.text, hlead]
      exact startsLiteral_digit negative (n.whole_row d (by simp [hlead])) _

end WorkflowCanvas.Json
