import WorkflowCanvas.Text.Printable

/-! Quoted texts, as handles, identifiers and paths appear in messages: between single
quotes, or between double quotes when that saves escaping; what cannot be shown is spelled
by its code point. Main statement: a text of plain characters stands as it is between single
quotes. -/
namespace WorkflowCanvas.Text
set_option autoImplicit false

def hexDigit (n : Nat) : Char :=
  if n < 10 then Char.ofNat (48 + n) else Char.ofNat (87 + n)

/-- The `width` last hexadecimal digits of a number. -/
def hex : Nat → Nat → List Char
  | 0, _ => []
  | width + 1, n => hex width (n / 16) ++ [hexDigit (n % 16)]

/-- Double quotes surround a text that holds a single quote and no double quote. -/
def quoteFor (cs : List Char) : Char :=
  if cs.contains '\'' && !cs.contains '"' then '"' else '\''

/-- The code point of an unprintable character, in the shortest of three widths. -/
def spellOut (n : Nat) : List Char :=
  if n < 0x100 then '\\' :: 'x' :: hex 2 n
  else if n < 0x10000 then '\\' :: 'u' :: hex 4 n
  else '\\' :: 'U' :: hex 8 n

/-- One character between quotes of the given kind. -/
def quotedChar (quote c : Char) : List Char :=
  if c == quote || c == '\\' then ['\\', c]
  else if c == '\n' then ['\\', 'n']
  else if c == '\r' then ['\\', 'r']
  else if c == '\t' then ['\\', 't']
  else if isPrintable c then [c]
  else spellOut c.toNat

def quoted (s : String) : String :=
  let quote := quoteFor s.toList
  String.ofList (quote :: s.toList.flatMap (quotedChar quote) ++ [quote])

/-- The word that stands for an absent text. -/
def absent : String := "None"

/-- A text between quotes, or the word for an absent one. -/
def quoted? : Option String → String
  | none => absent
  | some s => quoted s

/-- A text as it is, or the word for an absent one. -/
def plain? : Option String → String
  | none => absent
  | some s => s

def quotedList (items : List String) : String :=
  "[" ++ ", ".intercalate (items.map quoted) ++ "]"

/-! ## Small lemmas -/

/-- A character of ASCII from the space to the tilde that is no single quote and no backslash. -/
def isPlain (c : Char) : Bool := 0x20 ≤ c.toNat && c.toNat < 0x7F && c != '\'' && c != '\\'

theorem quotedChar_of_plain {c : Char} (h : isPlain c = true) : quotedChar '\'' c = [c] := by
  simp only [isPlain, Bool.and_eq_true, decide_eq_true_eq, bne_iff_ne] at h
  obtain ⟨⟨⟨low, high⟩, hquote⟩, hslash⟩ := h
  have hcontrol : ∀ d : Char, d.toNat < 0x20 → c ≠ d := by
    rintro d hd rfl
    exact Nat.not_le.2 hd low
  simp [quotedChar, hquote, hslash, hcontrol '\n' (by decide), hcontrol '\r' (by decide),
    hcontrol '\t' (by decide), isPrintable_ascii low high]

theorem quoted_of_plain {s : String} (h : s.toList.all isPlain = true) :
    quoted s = "'" ++ s ++ "'" := by
  have hplain := List.all_eq_true.1 h
  have hquote : quoteFor s.toList = '\'' := by
    have hnone : '\'' ∉ s.toList := fun hm => absurd (hplain _ hm) (by decide)
    simp [quoteFor, hnone]
  have hchars : s.toList.flatMap (quotedChar '\'') = s.toList := by
    have hsame : ∀ c ∈ s.toList, quotedChar '\'' c = [c] :=
      fun c hc => quotedChar_of_plain (hplain c hc)
    rw [List.flatMap_def, List.map_congr_left hsame, ← List.flatMap_def, List.flatMap_singleton']
  rw [← String.toList_inj]
  simp [quoted, hquote, hchars]

end WorkflowCanvas.Text
