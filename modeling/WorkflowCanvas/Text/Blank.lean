/-! White space. Names, titles and numerals each drop or count the white space
of Unicode; a title or name is also blank when it holds only separators. -/
namespace WorkflowCanvas.Text
set_option autoImplicit false

/-- A character with the Unicode property White_Space. -/
def isSpace (c : Char) : Bool :=
  let n := c.toNat
  (0x09 ≤ n && n ≤ 0x0D) || n == 0x20 || n == 0x85 || n == 0xA0 || n == 0x1680 ||
    (0x2000 ≤ n && n ≤ 0x200A) || n == 0x2028 || n == 0x2029 || n == 0x202F ||
    n == 0x205F || n == 0x3000

/-- White space, or one of the four information separators U+001C to U+001F. -/
def isBlankChar (c : Char) : Bool :=
  isSpace c || (0x1C ≤ c.toNat && c.toNat ≤ 0x1F)

/-- Nothing is left of a blank text once blank characters are stripped from its ends. -/
def isBlank (s : String) : Bool := s.toList.all isBlankChar

/-- Drops the characters of a class from both ends. -/
def trim (drop : Char → Bool) (cs : List Char) : List Char :=
  ((cs.dropWhile drop).reverse.dropWhile drop).reverse

/-- ASCII letters in lower case, all else unchanged. -/
def lowerAscii (cs : List Char) : List Char := cs.map Char.toLower

/-! ## Small lemmas -/

theorem isBlank_iff {s : String} : isBlank s = true ↔ ∀ c ∈ s.toList, isBlankChar c = true := by
  simp [isBlank]

theorem not_isBlank_empty {s : String} (h : isBlank s = false) : s ≠ "" := by
  rintro rfl
  simp [isBlank] at h

end WorkflowCanvas.Text
