import WorkflowCanvas.Decimal.Shortest
import WorkflowCanvas.Text.Blank

/-! Numerals of doubles: how one is written, and which texts are read as one. A double is
written with its shortest digits, positionally while the decimal exponent lies in -4 to 15
and with a power of ten beyond. -/
namespace WorkflowCanvas.Decimal
set_option autoImplicit false

/-! ## Writing -/

/-- Words for the doubles that are no numbers. -/
structure SpecialWords where
  infinite : List Char
  undefined : List Char

/-- The power of ten, with its sign and at least two digits. -/
def powerText (p : Int) : List Char :=
  let ds := digitsOf p.natAbs
  'e' :: (if p < 0 then '-' else '+') :: (if ds.length < 2 then '0' :: ds else ds)

/-- Digits `ds` with the point after the first `place` of them. -/
def layout (ds : List Char) (place : Int) : List Char :=
  if place ≤ -4 ∨ 16 < place then
    match ds with
    | [] => powerText (place - 1)
    | [d] => d :: powerText (place - 1)
    | d :: rest => d :: '.' :: rest ++ powerText (place - 1)
  else if place ≤ 0 then '0' :: '.' :: List.replicate (-place).toNat '0' ++ ds
  else if ds.length ≤ place.toNat then
    ds ++ List.replicate (place.toNat - ds.length) '0' ++ ['.', '0']
  else ds.take place.toNat ++ '.' :: ds.drop place.toNat

/-- The numeral of a positive decimal, without the zeros at the end of its digits. -/
def text (d : Decimal) : List Char :=
  let ds := digitsOf d.digits
  let kept := (ds.reverse.dropWhile (· == '0')).reverse
  layout kept (ds.length + d.exponent)

def floatText (words : SpecialWords) (x : Float) : List Char :=
  if x.isNaN then words.undefined
  else
    let size := x.abs
    let sign := if x.toBits.toNat < Nat.pow 2 63 then [] else ['-']
    if size == 0.0 then sign ++ ['0', '.', '0']
    else if size.isInf then sign ++ words.infinite
    else sign ++ text (shortest size)

/-- Answers and settings write the special doubles in small letters. -/
def plainWords : SpecialWords := ⟨"inf".toList, "nan".toList⟩

/-- Documents write them as the words that readers of documents know. -/
def documentWords : SpecialWords := ⟨"Infinity".toList, "NaN".toList⟩

/-! ## Reading settings -/

/-- The longest row of digits at the front, and the rest. -/
def spanDigits (cs : List Char) : List Char × List Char := cs.span Char.isDigit

/-- An optional sign at the front. -/
def spanSign : List Char → Bool × List Char
  | '-' :: rest => (true, rest)
  | '+' :: rest => (false, rest)
  | cs => (false, cs)

/-- The fraction of a numeral: a point and digits, of which there may be none. -/
def spanFraction : List Char → List Char × List Char
  | '.' :: rest => spanDigits rest
  | cs => ([], cs)

/-- Digits with an optional point before, among or after them, and an optional power of ten;
nothing may follow. -/
def readUnsigned? (negative : Bool) (cs : List Char) : Option Decimal :=
  let (whole, rest) := spanDigits cs
  let (fraction, rest) := spanFraction rest
  if whole.isEmpty && fraction.isEmpty then none
  else match rest with
    | [] => some (ofParts negative whole fraction false [])
    | e :: rest =>
      if e == 'e' || e == 'E' then
        let (powerNegative, rest) := spanSign rest
        let (power, rest) := spanDigits rest
        if power.isEmpty || !rest.isEmpty then none
        else some (ofParts negative whole fraction powerNegative power)
      else none

/-- A signed numeral, or a word for infinity or the undefined double, in any case. -/
def readPlain? (cs : List Char) : Option Float :=
  let (negative, body) := spanSign cs
  let word := Text.lowerAscii body
  if word == "inf".toList || word == "infinity".toList then
    some (if negative then -(1.0 / 0.0) else 1.0 / 0.0)
  else if word == "nan".toList then some (0.0 / 0.0)
  else (readUnsigned? negative body).map toFloat

def hasDoubleUnderscore : List Char → Bool
  | '_' :: '_' :: _ => true
  | _ :: rest => hasDoubleUnderscore rest
  | [] => false

/-- Underscores may separate the characters of a numeral, singly and not at its ends. -/
def dropUnderscores? (cs : List Char) : Option (List Char) :=
  if cs.head? == some '_' || cs.getLast? == some '_' || hasDoubleUnderscore cs then none
  else some (cs.filter (· != '_'))

/-- The double that a text stands for, white space around it and single underscores in it ignored. -/
def readFloat? (s : String) : Option Float :=
  let cs := Text.trim Text.isSpace s.toList
  (readPlain? cs).or ((dropUnderscores? cs).bind readPlain?)

def plainFloat (x : Float) : String := String.ofList (floatText plainWords x)

end WorkflowCanvas.Decimal
