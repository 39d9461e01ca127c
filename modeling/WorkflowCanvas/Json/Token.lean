import WorkflowCanvas.Json.Basic

/-! Tokens of document text. A text is cut into tokens up to its end or up to the first
place where no token can be read; where the text breaks off is part of the result, so that
a reader can complain about the earlier of two faults. Texts hold no halves of pairs of code
units: an escape that spells one half alone is read as U+FFFD, where a reader whose texts are
rows of code units would keep the half. -/
namespace WorkflowCanvas.Json
set_option autoImplicit false

/-- The smallest parts of document text. A whole number keeps its literal's digit count. -/
inductive Token where
  | openArr
  | closeArr
  | openObj
  | closeObj
  | comma
  | colon
  | text (s : String)
  | whole (value : Int) (digits : Nat)
  | constant (value : Json)

/-- Why the text of a string cannot be read. -/
inductive StringFault where
  | unterminated
  | control
  | escape
  | codePoint
deriving DecidableEq, Repr

/-- What follows the last token. -/
inductive Stop where
  | finished
  | stray
  | badString (fault : StringFault) (place : Nat)
deriving DecidableEq, Repr

/-- Tokens with their places, and what follows the last one. -/
inductive Tokens where
  | stop (place : Nat) (reason : Stop)
  | more (place : Nat) (token : Token) (rest : Tokens)

/-! ## Strings -/

/-- The value of a hexadecimal digit in either case. -/
def hexValue? (c : Char) : Option Nat :=
  let n := c.toNat
  if 48 ≤ n ∧ n ≤ 57 then some (n - 48)
  else if 97 ≤ n ∧ n ≤ 102 then some (n - 87)
  else if 65 ≤ n ∧ n ≤ 70 then some (n - 55)
  else none

def hexFour? (a b c d : Char) : Option Nat := do
  let a ← hexValue? a
  let b ← hexValue? b
  let c ← hexValue? c
  let d ← hexValue? d
  return ((a * 16 + b) * 16 + c) * 16 + d

/-- The character that a one-letter escape stands for. -/
def escaped? : Char → Option Char
  | '"' => some '"'
  | '\\' => some '\\'
  | '/' => some '/'
  | 'b' => some '\x08'
  | 'f' => some '\x0c'
  | 'n' => some '\n'
  | 'r' => some '\r'
  | 't' => some '\t'
  | _ => none

/-- The first half of a pair of code units. -/
def isHigh (n : Nat) : Bool := 0xD800 ≤ n && n ≤ 0xDBFF

/-- The second half of a pair of code units. -/
def isLow (n : Nat) : Bool := 0xDC00 ≤ n && n ≤ 0xDFFF

/-- Joins the pairs among code units; half of a pair alone is the replacement character. -/
def joinUnits : List Nat → List Char
  | [] => []
  | [u] => [if isHigh u || isLow u then '\uFFFD' else Char.ofNat u]
  | u :: v :: rest =>
    if isHigh u && isLow v then
      Char.ofNat (0x10000 + (u - 0xD800) * 0x400 + (v - 0xDC00)) :: joinUnits rest
    else (if isHigh u || isLow u then '\uFFFD' else Char.ofNat u) :: joinUnits (v :: rest)

/-- Reads the inside of a string up to its closing quote: the code units read, newest first,
and the place after the quote. `start` is the place of the opening quote. -/
def scanString (start : Nat) : Nat → List Nat → List Char →
    Except (StringFault × Nat) (List Nat × Nat)
  | _, _, [] => .error (.unterminated, start)
  | place, units, '"' :: _ => .ok (units, place + 1)
  | _, _, ['\\'] => .error (.unterminated, start)
  | place, units, '\\' :: 'u' :: rest =>
    match rest with
    | a :: b :: c :: d :: e :: more =>
      match hexFour? a b c d with
      | some u => scanString start (place + 6) (u :: units) (e :: more)
      | none => .error (.codePoint, place + 1)
    | _ => .error (.codePoint, place + 1)
  | place, units, '\\' :: c :: rest =>
    match escaped? c with
    | some r => scanString start (place + 2) (r.toNat :: units) rest
    | none => .error (.escape, place)
  | place, units, c :: rest =>
    if c.toNat < 0x20 then .error (.control, place)
    else scanString start (place + 1) (c.toNat :: units) rest

/-! ## Numbers and words -/

/-- A point and at least one digit, as the digits; nothing when there is no such part. -/
def fractionPart : List Char → List Char
  | '.' :: rest => rest.takeWhile Char.isDigit
  | _ => []

/-- The power of ten of a literal: whether it is negative, its digits, and its length. -/
def powerPart : List Char → Option (Bool × List Char × Nat)
  | e :: rest =>
    if e == 'e' || e == 'E' then
      let (negative, digits) := Decimal.spanSign rest
      let power := digits.takeWhile Char.isDigit
      if power.isEmpty then none
      else some (negative, power, 1 + (rest.length - digits.length) + power.length)
    else none
  | [] => none

/-- A literal that starts with the digits `whole`, and its length without a sign: a whole
number unless a fraction or a power of ten follows. -/
def numberFrom (negative : Bool) (whole rest : List Char) : Token × Nat :=
  let fraction := fractionPart rest
  let fractionLength := if fraction.isEmpty then 0 else fraction.length + 1
  match powerPart (rest.drop fractionLength) with
  | some (powerNegative, power, powerLength) =>
    (.constant (.float (Decimal.ofParts negative whole fraction powerNegative power).toFloat),
      whole.length + fractionLength + powerLength)
  | none =>
    if fraction.isEmpty then
      let size : Int := Decimal.ofDigits whole
      (.whole (if negative then -size else size) whole.length, whole.length)
    else
      (.constant (.float (Decimal.ofParts negative whole fraction false []).toFloat),
        whole.length + fractionLength)

/-- A number without its sign: a zero alone, or a row of digits that starts with none. -/
def unsigned? (negative : Bool) : List Char → Option (Token × Nat)
  | '0' :: rest => some (numberFrom negative ['0'] rest)
  | cs =>
    let whole := cs.takeWhile Char.isDigit
    if whole.isEmpty then none
    else some (numberFrom negative whole (cs.drop whole.length))

/-- The words of the format, and what they stand for. -/
def words : List (List Char × Json) :=
  [("null".toList, null), ("true".toList, bool true), ("false".toList, bool false),
    ("NaN".toList, float (0.0 / 0.0)), ("Infinity".toList, float (1.0 / 0.0)),
    ("-Infinity".toList, float (-(1.0 / 0.0)))]

def word? (cs : List Char) : Option (Token × Nat) :=
  (words.find? fun w => w.1.isPrefixOf cs).map fun w => (.constant w.2, w.1.length)

/-- The number or word at the front of a text, and its length. -/
def literal? (cs : List Char) : Option (Token × Nat) :=
  (word? cs).or <| match cs with
    | '-' :: rest => (unsigned? true rest).map fun (token, length) => (token, length + 1)
    | _ => unsigned? false cs

/-! ## Cutting a text -/

/-- The white space of the format. -/
def isGap (c : Char) : Bool := c == ' ' || c == '\t' || c == '\n' || c == '\r'

/-- The token of a character that is a token alone. -/
def sign? : Char → Option Token
  | '[' => some .openArr
  | ']' => some .closeArr
  | '{' => some .openObj
  | '}' => some .closeObj
  | ',' => some .comma
  | ':' => some .colon
  | _ => none

/-- What stands at the front of a text that does not start with white space. -/
def tokenAt (place : Nat) (c : Char) (rest : List Char) : Except Stop (Token × Nat) :=
  match sign? c with
  | some token => .ok (token, 1)
  | none =>
    if c == '"' then
      match scanString place (place + 1) [] rest with
      | .ok (units, next) => .ok (.text (String.ofList (joinUnits units.reverse)), next - place)
      | .error (fault, there) => .error (.badString fault there)
    else match literal? (c :: rest) with
      | some found => .ok found
      | none => .error .stray

/-- The tokens of a text from a place on; the first `skip` characters belong to the last token. -/
def cut : Nat → Nat → List Char → Tokens
  | place, _, [] => .stop place .finished
  | place, skip + 1, _ :: rest => cut (place + 1) skip rest
  | place, 0, c :: rest =>
    if isGap c then cut (place + 1) 0 rest
    else match tokenAt place c rest with
      | .ok (token, length) => .more place token (cut (place + 1) (length - 1) rest)
      | .error reason => .stop place reason

def tokens (cs : List Char) : Tokens := cut 0 0 cs

end WorkflowCanvas.Json
