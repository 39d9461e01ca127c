/-! Decimal numbers with a power of ten, their digits, and the double nearest to one.
Main statement: the digits of a number read back as that number. -/
namespace WorkflowCanvas
set_option autoImplicit false

/-- The number ±`digits` · 10^`exponent`. -/
structure Decimal where
  negative : Bool
  digits : Nat
  exponent : Int
deriving DecidableEq, Repr

namespace Decimal

/-! ## Digits -/

def digitChar (n : Nat) : Char := Char.ofNat (48 + n)

def digitValue (c : Char) : Nat := c.toNat - 48

/-- The decimal digits of a number, most significant first. -/
def digitsOf (n : Nat) : List Char :=
  if n < 10 then [digitChar n] else digitsOf (n / 10) ++ [digitChar (n % 10)]

/-- The number that a row of digits stands for. -/
def ofDigits (cs : List Char) : Nat := cs.foldl (fun n c => 10 * n + digitValue c) 0

def digitCount (n : Nat) : Nat := (digitsOf n).length

theorem digitValue_digitChar {n : Nat} (h : n < 10) : digitValue (digitChar n) = n := by
  have all : ∀ k : Fin 10, digitValue (digitChar k) = k := by decide
  exact all ⟨n, h⟩

theorem ofDigits_digitsOf (n : Nat) : ofDigits (digitsOf n) = n := by
  induction n using digitsOf.induct with
  | case1 n h =>
    rw [digitsOf, if_pos h]
    simp [ofDigits, digitValue_digitChar h]
  | case2 n h ih =>
    rw [digitsOf, if_neg h]
    simp only [ofDigits, List.foldl_append, List.foldl_cons, List.foldl_nil] at ih ⊢
    rw [ih, digitValue_digitChar (Nat.mod_lt _ (by decide))]
    exact Nat.div_add_mod n 10

/-! ## The nearest double -/

/-- No double has a decimal exponent outside this range; beyond it a number is infinite or zero. -/
def range : Int := 400

/-- The double nearest to the number, ties to even; infinity beyond the largest double. -/
def toFloat (d : Decimal) : Float :=
  let place := (digitCount d.digits : Int) + d.exponent
  let size :=
    if d.digits = 0 then 0.0
    else if place > range then 1.0 / 0.0
    else if place < -range then 0.0
    else if d.exponent < 0 then Float.ofScientific d.digits true (-d.exponent).toNat
    else Float.ofScientific d.digits false d.exponent.toNat
  if d.negative then -size else size

def floatOfInt (n : Int) : Float := toFloat ⟨n < 0, n.natAbs, 0⟩

/-! ## Numerals -/

/-- Digits, an optional fraction and an optional power of ten, as the number they stand for.
The parts are texts of digits; `fraction` and `power` may be empty. -/
def ofParts (negative : Bool) (whole fraction : List Char) (powerNegative : Bool)
    (power : List Char) : Decimal :=
  let size : Int := ofDigits power
  { negative
    digits := ofDigits (whole ++ fraction)
    exponent := (if powerNegative then -size else size) - fraction.length }

def intText (n : Int) : List Char :=
  if n < 0 then '-' :: digitsOf n.natAbs else digitsOf n.natAbs

end Decimal
end WorkflowCanvas
