import WorkflowCanvas.Decimal.Basic

/-! The shortest decimal that reads back as a given double: on each grid of 1, 2, …, 17
digits the two neighbours of the exact value are tried, the nearer first. Main statement:
what the search finds reads back. -/
namespace WorkflowCanvas.Decimal
set_option autoImplicit false

/-- A positive fraction `num / den`. -/
structure Fraction where
  num : Nat
  den : Nat

/-- The exact value of a double, sign dropped; infinities and undefined values are not asked for. -/
def exact (x : Float) : Fraction :=
  let bits := x.toBits.toNat
  let implicitBit := Nat.pow 2 52
  let power : Nat := (bits / implicitBit) % 2048
  let low : Nat := bits % implicitBit
  let (m, q) : Nat × Int :=
    if power = 0 then (low, -1074) else (low + implicitBit, (power : Int) - 1075)
  if q < 0 then ⟨m, Nat.pow 2 (-q).toNat⟩ else ⟨m * Nat.pow 2 q.toNat, 1⟩

/-- The value multiplied by a power of ten. -/
def Fraction.scale (v : Fraction) (power : Int) : Fraction :=
  if power < 0 then ⟨v.num, v.den * Nat.pow 10 (-power).toNat⟩
  else ⟨v.num * Nat.pow 10 power.toNat, v.den⟩

/-- The `k` with `10^(k-1) ≤ v < 10^k`. -/
def Fraction.place (v : Fraction) : Int :=
  let k : Int := (digitCount v.num : Int) - digitCount v.den
  let s := v.scale (-k)
  if s.den ≤ s.num then k + 1 else k

/-- The two neighbours of a value on the whole numbers, the nearer first, a tie to the even one. -/
def Fraction.neighbours (v : Fraction) : List Nat :=
  let low := v.num / v.den
  let rest := v.num % v.den
  if 2 * rest < v.den then [low, low + 1]
  else if v.den < 2 * rest then [low + 1, low]
  else if low % 2 = 0 then [low, low + 1] else [low + 1, low]

/-- The neighbours of a value on the grid of `n` digits. -/
def candidates (v : Fraction) (n : Nat) : List Decimal :=
  let exponent := v.place - n
  (v.scale (-exponent)).neighbours.map (⟨false, ·, exponent⟩)

/-- The first candidate, from one digit up to seventeen, that reads back as `x`. -/
def shortest? (x : Float) : Option Decimal :=
  (List.range 17).findSome? fun i => (candidates (exact x) (i + 1)).find? (·.toFloat == x)

/-- The exact value as a decimal; a double with `k` binary places has `k` decimal places. -/
def exactDecimal (x : Float) : Decimal :=
  let v := exact x
  let places := digitCount v.den * 4
  ⟨false, v.num * Nat.pow 10 places / v.den, -(places : Int)⟩

/-- The decimal whose text stands for a positive double. -/
def shortest (x : Float) : Decimal := (shortest? x).getD (exactDecimal x)

theorem toFloat_of_shortest? {x : Float} {d : Decimal} (h : shortest? x = some d) :
    (d.toFloat == x) = true := by
  obtain ⟨i, _, found⟩ := List.exists_of_findSome?_eq_some h
  simpa using List.find?_some found

end WorkflowCanvas.Decimal
