import EditorLink.Number.Double

/-!
# Shortest decimal digits of a double

A double is read back from every decimal in the interval of reals that round to it. The shortest
digits are found on the coarsest decimal grid, of 1, 2, … 17 digits, that has a point in the
interval; on a grid only the two neighbours of the double can be nearest, and of two hits the
nearer is taken. All comparisons are between natural numbers.
-/

namespace EditorLink.Double

/-- `num / den ≥ 10 ^ k`. -/
def reachesPower (k : Int) (num den : Nat) : Bool :=
  if k < 0 then den ≤ num * Nat.pow 10 k.natAbs else den * Nat.pow 10 k.natAbs ≤ num

/-- The exponent of the first decimal digit of a positive quotient. -/
def leadingExponent (num den : Nat) : Int :=
  let guess : Int := ((num.log2 : Int) - (den.log2 : Int)) * 30103 / 100000
  if reachesPower (guess + 1) num den then guess + 1
  else if reachesPower guess num den then guess
  else guess - 1

/-- The interval that rounds to a double, as quarters of its last place: the ends are
`4 * significand - below` and `4 * significand + 2` quarters, and they belong to the interval when
the significand is even. The gap below a power of two is half as wide. -/
def quartersBelow (significand : Nat) (exponent : Int) : Nat :=
  if significand = Nat.pow 2 52 ∧ exponent > minExponent then 1 else 2

/-- Whether `digits * 10 ^ place` rounds to the double. -/
def roundsBack (significand : Nat) (exponent : Int) (digits : Nat) (place : Int) : Bool :=
  let (n, d) := if place < 0 then (digits, Nat.pow 10 place.natAbs)
    else (digits * Nat.pow 10 place.natAbs, 1)
  let (n, d) := scaled (4 * n) d exponent
  let low := 4 * significand - quartersBelow significand exponent
  let high := 4 * significand + 2
  if significand % 2 = 0 then low * d ≤ n ∧ n ≤ high * d else low * d < n ∧ n < high * d

/-- The nearest of the points `digits` and `digits + 1` of a grid that rounds back. -/
def hitOnGrid? (significand : Nat) (exponent : Int) (num den : Nat) (place : Int) : Option Nat :=
  let (n, d) := if place < 0 then (num * Nat.pow 10 place.natAbs, den)
    else (num, den * Nat.pow 10 place.natAbs)
  let digits := n / d
  let rest := 2 * (n % d)
  let lower := roundsBack significand exponent digits place
  let upper := roundsBack significand exponent (digits + 1) place
  if lower && upper then
    some (if rest > d ∨ (rest = d ∧ digits % 2 = 1) then digits + 1 else digits)
  else if lower then some digits
  else if upper then some (digits + 1)
  else none

/-- Tries grids from the coarsest on: `left` more grids, the next one with last place `place`. -/
def shortestFrom (significand : Nat) (exponent : Int) (num den : Nat) : Nat → Int → Nat × Int
  | 0, place => (0, place)
  | left + 1, place =>
    match hitOnGrid? significand exponent num den place with
    | some digits => (digits, place)
    | none => shortestFrom significand exponent num den left (place - 1)

/-- The shortest `digits` and `place` with `digits * 10 ^ place` read back as the double; the digits
may end in zeros. -/
def shortest (significand : Nat) (exponent : Int) : Nat × Int :=
  let (num, den) :=
    if exponent < 0 then (significand, Nat.pow 2 exponent.natAbs)
    else (significand * Nat.pow 2 exponent.natAbs, 1)
  shortestFrom significand exponent num den 17 (leadingExponent num den)

example : shortest 7205759403792794 (-56) = (1, -1) := by decide +kernel

example : shortest 1 (-1074) = (5, -324) := by decide +kernel

example : shortest (2 ^ 52) 0 = (4503599627370496, 0) := by decide +kernel

end EditorLink.Double
