/-!
# Double-precision numbers

A double is zero or `significand * 2 ^ exponent` with a significand below 2^53 and an exponent from
-1074 to 971, an infinity, or not a number. Every operation computes exactly on natural numbers
and rounds once, to the nearest double and to the even significand on a tie.
-/

namespace EditorLink

inductive Double where
  | finite (negative : Bool) (significand : Nat) (exponent : Int)
  | infinite (negative : Bool)
  | nan
deriving DecidableEq, Repr

namespace Double

def minExponent : Int := -1074

def maxExponent : Int := 971

def zero : Double := .finite false 0 minExponent

/-- The quotient of two natural numbers, rounded to the nearest one, ties to even. -/
def roundDiv (num den : Nat) : Nat :=
  let quotient := num / den
  let rest := 2 * (num % den)
  if rest > den ∨ (rest = den ∧ quotient % 2 = 1) then quotient + 1 else quotient

/-- `num / (den * 2 ^ exponent)` as a pair of natural numbers. -/
def scaled (num den : Nat) (exponent : Int) : Nat × Nat :=
  if exponent < 0 then (num * Nat.pow 2 exponent.natAbs, den)
  else (num, den * Nat.pow 2 exponent.natAbs)

/-- The exponent at which `num / den` has a significand of 53 bits, or the least exponent. -/
def exponentOf (num den : Nat) : Int :=
  let guess : Int := (num.log2 : Int) - (den.log2 : Int) - 52
  let (n, d) := scaled num den guess
  max minExponent (if n < d * Nat.pow 2 52 then guess - 1 else guess)

/-- The double nearest to `num / den`, for a positive `den`. -/
def ofRatio (negative : Bool) (num den : Nat) : Double :=
  if num = 0 then .finite negative 0 minExponent
  else
    let exponent := exponentOf num den
    let (n, d) := scaled num den exponent
    let significand := roundDiv n d
    let (significand, exponent) :=
      if significand = Nat.pow 2 53 then (Nat.pow 2 52, exponent + 1) else (significand, exponent)
    if exponent > maxExponent then .infinite negative else .finite negative significand exponent

def ofInt (n : Int) : Double := ofRatio (n < 0) n.natAbs 1

/-- The double nearest to `digits * 10 ^ exponent`. Magnitudes beyond the range are settled without
computing the power. -/
def ofDecimal (negative : Bool) (digits : Nat) (exponent : Int) : Double :=
  if digits = 0 then .finite negative 0 minExponent
  else
    let length : Int := (Nat.toDigits 10 digits).length
    if exponent + length > 310 then .infinite negative
    else if exponent + length < -330 then .finite negative 0 minExponent
    else if exponent < 0 then ofRatio negative digits (Nat.pow 10 exponent.natAbs)
    else ofRatio negative (digits * Nat.pow 10 exponent.natAbs) 1

/-- A finite double as a multiple of `2 ^ exponent`, for an exponent not above its own. -/
def unitsAt (exponent : Int) (negative : Bool) (significand : Nat) (own : Int) : Int :=
  let magnitude : Int := significand * Nat.pow 2 (own - exponent).natAbs
  if negative then -magnitude else magnitude

def lt : Double → Double → Bool
  | .finite n₁ s₁ e₁, .finite n₂ s₂ e₂ =>
    let e := min e₁ e₂
    unitsAt e n₁ s₁ e₁ < unitsAt e n₂ s₂ e₂
  | .infinite true, .infinite n => !n
  | .infinite true, .finite _ _ _ => true
  | .finite _ _ _, .infinite n => !n
  | .infinite false, _ => false
  | .nan, _ => false
  | _, .nan => false

def isZero : Double → Bool
  | .finite _ significand _ => significand == 0
  | _ => false

def isNaN : Double → Bool
  | .nan => true
  | _ => false

/-- Greater than zero; false of not-a-number. -/
def isPositive : Double → Bool
  | .finite negative significand _ => !negative && significand != 0
  | .infinite negative => !negative
  | .nan => false

/-- Greater than or equal to zero; false of not-a-number. -/
def isNonnegative (x : Double) : Bool := x.isPositive || x.isZero

def add : Double → Double → Double
  | .finite n₁ s₁ e₁, .finite n₂ s₂ e₂ =>
    let e := min e₁ e₂
    let sum := unitsAt e n₁ s₁ e₁ + unitsAt e n₂ s₂ e₂
    if sum = 0 then .finite (n₁ && n₂) 0 minExponent
    else if e < 0 then ofRatio (sum < 0) sum.natAbs (Nat.pow 2 e.natAbs)
    else ofRatio (sum < 0) (sum.natAbs * Nat.pow 2 e.natAbs) 1
  | .infinite n₁, .infinite n₂ => if n₁ = n₂ then .infinite n₁ else .nan
  | .infinite n, .finite _ _ _ => .infinite n
  | .finite _ _ _, .infinite n => .infinite n
  | _, _ => .nan

/-- A number of seconds in whole milliseconds, to the nearest one, ties to even. -/
def toMillis : Double → Int
  | .finite negative significand exponent =>
    let (n, d) := if exponent < 0 then (significand * 1000, Nat.pow 2 exponent.natAbs)
      else (significand * 1000 * Nat.pow 2 exponent.natAbs, 1)
    let rounded : Int := roundDiv n d
    if negative then -rounded else rounded
  | _ => 0

/-- The value as a whole number, when it is one. -/
def whole? : Double → Option Int
  | .finite negative significand exponent =>
    let (n, d) := if exponent < 0 then (significand, Nat.pow 2 exponent.natAbs)
      else (significand * Nat.pow 2 exponent.natAbs, 1)
    if n % d = 0 then some (if negative then -(n / d : Nat) else (n / d : Nat)) else none
  | _ => none

theorem isPositive_of_nan {x : Double} (h : x.isNaN = true) : x.isPositive = false := by
  cases x <;> simp_all [isNaN, isPositive]

example : ofDecimal false 1 (-1) = .finite false 7205759403792794 (-56) := by decide +kernel

example : ofDecimal false 5 (-324) = .finite false 1 (-1074) := by decide +kernel

example : ofDecimal false 9007199254740993 0 = ofInt 9007199254740992 := by decide +kernel

example : add (ofDecimal false 1 (-1)) (ofDecimal false 2 (-1)) =
    ofDecimal false 30000000000000004 (-17) := by decide +kernel

end Double

end EditorLink
