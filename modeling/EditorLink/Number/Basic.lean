import EditorLink.Number.Shortest

/-!
# Numbers and their text

A number is a whole number of any size or a double, and the two stay apart: `1` and `1.0` are
different texts. A double is written with its shortest digits, positionally from 10^-4 up to 10^16
and with at least one decimal, else with an exponent of a sign and at least two digits.
-/

namespace EditorLink

/-- The spellings of the doubles that have no digits. -/
structure SpecialNames where
  nan : String
  infinity : String

inductive Number where
  | int (value : Int)
  | float (value : Double)
deriving DecidableEq, Repr

def intText (n : Int) : String := toString n

namespace Double

def stripZeros (digits : List Char) : List Char := (digits.reverse.dropWhile (· == '0')).reverse

def exponentText (exponent : Int) : List Char :=
  let digits := Nat.toDigits 10 exponent.natAbs
  (if exponent < 0 then '-' else '+') :: (if digits.length < 2 then '0' :: digits else digits)

/-- Writes significant digits whose first one has the place `exponent`. -/
def layout (digits : List Char) (exponent : Int) : List Char :=
  if exponent < -4 ∨ exponent ≥ 16 then
    let fraction := digits.drop 1
    digits.take 1 ++ (if fraction.isEmpty then [] else '.' :: fraction) ++
      'e' :: exponentText exponent
  else if exponent < 0 then
    '0' :: '.' :: List.replicate (exponent.natAbs - 1) '0' ++ digits
  else
    let whole := exponent.natAbs + 1
    let fraction := digits.drop whole
    digits.take whole ++ List.replicate (whole - digits.length) '0' ++
      '.' :: (if fraction.isEmpty then ['0'] else fraction)

def text (names : SpecialNames) : Double → String
  | .nan => names.nan
  | .infinite negative => (if negative then "-" else "") ++ names.infinity
  | .finite negative significand exponent =>
    let magnitude :=
      if significand = 0 then "0.0".toList
      else
        let (number, place) := shortest significand exponent
        let digits := Nat.toDigits 10 number
        layout (stripZeros digits) (place + digits.length - 1)
    String.ofList (if negative then '-' :: magnitude else magnitude)

end Double

namespace Number

def text (names : SpecialNames) : Number → String
  | .int n => intText n
  | .float x => x.text names

def toDouble : Number → Double
  | .int n => Double.ofInt n
  | .float x => x

def isZero : Number → Bool
  | .int n => n == 0
  | .float x => x.isZero

def isPositive : Number → Bool
  | .int n => n > 0
  | .float x => x.isPositive

end Number

/-- The names used wherever a number is shown in a sentence. -/
def SpecialNames.plain : SpecialNames := ⟨"nan", "inf"⟩

def Double.plainText (x : Double) : String := x.text .plain

def Number.plainText (x : Number) : String := x.text .plain

example : (Double.ofDecimal false 100 0).plainText = "100.0" := by decide +kernel

example : (Double.ofDecimal true 15 19).plainText = "-1.5e+20" := by decide +kernel

example : (Double.ofDecimal false 1 (-5)).plainText = "1e-05" := by decide +kernel

example : (Double.ofDecimal false 99 (-2)).plainText = "0.99" := by decide +kernel

end EditorLink
