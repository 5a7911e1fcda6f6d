import EditorLink.Number.Basic
import EditorLink.Text.Basic

/-!
# Reading numbers from text

Numbers as people type them into settings. A double is digits with at most one point and an
optional exponent, or one of the words for infinity and not-a-number in any case. A whole number
may have a plus sign, leading zeros and a fraction of zeros. Underscores may stand singly inside
either. Blanks around the number do not count.
-/

namespace EditorLink.Number

/-- The blanks that may surround a number; the separators U+001C to U+001F are not among them. -/
def isPadding (c : Char) : Bool := Text.isBlank c && !(0x1C ≤ c.toNat && c.toNat ≤ 0x1F)

def trimPadding (cs : List Char) : List Char := Text.trimBoth isPadding cs

def digitsValue (digits : List Char) : Nat :=
  digits.foldl (fun value c => 10 * value + (c.toNat - 48)) 0

/-- The sign in front, if any, and the rest. -/
def splitSign : List Char → Bool × List Char
  | '-' :: cs => (true, cs)
  | '+' :: cs => (false, cs)
  | cs => (false, cs)

/-- The exponent that closes a decimal: nothing, or `e` with a sign and digits. -/
def exponent? : List Char → Option Int
  | [] => some 0
  | c :: cs =>
    if c = 'e' ∨ c = 'E' then
      let (negative, digits) := splitSign cs
      if digits.isEmpty || !digits.all Char.isDigit then none
      else some (if negative then -(digitsValue digits : Int) else digitsValue digits)
    else none

/-- Digits with at most one point and at least one digit, then an exponent. -/
def decimal? (negative : Bool) (cs : List Char) : Option Double :=
  let whole := cs.takeWhile Char.isDigit
  let rest := cs.dropWhile Char.isDigit
  let (fraction, rest) :=
    match rest with
    | '.' :: rest => (rest.takeWhile Char.isDigit, rest.dropWhile Char.isDigit)
    | rest => ([], rest)
  if whole.isEmpty && fraction.isEmpty then none
  else
    (exponent? rest).map fun exponent =>
      Double.ofDecimal negative (digitsValue (whole ++ fraction)) (exponent - fraction.length)

def plainDouble? (cs : List Char) : Option Double :=
  let (negative, cs) := splitSign cs
  let word := String.ofList (cs.map Char.toLower)
  if word = "inf" ∨ word = "infinity" then some (.infinite negative)
  else if word = "nan" then some .nan
  else decimal? negative cs

/-- The text without its underscores, when it has some and they stand singly and inside. -/
def withoutUnderscores? (cs : List Char) : Option (List Char) :=
  if cs.contains '_' && cs.head? != some '_' && cs.getLast? != some '_' &&
      !Text.contains "__".toList cs then
    some (cs.filter (· != '_'))
  else none

def readDouble? (cs : List Char) : Option Double :=
  let cs := trimPadding cs
  (plainDouble? cs).orElse fun _ => (withoutUnderscores? cs).bind plainDouble?

/-- A whole number in its one plain form: digits without leading zeros, and at most a minus. -/
def plainWhole? (cs : List Char) : Option Int :=
  let (negative, digits) :=
    match cs with
    | '-' :: cs => (true, cs)
    | cs => (false, cs)
  if digits.isEmpty || !digits.all Char.isDigit then none
  else if digits.head? == some '0' && digits.length ≠ 1 then none
  else some (if negative then -(digitsValue digits : Int) else digitsValue digits)

/-- Drops zeros and underscores after a leading zero; the last zero before a point or at the end
stays. -/
def dropZeros : List Char → Option (List Char)
  | [] => none
  | [c] => some [c]
  | c :: d :: cs =>
    if d = '.' then some (c :: d :: cs)
    else if d = '0' ∨ d = '_' then dropZeros (d :: cs)
    else if d.isDigit then some (d :: cs)
    else none

def withoutLeadingZeros? : List Char → Option (List Char)
  | [] => none
  | c :: cs =>
    if c = '0' then dropZeros (c :: cs)
    else if c.isDigit ∨ c = '-' then some (c :: cs)
    else none

/-- Drops a point that only zeros follow, one at least. -/
def withoutZeroFraction (cs : List Char) : List Char :=
  match cs.dropWhile (· != '.') with
  | _ :: zeros =>
    if !zeros.isEmpty && zeros.all (· == '0') then cs.takeWhile (· != '.') else cs
  | [] => cs

/-- The plain form that a whole number with a plus, leading zeros, a fraction of zeros or
underscores stands for. -/
def plainForm? (cs : List Char) : Option (List Char) := do
  let cs ←
    match cs with
    | '+' :: '-' :: _ => none
    | '+' :: cs => some cs
    | cs => some cs
  let cs ← withoutLeadingZeros? cs
  let cs := withoutZeroFraction cs
  return (withoutUnderscores? cs).getD cs

/-- A whole number longer than this is not read. -/
def maxWholeLength : Nat := 4300

inductive WholeFault where
  | unreadable
  | oversized
deriving DecidableEq, Repr

def readWhole (cs : List Char) : Except WholeFault Int :=
  let cs := trimPadding cs
  if cs.length > maxWholeLength then .error .oversized
  else
    match (plainWhole? cs).orElse fun _ => (plainForm? cs).bind plainWhole? with
    | some n => .ok n
    | none => .error .unreadable

/-- How the texts of numbers in settings and records are read. -/
structure Reader where
  double? : List Char → Option Double
  whole : List Char → Except WholeFault Int

/-- The reader for numbers as people type them. -/
def typed : Reader where
  double? := readDouble?
  whole := readWhole

example : (["3.00", "+4", "04", "1_0", "-0", "0_0", "00.0"].map
      fun s => (readWhole s.toList).toOption) =
    [some 3, some 4, some 4, some 10, some 0, some 0, some 0] := by decide +kernel

example : (["4.", "3.5", "1__0", "-01", "", "+", "_1", "1e2"].map
      fun s => (readWhole s.toList).toOption) =
    List.replicate 8 none := by decide +kernel

example : (["5.", ".5", "+1_0", "1e400"].map fun s => (readDouble? s.toList).map Double.plainText) =
    [some "5.0", some "0.5", some "10.0", some "inf"] := by decide +kernel

example : ([".", "", "0x10", "1e", "5s", "_5"].map fun s => readDouble? s.toList) =
    List.replicate 6 none := by decide +kernel

end EditorLink.Number
