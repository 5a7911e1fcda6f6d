import EditorLink.Number.Reading

/-!
# Whole numbers in the digits of any script

A whole number as project files write it: an optional sign, then decimal digits of any script with
underscores singly between them, and blanks around it all. Leading zeros do not matter; numbers of
more than `maxWholeLength` digits are refused.
-/

namespace EditorLink.Number

/-- Digits with underscores singly between them. `afterDigit` tells whether a digit comes directly
before, so that an underscore or the end may follow. -/
def groupedDigits? (afterDigit : Bool) : List Char → Option (List Nat)
  | [] => if afterDigit then some [] else none
  | c :: cs =>
    if c = '_' then if afterDigit then groupedDigits? false cs else none
    else
      match Text.decimalDigit? c with
      | some digit => (groupedDigits? true cs).map (digit :: ·)
      | none => none

def ofDigits (digits : List Nat) : Nat := digits.foldl (fun value digit => 10 * value + digit) 0

def readInteger? (cs : List Char) : Option Int := do
  let (negative, cs) := splitSign (trimPadding cs)
  let digits ← groupedDigits? false cs
  if digits.length > maxWholeLength then none
  else some (if negative then -(ofDigits digits : Int) else ofDigits digits)

example : ["+5", "0_5", "٣", " -07 ", "\u00a03"].map (fun s => readInteger? s.toList) =
    [some 5, some 5, some 3, some (-7), some 3] := by decide +kernel

example : ["", "+", "_5", "5_", "1__0", "5.0", "+ 5", "3²", "\x1f5"].map
      (fun s => readInteger? s.toList) =
    List.replicate 9 none := by decide +kernel

end EditorLink.Number
