import EditorLink.Text.Class

/-!
# Text as lists of characters

Trimming, splitting and searching on `List Char`. Positions are counted in characters from 0.
-/

namespace EditorLink.Text

def dropRightWhile (p : Char → Bool) (cs : List Char) : List Char :=
  (cs.reverse.dropWhile p).reverse

def trimBoth (p : Char → Bool) (cs : List Char) : List Char :=
  dropRightWhile p (cs.dropWhile p)

/-- The characters of a text that is written out, which is slow to evaluate. -/
theorem toList_of_eq {s : String} {cs : List Char} (h : s = String.ofList cs) : s.toList = cs := by
  rw [h, String.toList_ofList]

theorem toList_append_of_eq {s t : String} {cs ds : List Char} (hs : s.toList = cs)
    (ht : t.toList = ds) : (s ++ t).toList = cs ++ ds := by
  rw [String.toList_append, hs, ht]

/-- Removes the blanks at both ends. -/
def trim (cs : List Char) : List Char := trimBoth isBlank cs

def trimRight (cs : List Char) : List Char := dropRightWhile isBlank cs

/-- Splits at the first occurrence of `sep`, which belongs to neither part. -/
def splitFirst? (sep : Char) (cs : List Char) : Option (List Char × List Char) :=
  match cs.dropWhile (· != sep) with
  | [] => none
  | _ :: rest => some (cs.takeWhile (· != sep), rest)

/-- Gathers lines, where `line` holds the current line reversed and CR LF is a single line end. A
text that ends with a line end has no further, empty line. -/
def linesFrom (line : List Char) : List Char → List (List Char)
  | [] => if line.isEmpty then [] else [line.reverse]
  | '\r' :: '\n' :: cs => line.reverse :: linesFrom [] cs
  | c :: cs => if isLineEnd c then line.reverse :: linesFrom [] cs else linesFrom (c :: line) cs

def lines (cs : List Char) : List (List Char) := linesFrom [] cs

/-- Every line end of the kinds CR LF, CR and LF becomes LF. -/
def unifyNewlines : List Char → List Char
  | [] => []
  | '\r' :: '\n' :: cs => '\n' :: unifyNewlines cs
  | c :: cs => (if c = '\r' then '\n' else c) :: unifyNewlines cs

/-- The position of the first occurrence of `needle`. -/
def indexOf? (needle : List Char) : List Char → Option Nat
  | [] => if needle.isEmpty then some 0 else none
  | c :: cs =>
    if needle.isPrefixOf (c :: cs) then some 0 else (indexOf? needle cs).map (· + 1)

def contains (needle cs : List Char) : Bool := (indexOf? needle cs).isSome

/-- What follows `lead`, when the text starts with it. -/
def after? (lead cs : List Char) : Option (List Char) := lead.isPrefixOf? cs

def endsWith (tail cs : List Char) : Bool := tail.isSuffixOf cs

example : lines "a\r\n\rb\x0c".toList = ["a".toList, [], "b".toList] := by decide

end EditorLink.Text
