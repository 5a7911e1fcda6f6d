import EditorLink.Text.Basic

/-!
# Places in a script

A place is a line and a column, both counted from 1. `firstPlace?` is the place of the first
occurrence of a symbol, looked up line by line.
-/

namespace EditorLink.Review

abbrev Line := List Char

def linesOf (script : List Char) : List Line := script.splitOn '\n'

structure Place where
  line : Nat
  column : Nat
deriving DecidableEq, Repr

/-- The first occurrence of `symbol` in some lines. -/
def firstPlace? (symbol : List Char) (lines : List Line) : Option Place :=
  (lines.zipIdx 1).findSome? fun (line, number) =>
    (Text.indexOf? symbol line).map fun index => ⟨number, index + 1⟩

example : firstPlace? "b".toList (linesOf "a\n ab".toList) = some ⟨2, 3⟩ := by decide

end EditorLink.Review
