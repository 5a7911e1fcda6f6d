import EditorLink.Migration.Fix
import EditorLink.Review.Finding

/-!
# Repairs

Applies the fixes of the fixable errors of a review, from the last line to the first; errors on one
line, and errors without a line, which come last but for negative lines, keep their order.
-/

namespace EditorLink.Review

/-- An error about an API change that can be fixed and has a symbol to look the change up by. -/
def Error.isRepairable (error : Error) : Bool :=
  error.kind = .apiCompatibility && error.fixable && error.code.getD "" != ""

def Error.lineKey (error : Error) : Int := error.line.getD 0

/-- The repairable errors in the order in which they are repaired. -/
def repairOrder (errors : List Error) : List Error :=
  (errors.filter Error.isRepairable).mergeSort fun a b => b.lineKey ≤ a.lineKey

def Error.change? (error : Error) : Option Migration.ApiChange :=
  error.code.bind Migration.findChange?

def repairOne (script : List Char) (error : Error) : List Char :=
  match error.change? with
  | some change => Migration.fixOrKeep change script
  | none => script

def repair (script : List Char) (errors : List Error) : List Char :=
  (repairOrder errors).foldl repairOne script

end EditorLink.Review
