import EditorLink.Migration.Edit

/-!
# Fixes

A fix edits a script for one change. It is given only when the change has a strategy and an
example of the new form, and when the edit changes the text. A note with the change's
description and advice is added at the end, unless the edited text already holds the
description.
-/

namespace EditorLink.Migration

def fixNote (change : ApiChange) : List Char :=
  ("\n\n# Fix note: " ++ change.description ++ "\n# Suggestion: " ++ change.migrationNotes).toList

/-- The edited script with the note, where the edited text lacks the description. -/
def withNote (change : ApiChange) (text : List Char) : List Char :=
  if Text.contains change.description.toList text then text else text ++ fixNote change

def ApiChange.hasExample (change : ApiChange) : Bool := change.exampleAfter.getD "" != ""

/-- The script with every occurrence of the change replaced, if any. -/
def applyFix? (change : ApiChange) (source : List Char) : Option (List Char) :=
  match change.fix with
  | none => none
  | some strategy =>
    let text := strategy.edit source
    if change.hasExample && text != source then some (withNote change text) else none

/-- The script after a fix, or as it was where there is none. -/
def fixOrKeep (change : ApiChange) (source : List Char) : List Char :=
  (applyFix? change source).getD source

end EditorLink.Migration
