import EditorLink.Form.Field
import EditorLink.Migration.Change

/-!
# Changes as records

A change as a JSON record, and read back from one. `ofFields` accepts a record exactly when it has
the four required fields and every named field has the right kind of value.
-/

namespace EditorLink.Migration.ApiChange

/-- The change without its fix, under the record's field names. -/
def fields (change : ApiChange) : Fields :=
  [("category", .str change.category),
   ("from_symbol", .ofOption .str change.fromSymbol),
   ("to_symbol", .ofOption .str change.toSymbol),
   ("description", .str change.description),
   ("migration_notes", .str change.migrationNotes),
   ("example_before", .ofOption .str change.exampleBefore),
   ("example_after", .ofOption .str change.exampleAfter),
   ("severity", .str change.severity.name)]

def record (change : ApiChange) : Value :=
  .obj (change.fields ++ [("fix", .ofOption (fun fix => .str fix.name) change.fix)])

open Form in
def ofFields (fields : Fields) : Checked ApiChange :=
  ApiChange.mk <$> required fields "category" text
    <*> optional fields "from_symbol" text
    <*> optional fields "to_symbol" text
    <*> required fields "description" text
    <*> required fields "migration_notes" text
    <*> optional fields "example_before" text
    <*> optional fields "example_after" text
    <*> required fields "severity" (choice Severity.all Severity.name)
    <*> optional fields "fix" (choice FixStrategy.all FixStrategy.name)

end EditorLink.Migration.ApiChange
