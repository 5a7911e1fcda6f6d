import EditorLink.Json.Display
import EditorLink.Json.Writer
import EditorLink.Session.Error

/-!
# Faults of calls

Why a call of a tool, or the reading of a resource, gives no text: the caller left something out,
the editor could not be asked, or a value is of a kind that cannot be used as it is needed.
-/

namespace EditorLink

inductive CallFault where
  /-- A failure that the agent is told about. -/
  | failed (message : String)
  | missingArgument (key : String)
  | unknownResource (uri : String)
  | unknownTool (name : String)
  /-- A failure of the link to the editor that is passed on. -/
  | link (kind : LinkErrorKind) (message : String)
  /-- A failure outside the link that is passed on. -/
  | foreign (name message : String)
  | lacksMember (kind member : String)
  | notIterable (kind : String)
  | notContainer (kind : String)
  | notText (kind : String)
  | notPath (kind : String)
  /-- A value stands too deep inside others to be written. -/
  | tooDeep
deriving DecidableEq

def CallFault.message : CallFault → String
  | .failed message => message
  | .missingArgument key => Text.quoted key
  | .unknownResource uri => "Unknown resource: " ++ uri
  | .unknownTool name => "Unknown tool: " ++ name
  | .link _ message => message
  | .foreign _ message => message
  | .lacksMember kind member => s!"'{kind}' object has no attribute '{member}'"
  | .notIterable kind => s!"'{kind}' object is not iterable"
  | .notContainer kind => s!"argument of type '{kind}' is not iterable"
  | .notText kind => s!"expected string or bytes-like object, got '{kind}'"
  | .notPath kind => s!"expected str, bytes or os.PathLike object, not {kind}"
  | .tooDeep => "maximum recursion depth exceeded"

namespace Value

/-- The fields of a value that is read as an object, through one of its members. -/
def fieldsFor (member : String) : Value → Except CallFault Fields
  | .obj fields => .ok fields
  | value => .error (.lacksMember value.kindName member)

/-- The items of a value that is gone through: a text gives its characters, an object its keys. -/
def iterated : Value → Except CallFault (List Value)
  | .arr items => .ok items
  | .str s => .ok (s.toList.map fun c => .str (String.singleton c))
  | .obj fields => .ok (fields.map fun field => .str field.1)
  | value => .error (.notIterable value.kindName)

/-- The indented JSON text of a value, where there is only so much room for lists and objects that
stand inside each other. -/
def indentedWithin (room : Nat) (value : Value) : Except CallFault String :=
  if value.nesting ≤ room then .ok value.indentedText else .error .tooDeep

end Value

/-- A required argument. -/
def Fields.argument (fields : Fields) (key : String) : Except CallFault Value :=
  match fields.get? key with
  | some value => .ok value
  | none => .error (.missingArgument key)

end EditorLink
