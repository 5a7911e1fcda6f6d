import EditorLink.Form.Field

/-!
# Findings

What a review of a script can say: errors, with a place and perhaps a fix; warnings, with a line;
and suggestions for the whole script. Each has a record, and errors are read back from theirs.
-/

namespace EditorLink.Review

inductive ErrorKind where
  | apiCompatibility
  | badSyntax
  | logical
  | performance
deriving DecidableEq

def ErrorKind.name : ErrorKind → String
  | .apiCompatibility => "api_compatibility"
  | .badSyntax => "syntax"
  | .logical => "logical"
  | .performance => "performance"

def ErrorKind.all : List ErrorKind := [.apiCompatibility, .badSyntax, .logical, .performance]

inductive Level where
  | error
  | warning
  | info
deriving DecidableEq

def Level.name : Level → String
  | .error => "error"
  | .warning => "warning"
  | .info => "info"

def Level.all : List Level := [.error, .warning, .info]

/-- An error; lines and columns count from 1. -/
structure Error where
  kind : ErrorKind
  level : Level
  message : String
  line : Option Int := none
  column : Option Int := none
  code : Option String := none
  suggestion : Option String := none
  fixable : Bool := false
deriving DecidableEq

inductive WarningKind where
  | safety
  | performance
  | bestPractice
deriving DecidableEq

def WarningKind.name : WarningKind → String
  | .safety => "safety"
  | .performance => "performance"
  | .bestPractice => "best_practice"

structure Warning where
  kind : WarningKind
  message : String
  line : Nat
  recommendation : String
deriving DecidableEq

/-- A suggestion for a more modern way to write something. -/
structure Suggestion where
  message : String
  benefit : String
  implementation : String
deriving DecidableEq

/-! ## Records -/

def Error.record (error : Error) : Value :=
  .obj [("type", .str error.kind.name), ("severity", .str error.level.name),
    ("message", .str error.message), ("line", .ofOption .int error.line),
    ("column", .ofOption .int error.column), ("code", .ofOption .str error.code),
    ("suggestion", .ofOption .str error.suggestion),
    ("auto_fix_available", .bool error.fixable)]

open Form in
def Error.ofFields (reader : Number.Reader) (fields : Fields) : Checked Error :=
  Error.mk <$> required fields "type" (choice ErrorKind.all ErrorKind.name)
    <*> required fields "severity" (choice Level.all Level.name)
    <*> required fields "message" text
    <*> optional fields "line" (whole reader)
    <*> optional fields "column" (whole reader)
    <*> optional fields "code" text
    <*> optional fields "suggestion" text
    <*> withDefault fields "auto_fix_available" flag false

/-- Reads errors back in order; the first record that is refused settles the outcome. -/
def Error.ofRecords (reader : Number.Reader) : List Fields → Form.Checked (List Error)
  | [] => .accepted []
  | fields :: records =>
    match Error.ofFields reader fields with
    | .accepted error => (error :: ·) <$> Error.ofRecords reader records
    | .refused faults => .refused faults

def Warning.record (warning : Warning) : Value :=
  .obj [("type", .str warning.kind.name), ("message", .str warning.message),
    ("line", .int warning.line), ("recommendation", .str warning.recommendation)]

def Suggestion.record (suggestion : Suggestion) : Value :=
  .obj [("type", .str "modernization"), ("message", .str suggestion.message),
    ("benefit", .str suggestion.benefit), ("implementation", .str suggestion.implementation)]

end EditorLink.Review
