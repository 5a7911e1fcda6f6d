import EditorLink.Review.LineChecks

/-!
# Reviews

The review of a script: every affected API change with the place of its symbol, then the line
checks. Suggestions for modern forms are made for projects of major version 4 only. The verdict and
the counts are read off the findings.
-/

namespace EditorLink

structure Review where
  errors : List Review.Error
  warnings : List Review.Warning
  suggestions : List Review.Suggestion

namespace Review

/-! ## API changes -/

/-- The error for an affected API change, at the place of the change's old symbol. -/
def apiError (lines : List Line) (change : Migration.ApiChange) : Error :=
  let place := change.fromSymbol.bind fun symbol => firstPlace? symbol.toList lines
  { kind := .apiCompatibility
    level := if change.severity = .breaking then .error else .warning
    message := "API compatibility issue: " ++ change.description
    line := place.map fun place => (place.line : Int)
    column := place.map fun place => (place.column : Int)
    code := change.fromSymbol.orElse fun _ => change.toSymbol
    suggestion := some change.migrationNotes
    fixable := change.fix.isSome }

def apiErrors (script : List Char) : List Error :=
  (Migration.reportedChanges script).map (apiError (linesOf script))

/-! ## Modern forms -/

def awaitOverYield : Suggestion where
  message := "Use await instead of yield"
  benefit := "Reads like ordinary sequential code"
  implementation := "yield(get_tree().create_timer(1.0), \"timeout\") -> " ++
    "await get_tree().create_timer(1.0).timeout"

def exportOverPreload : Suggestion where
  message := "Consider exporting the resource with @export"
  benefit := "Editable in the inspector"
  implementation := "@export var resource: Resource = preload(\"path\")"

def modernForms (script : List Char) : List Suggestion :=
  (if mentions script "yield(" then [awaitOverYield] else []) ++
    (if mentions script "preload(" then [exportOverPreload] else [])

def suggestionsFor (script : List Char) (major : Option Int) : List Suggestion :=
  if major = some 4 then connectionSuggestions (linesOf script) ++ modernForms script else []

/-- Reviews a script for a project whose major version is known or not. -/
def ofScript (script : List Char) (major : Option Int) : Review :=
  let lines := linesOf script
  { errors := apiErrors script ++ indentErrors lines
    warnings := nodeWarnings lines ++ performanceWarnings lines ++ safetyWarnings lines
    suggestions := suggestionsFor script major }

/-! ## Verdict and counts -/

def isValid (review : Review) : Bool := review.errors.isEmpty

inductive Compatibility where
  | fullyCompatible
  | needsAttention
  | breakingChanges
deriving DecidableEq

def Compatibility.name : Compatibility → String
  | .fullyCompatible => "fully_compatible"
  | .needsAttention => "needs_attention"
  | .breakingChanges => "breaking_changes"

inductive Effort where
  | low
  | medium
  | high
deriving DecidableEq

def Effort.name : Effort → String
  | .low => "low"
  | .medium => "medium"
  | .high => "high"

/-- Counts by weight: an error that is only a warning by its level counts among the warnings. -/
structure Summary where
  total : Nat
  errors : Nat
  warnings : Nat
  suggestions : Nat
  compatibility : Compatibility
  effort : Effort

def countLevel (review : Review) (level : Level) : Nat :=
  review.errors.countP (·.level = level)

def summary (review : Review) : Summary :=
  let errors := review.countLevel .error
  let warnings := review.warnings.length + review.countLevel .warning
  { total := review.errors.length + review.warnings.length + review.suggestions.length
    errors
    warnings
    suggestions := review.suggestions.length
    compatibility :=
      if errors ≠ 0 then .breakingChanges
      else if warnings ≠ 0 then .needsAttention
      else .fullyCompatible
    effort :=
      if errors > 5 then .high
      else if errors ≠ 0 ∨ warnings > 3 then .medium
      else .low }

def Summary.record (summary : Summary) : Value :=
  .obj [("total_issues", .int summary.total), ("errors", .int summary.errors),
    ("warnings", .int summary.warnings), ("suggestions", .int summary.suggestions),
    ("compatibility", .str summary.compatibility.name),
    ("estimated_effort", .str summary.effort.name)]

def record (review : Review) : Value :=
  .obj [("is_valid", .bool review.isValid), ("errors", .arr (review.errors.map Error.record)),
    ("warnings", .arr (review.warnings.map Warning.record)),
    ("suggestions", .arr (review.suggestions.map Suggestion.record)),
    ("summary", review.summary.record)]

end Review

end EditorLink
