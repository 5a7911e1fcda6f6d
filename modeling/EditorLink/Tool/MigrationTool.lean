import EditorLink.Exchange.Fault
import EditorLink.Migration.Fix
import EditorLink.Migration.Record
import EditorLink.Project.Detector
import EditorLink.Review.Repair
import EditorLink.Review.Report
import EditorLink.Tool.Schema

/-!
# Migration tools

The tools that help to move a project from one major version to the next. They work on scripts and
project files alone and never ask the editor. Each answers with a JSON document that tells whether
it had success. A call may name a project of its own; otherwise the shared detector is asked, and
remembers what it finds.
-/

namespace EditorLink

inductive MigrationTool where
  | detectVersion
  | checkCompatibility
  | fixCompatibility
  | migrationAdvice
  | validateScript
deriving DecidableEq

namespace MigrationTool

open Migration Project Tool

def all : List MigrationTool :=
  [.detectVersion, .checkCompatibility, .fixCompatibility, .migrationAdvice, .validateScript]

def name : MigrationTool → String
  | detectVersion => "detect_godot_version"
  | checkCompatibility => "check_godot_api_compatibility"
  | fixCompatibility => "fix_godot_api_compatibility"
  | migrationAdvice => "get_godot_migration_advice"
  | validateScript => "validate_gdscript"

/-! ## Answers -/

def success (data : Fields) : Value := .obj [("success", .bool true), ("data", .obj data)]

def refusal (message : String) (more : Fields) : Value :=
  .obj ([("success", .bool false), ("error", .str message)] ++ more)

/-! ## The detector of a call -/

/-- A call works with the shared detector, which keeps what it remembered when the call fails. -/
abbrev Call (α : Type) := ExceptT CallFault (StateM Detector) α

abbrev Detection (α : Type) := Except FileFault (α × Detector)

/-- Asks the detector of the project that the call names, or else the shared one. -/
def detecting {α : Type} (arguments : Fields) (detect : Detector → Detection α) :
    Call (Except FileFault α) := do
  let project := arguments.getOrNull "projectPath"
  if project.isTruthy then
    match project with
    | .str path => return (detect { directory := .ofText path.toList }).map (·.1)
    | value => throw (.notPath value.kindName)
  else
    match detect (← get) with
    | .ok (found, detector) =>
      set detector
      return .ok found
    | .error fault => return .error fault

def majorText (major : Nat) : String := intText major ++ ".x"

/-- The version that scripts are checked for: the project's where it is asked for or a project is
named, and known; else the one that is asked for, where `auto` and none stand for 4.x. -/
def resolveTarget (files : Files) (arguments : Fields) : Call (Except FileFault Value) := do
  let requested := (arguments.getOrNull "targetVersion").orElse (.str "auto")
  let unresolved := if requested.isStr "auto" then .str "4.x" else requested
  if requested.isStr "auto" || (arguments.getOrNull "projectPath").isTruthy then
    match ← detecting arguments fun detector => detector.detect files with
    | .ok (some info) =>
      return .ok (.str (if info.release.major = 4 then "4.x" else "3.x"))
    | .ok none => return .ok unresolved
    | .error fault => return .error fault
  else return .ok unresolved

/-! ## The tools -/

def asScript (value : Value) : Except CallFault (List Char) :=
  match value with
  | .str s => .ok s.toList
  | value => .error (.notText value.kindName)

/-- The configuration's record, null where the file cannot be read any more. -/
def projectRecord (project : Option (Config × VersionInfo)) : Value :=
  .ofOption (fun (config, info) => config.record info) project

def versionAnswer (info : VersionInfo) (project : Option (Config × VersionInfo)) : Value :=
  success
    [("version", info.record),
     ("project", projectRecord project),
     ("compatibilityHints", .strings (hintsFor info.release.major)),
     ("recommendations", .obj
       [("isGodot4", .bool (info.release.major = 4)),
        ("isGodot3", .bool (info.release.major = 3)),
        ("needsMigration", .bool (info.release.major = 3))])]

def noVersionAnswer : Value :=
  refusal "No Godot project file found, or its version could not be read"
    [("suggestions", .strings
      ["Run this tool from the root of a Godot project",
       "Check that project.godot exists and is well formed"])]

def runDetectVersion (files : Files) (arguments : Fields) : Call Value := do
  match ← detecting arguments fun detector => detector.survey files with
  | .error fault => return refusal ("Version detection failed: " ++ fault.message) []
  | .ok (none, _) => return noVersionAnswer
  | .ok (some info, project) => return versionAnswer info project

/-- A change as the check reports it: its record with a note whether there is a fix. -/
def issueRecord (change : ApiChange) : Value :=
  .obj (change.fields ++ [("auto_fix_available", .bool change.fix.isSome)])

def countSeverity (issues : List ApiChange) (severity : Severity) : Nat :=
  issues.countP (·.severity = severity)

def checkAnswer (target : Value) (issues : List ApiChange) : Value :=
  let breaking := countSeverity issues .breaking
  let deprecated := countSeverity issues .deprecated
  success
    [("targetVersion", target),
     ("issues", .obj
       [("total", .int issues.length),
        ("breaking", .int breaking),
        ("deprecated", .int deprecated),
        ("changed", .int (countSeverity issues .changed)),
        ("details", .arr (issues.map issueRecord))]),
     ("summary", .obj
       [("needsFixes", .bool (breaking > 0)),
        ("hasWarnings", .bool (deprecated > 0)),
        ("compatibility",
          .str (if issues.isEmpty then "fully_compatible" else "needs_attention"))])]

def runCheck (files : Files) (arguments : Fields) : Call Value := do
  match ← resolveTarget files arguments with
  | .error fault => return refusal ("Compatibility check failed: " ++ fault.message) []
  | .ok target =>
    let script ← asScript (← arguments.argument "code")
    return checkAnswer target (reportedChanges script)

/-- Whether a category is among the wanted ones: an item of a list, a key of an object, or a part of
a text. -/
def isWanted (wanted : Value) (category : String) : Except CallFault Bool :=
  match wanted with
  | .arr items => .ok (items.any (·.isStr category))
  | .obj fields => .ok (fields.any (·.1 == category))
  | .str s => .ok (Text.contains category.toList s.toList)
  | value => .error (.notContainer value.kindName)

/-- The changes to fix; all of them when none are asked for. -/
def wantedChanges (arguments : Fields) (issues : List ApiChange) :
    Except CallFault (List ApiChange) :=
  let wanted := arguments.getOrNull "issueIds"
  if wanted.isTruthy then issues.filterM fun issue => isWanted wanted issue.category
  else .ok issues

structure AppliedFix where
  change : ApiChange
  succeeded : Bool

/-- Applies fixes in order; each works on what the ones before it left. -/
def applyFixes (script : List Char) : List ApiChange → List Char × List AppliedFix
  | [] => (script, [])
  | change :: changes =>
    match applyFix? change script with
    | some fixed =>
      let (final, applied) := applyFixes fixed changes
      (final, ⟨change, fixed != script⟩ :: applied)
    | none =>
      let (final, applied) := applyFixes script changes
      (final, ⟨change, false⟩ :: applied)

def AppliedFix.record (fix : AppliedFix) : Value :=
  .obj [("category", .str fix.change.category), ("description", .str fix.change.description),
    ("success", .bool fix.succeeded)]

def scriptValue (script : List Char) : Value := .str (String.ofList script)

def nothingToFixAnswer (script : List Char) : Value :=
  success
    [("originalCode", scriptValue script),
     ("fixedCode", scriptValue script),
     ("fixes", .arr []),
     ("summary", .str "Nothing to fix, the code is already compatible")]

def fixAnswer (target : Value) (script : List Char) (issues toFix : List ApiChange) : Value :=
  let (fixed, applied) := applyFixes script toFix
  let succeeded := applied.countP (·.succeeded)
  success
    [("originalCode", scriptValue script),
     ("fixedCode", scriptValue fixed),
     ("fixes", .arr (applied.map AppliedFix.record)),
     ("summary", .str s!"Applied {succeeded}/{applied.length} fixes"),
     ("targetVersion", target),
     ("remainingIssues", .int ((issues.length : Int) - toFix.length))]

def runFix (files : Files) (arguments : Fields) : Call Value := do
  let code ← arguments.argument "code"
  match ← resolveTarget files arguments with
  | .error fault => return refusal ("Fix failed: " ++ fault.message) []
  | .ok target =>
    let script ← asScript code
    let issues := reportedChanges script
    let toFix ← wantedChanges arguments issues
    if toFix.isEmpty then return nothingToFixAnswer script
    else return fixAnswer target script issues toFix

def checklist : List String :=
  ["Back up the project before migrating",
   "Migrate and test one file at a time",
   "Use the Godot editor's project converter as a starting point",
   "Run a full test pass after migrating"]

def breakingRecord (change : ApiChange) : Value :=
  .obj [("category", .str change.category), ("oldMethod", .ofOption .str change.fromSymbol),
    ("newMethod", .ofOption .str change.toSymbol), ("description", .str change.description),
    ("example", .ofOption .str change.exampleAfter)]

/-- Whether a version belongs to a major release, by how its text starts. -/
def startsWith (lead : String) : Value → Except CallFault Bool
  | .str s => .ok (lead.isPrefixOf s)
  | value => .error (.lacksMember value.kindName "startswith")

/-- The target is looked at only where the source is a 3.x release. -/
def adviceFor (source target : Value) : Except CallFault (List String) := do
  if ← startsWith "3." source then
    if ← startsWith "4." target then return adviceLines
  return []

def adviceAnswer (source target : Value) (advice : List String) : Value :=
  success
    [("migration", .obj [("from", source), ("to", target), ("advice", .strings advice)]),
     ("breakingChanges", .arr (breakingChanges.map breakingRecord)),
     ("statistics", .obj
       [("totalChanges", .int allChanges.length),
        ("breakingChanges", .int breakingChanges.length),
        ("categories", .strings categories)]),
     ("recommendations", .strings checklist)]

/-- Where a version is not given, a named project tells it, and moves to the other major version. -/
def versionsOf (arguments : Fields) (info : Option VersionInfo) : Value × Value :=
  let source := arguments.getOrNull "fromVersion"
  let target := arguments.getOrNull "toVersion"
  let (source, target) :=
    match info with
    | some info => (source.orElse (.str (majorText info.release.major)),
        target.orElse (.str (if info.release.major = 3 then "4.x" else "3.x")))
    | none => (source, target)
  (source.orElse (.str "3.x"), target.orElse (.str "4.x"))

def runAdvice (files : Files) (arguments : Fields) : Call Value := do
  let found ←
    if (arguments.getOrNull "projectPath").isTruthy then
      detecting arguments fun detector => detector.detect files
    else pure (.ok none)
  match found with
  | .error fault => return refusal ("Could not get migration advice: " ++ fault.message) []
  | .ok info =>
    let (source, target) := versionsOf arguments info
    return adviceAnswer source target (← adviceFor source target)

def validationAnswer (review : Review) (repaired : Option (List Char)) : Value :=
  success ([("validation", review.record)] ++ optionalField "fixedCode" (repaired.map scriptValue))

/-- A script is split into lines before anything else is done with it. -/
def asLines : Value → Except CallFault (List Char)
  | .str s => .ok s.toList
  | value => .error (.lacksMember value.kindName "split")

/-- Where the project cannot be looked at, the script is reviewed without a version. -/
def runValidate (files : Files) (arguments : Fields) : Call Value := do
  let info :=
    match ← detecting arguments fun detector => detector.detect files with
    | .ok info => info
    | .error _ => none
  let script ← asLines (← arguments.argument "code")
  let review := Review.ofScript script (info.map fun info => info.release.major)
  let repaired :=
    if (arguments.getOrNull "autoFix").isTruthy then some (Review.repair script review.errors)
    else none
  return validationAnswer review repaired

def run (tool : MigrationTool) (files : Files) (arguments : Fields) : Call Value :=
  match tool with
  | detectVersion => runDetectVersion files arguments
  | checkCompatibility => runCheck files arguments
  | fixCompatibility => runFix files arguments
  | migrationAdvice => runAdvice files arguments
  | validateScript => runValidate files arguments

/-- The outcome of a call and the shared detector after it. There is only so much room to write an
answer. -/
def call (room : Nat) (tool : MigrationTool) (files : Files) (detector : Detector)
    (arguments : Fields) : Except CallFault String × Detector :=
  let (outcome, detector) := (tool.run files arguments).run detector
  (outcome.bind (Value.indentedWithin room), detector)

end MigrationTool

end EditorLink
