import EditorLink.Tool.EditorSchema
import EditorLink.Tool.MigrationTool

/-!
# What migration tools take

The description and the input schema of each migration tool, as agents see them.
-/

namespace EditorLink

namespace MigrationTool

open Tool

def description : MigrationTool → String
  | detectVersion => "Detect the Godot version and configuration of a project"
  | checkCompatibility =>
    "Check GDScript code for Godot 3.x -> 4.x API compatibility problems"
  | fixCompatibility => "Rewrite GDScript code to fix known Godot 3.x -> 4.x API problems"
  | migrationAdvice =>
    "Get advice and the list of breaking changes for a Godot version migration"
  | validateScript => "Validate GDScript for compatibility, safety and performance problems"

def targetProperty : Property where
  name := "targetVersion"
  kind := .choice ["3.x", "4.x", "auto"]
  default := some (.str "auto")
  description := some "Target version; auto detects it from the project"

def schema : MigrationTool → Schema
  | detectVersion =>
    { properties := [textProperty "projectPath"
        "Project directory; defaults to the configured project path"] }
  | checkCompatibility =>
    { properties :=
        [textProperty "code" "GDScript code to check",
         targetProperty,
         textProperty "projectPath" "Project directory used for version detection"]
      required := ["code"] }
  | fixCompatibility =>
    { properties :=
        [textProperty "code" "GDScript code to fix",
         { textProperty "issueIds"
            ("Categories to fix (e.g. [\"tween\", \"particles\"]); " ++
              "empty fixes everything") with kind := .textList },
         targetProperty,
         textProperty "projectPath" "Project directory used for version detection"]
      required := ["code"] }
  | migrationAdvice =>
    { properties :=
        [textProperty "fromVersion" "Source version (e.g. \"3.x\")",
         textProperty "toVersion" "Target version (e.g. \"4.x\")",
         textProperty "projectPath"
          "Project directory used to detect the current version"] }
  | validateScript =>
    { properties :=
        [textProperty "code" "GDScript code to validate",
         textProperty "projectPath" "Project directory used for version-specific checks",
         { flagProperty "autoFix" false with
            description := some "Also return the code with automatic fixes applied" }]
      required := ["code"] }

end MigrationTool

end EditorLink
