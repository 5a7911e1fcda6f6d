import EditorLink.Json.Value

/-!
# Releases

The release of the engine that a project is made for, as far as its configuration version and its
feature tags tell, and what a script author should know about it.
-/

namespace EditorLink.Project

structure Release where
  major : Nat
  minor : Nat
deriving DecidableEq, Repr

/-- The version text; the patch level is not known and given as 0. -/
def Release.text (release : Release) : String :=
  intText release.major ++ "." ++ intText release.minor ++ ".0"

abbrev Tag := List Char

/-- The release that a configuration version and feature tags stand for. Configuration version 5
covers every release from 4.1 on, so that a tag alone tells 4.5 from the baseline 4.2, which is
also what an unknown configuration version counts as. -/
def releaseOf (configVersion : Option Int) (tags : List Tag) : Release :=
  if configVersion = some 5 then ⟨4, if "4.5".toList ∈ tags then 5 else 2⟩
  else if configVersion = some 4 then ⟨4, 0⟩
  else if configVersion = some 3 then
    ⟨3, if "3.5".toList ∈ tags then 5 else if "3.4".toList ∈ tags then 4 else 0⟩
  else ⟨4, 2⟩

def hintsFor (major : Int) : List String :=
  if major = 4 then
    ["Project uses the Godot 4.x API",
     "Tween was rewritten: use tween_property() instead of interpolate_property()",
     "Input handling changed: use the new InputEvent* APIs",
     "Gradient API changed: use get_color()/set_color() instead of get_color_at_offset()"]
  else if major = 3 then
    ["Project uses the Godot 3.x API", "Note: parts of this API changed in Godot 4.x"]
  else []

end EditorLink.Project
