import EditorLink.Project.ConfigFile
import EditorLink.Project.Files
import EditorLink.Text.Utf8

/-!
# Detectors

A detector looks into a project's directory for its project file and remembers the version that it
found there first, until its path is set or its memory is cleared. Whether the file exists is
checked every time; a file that cannot be read, or is not UTF-8, counts as unknown and is not
remembered.
-/

namespace EditorLink.Project

structure Detector where
  directory : Path
  memory : List (Path × VersionInfo) := []

namespace Detector

/-- A new detector of the directory that a text names; no text stands for the working directory. -/
def ofText (workingDirectory : Path) (directory : List Char) : Detector where
  directory := if directory.isEmpty then workingDirectory else Path.ofText directory

def clear (detector : Detector) : Detector := { detector with memory := [] }

def setDirectory (_ : Detector) (directory : List Char) : Detector where
  directory := Path.ofText directory

def configPath (detector : Detector) : Path := detector.directory.child "project.godot".toList

def configText (detector : Detector) : String := String.ofList detector.configPath.text

/-- The text of a file: UTF-8 with line ends unified. -/
def contentOf? : File → Option (List Char)
  | .readable octets => (Text.Utf8.decode? octets).map Text.unifyNewlines
  | .unreadable => none

/-- The version of the project, if there is a readable project file, and the detector that
remembers it. -/
def detect (detector : Detector) (files : Files) :
    Except FileFault (Option VersionInfo × Detector) := do
  match ← files detector.configPath with
  | none => return (none, detector)
  | some file =>
    match detector.memory.lookup detector.directory with
    | some info => return (some info, detector)
    | none =>
      match contentOf? file with
      | none => return (none, detector)
      | some content =>
        let info := versionInfo content detector.configText
        return (some info, { detector with memory := (detector.directory, info) :: detector.memory })

/-- The configuration that the project file holds now, with the version as `detect` gives it. -/
def config (detector : Detector) (files : Files) :
    Except FileFault (Option (Config × VersionInfo) × Detector) := do
  let (info, detector) ← detector.detect files
  let file ← files detector.configPath
  return ((info.bind fun info => (file.bind contentOf?).map fun content =>
    (configOf content, info)), detector)

/-- Version and configuration together. -/
def survey (detector : Detector) (files : Files) :
    Except FileFault ((Option VersionInfo × Option (Config × VersionInfo)) × Detector) := do
  let (info, detector) ← detector.detect files
  let (config, detector) ← detector.config files
  return ((info, config), detector)

def hasMajor (detector : Detector) (files : Files) (major : Nat) :
    Except FileFault (Bool × Detector) := do
  let (info, detector) ← detector.detect files
  return (info.any (·.release.major == major), detector)

end Detector

end EditorLink.Project
