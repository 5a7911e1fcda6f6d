import EditorLink.Project.Files
import EditorLink.Text.Utf8

/-!
# File trees

Files and directories below one root, seen from a working directory. A path is followed component
by component, so that the first one that is missing, is a file, or is too long to be a name decides
what happens; a path that is too long as a whole is not followed at all.
-/

namespace EditorLink.Project

/-- Nothing is found through a sealed directory, whatever is in it. -/
inductive Node where
  | file (content : File)
  | directory
  | sealedDirectory
deriving DecidableEq, Repr

/-- The nodes stand with their components from the root on; the root itself has no entry. -/
structure FileTree where
  workingDirectory : List Component := []
  nodes : List (List Component × Node) := []
deriving DecidableEq, Repr

/-! ## Following a path -/

def octetCount (cs : List Char) : Nat := (Text.Utf8.encode cs).length

/-- The longest name of a file, in octets. -/
def maxNameLength : Nat := 255

/-- The longest path, in octets. -/
def maxPathLength : Nat := 4095

namespace FileTree

def node? (tree : FileTree) (components : List Component) : Option Node :=
  if components.isEmpty then some .directory else tree.nodes.lookup components

/-- Enters one component of a directory. Above the root is the root. -/
def enter (tree : FileTree) (directory : List Component) (component : Component) :
    Except FileFaultKind (List Component) :=
  match tree.node? directory with
  | none => .error .missing
  | some (.file _) => .error .notDirectory
  | some .sealedDirectory => .error .denied
  | some .directory =>
    if component = "..".toList then .ok directory.dropLast
    else if maxNameLength < octetCount component then .error .nameTooLong
    else if (tree.node? (directory ++ [component])).isSome then .ok (directory ++ [component])
    else .error .missing

/-- Where a path starts. -/
def startOf (tree : FileTree) : PathBase → List Component
  | .relative => tree.workingDirectory
  | .root | .doubleRoot => []

def locate (tree : FileTree) (path : Path) : Except FileFaultKind (List Component) :=
  if maxPathLength < octetCount path.text then .error .nameTooLong
  else path.components.foldlM tree.enter (tree.startOf path.base)

/-- A path with a NUL names nothing, and neither does one that goes through a file or through
something that is missing. -/
def files (tree : FileTree) : Files := fun path =>
  if path.hasNul then .ok none
  else
    match tree.locate path with
    | .ok components =>
      match tree.node? components with
      | some (.file content) => .ok (some content)
      | _ => .ok none
    | .error .missing | .error .notDirectory => .ok none
    | .error kind => .error ⟨kind, path.text⟩

end FileTree

example :
    let tree : FileTree :=
      { workingDirectory := ["a".toList]
        nodes := [(["a".toList], .directory), (["a".toList, "f".toList], .file .unreadable)] }
    ["f", "/a/f", "../a//f/.", "../../a/f", "f/..", "g", "/f"].map
        (fun s => (tree.files (.ofText s.toList)).toOption) =
      List.replicate 4 (some (some .unreadable)) ++ List.replicate 3 (some none) := by
  decide +kernel

end EditorLink.Project
