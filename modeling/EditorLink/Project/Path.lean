import EditorLink.Text.Basic

/-!
# Paths

A path is a base and the components below it. Empty components and single points do not count, so
that every path has one normal text; `..` stays. Two slashes in front are a base of their own, three
or more are one slash.
-/

namespace EditorLink.Project

abbrev Component := List Char

inductive PathBase where
  | relative
  | root
  | doubleRoot
deriving DecidableEq, Repr

/-- The text in front of the components. -/
def PathBase.text : PathBase → List Char
  | .relative => []
  | .root => "/".toList
  | .doubleRoot => "//".toList

structure Path where
  base : PathBase
  components : List Component
deriving DecidableEq, Repr

namespace Path

def baseOf : List Char → PathBase
  | '/' :: '/' :: '/' :: _ => .root
  | '/' :: '/' :: _ => .doubleRoot
  | '/' :: _ => .root
  | _ => .relative

def isProper (component : Component) : Bool := !component.isEmpty && component != ".".toList

def ofText (cs : List Char) : Path := ⟨baseOf cs, (cs.splitOn '/').filter isProper⟩

def child (path : Path) (name : Component) : Path :=
  { path with components := path.components ++ [name] }

def text (path : Path) : List Char :=
  match path.base, path.components with
  | .relative, [] => ".".toList
  | base, components => base.text ++ ['/'].intercalate components

def hasNul (path : Path) : Bool := path.components.any (·.contains '\x00')

end Path

example : ["p//./q/", "//a", "///a", ".", "", "a/../b"].map
      (fun s => String.ofList (Path.ofText s.toList).text) =
    ["p/q", "//a", "/a", ".", ".", "a/../b"] := by decide +kernel

end EditorLink.Project
