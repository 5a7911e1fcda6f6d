import EditorLink.Project.Path
import EditorLink.Text.Quoted

/-!
# What is found at paths

A detector sees the files of its system through two questions: whether there is a file at a path,
and what it holds. The first may fail, which is a fault of its own; the second may fail too, and
then the file is there and tells nothing.
-/

namespace EditorLink.Project

/-! ## Faults -/

/-- Why a path cannot be looked at. Systems know more reasons than the ones with a name here. -/
inductive FileFaultKind where
  | missing
  | denied
  | notDirectory
  | nameTooLong
  | other (number : Nat) (text : String)
deriving DecidableEq, Repr

structure FileFault where
  kind : FileFaultKind
  path : List Char
deriving DecidableEq, Repr

def FileFaultKind.number : FileFaultKind → Nat
  | .missing => 2
  | .denied => 13
  | .notDirectory => 20
  | .nameTooLong => 36
  | .other number _ => number

def FileFaultKind.text : FileFaultKind → String
  | .missing => "No such file or directory"
  | .denied => "Permission denied"
  | .notDirectory => "Not a directory"
  | .nameTooLong => "File name too long"
  | .other _ text => text

def FileFault.message (fault : FileFault) : String :=
  s!"[Errno {fault.kind.number}] {fault.kind.text}: " ++ Text.quoted (String.ofList fault.path)

/-! ## Files -/

inductive File where
  | readable (octets : List Nat)
  | unreadable
deriving DecidableEq, Repr

/-- For every path, the file that is there, if there is one, unless the path cannot be looked at.
Links, rights and what else a system knows are in the answers. -/
abbrev Files := Path → Except FileFault (Option File)

end EditorLink.Project
