import EditorLink.Json.Reader
import EditorLink.Text.Utf8

/-!
# Messages from the editor

A message comes as a text or as octets. It is understood when it is a JSON object; a reply names
the command it answers and says whether the command succeeded. Nothing else about a message
matters to a session.
-/

namespace EditorLink.Session

inductive Frame where
  | text (chars : List Char)
  | binary (octets : List Nat)
deriving DecidableEq

def Frame.chars : Frame → List Char
  | .text chars => chars
  | .binary octets => Text.Utf8.decodeLossy octets

/-- Why a message is not an object. -/
inductive FrameError where
  | invalidJson (error : Json.ReadError)
  | notAnObject (kind : String)
deriving DecidableEq

/-- A message beyond a limit of reading breaks the reader that meets it; every other bad message is
dropped. -/
def FrameError.breaksReader : FrameError → Bool
  | .invalidJson error => error.isBeyondLimit
  | .notAnObject _ => false

def FrameError.message : FrameError → String
  | .invalidJson error =>
    if error.isBeyondLimit then error.message else "invalid JSON: " ++ error.message
  | .notAnObject kind => "expected a JSON object, got " ++ kind

def Frame.decode (depth : Nat) (frame : Frame) : Except FrameError Fields :=
  match Json.read depth frame.chars with
  | .error error => .error (.invalidJson error)
  | .ok (.obj fields) => .ok fields
  | .ok value => .error (.notAnObject value.kindName)

/-- What becomes of a command. -/
inductive Answer where
  | result (value : Value)
  | refused (message : Value)
  | timedOut
  | closed (byPeer : Bool)

/-- A message that names a command, with what it says about it. -/
structure Reply where
  commandName : String
  answer : Answer

def replyOf? (fields : Fields) : Option Reply :=
  match fields.get? "commandId" with
  | some (.str name) =>
    let succeeded := (fields.getOrNull "status").isStr "success"
    some ⟨name,
      if succeeded then .result (fields.getOrNull "result")
      else .refused ((fields.getOrNull "message").orElse (.str "Unknown error"))⟩
  | _ => none

end EditorLink.Session
