import EditorLink.Number.Basic

/-!
# Session configuration

Where the editor listens, which sub-protocol it speaks, and how long a session waits. Times are in
seconds and keep the form in which they were given, because they are shown in error messages.
-/

namespace EditorLink.Session

structure Config where
  url : String := "ws://localhost:9081"
  protocol : String := "json"
  timeout : Number := .float (.ofInt 20)
  connectTimeout : Number := .float (.ofInt 20)
  /-- Connection attempts after the first one has failed. -/
  maxRetries : Int := 3
  retryDelay : Number := .float (.ofInt 2)
  /-- Whether a command connects on demand. -/
  autoConnect : Bool := true
  /-- How many lists and objects of a message may stand inside each other. The room for it is what
  the program that runs the session has left; nobody sets it. -/
  nesting : Nat := 990

/-- The number of handshakes a connection attempt may make. -/
def Config.rounds (config : Config) : Int := config.maxRetries + 1

end EditorLink.Session
