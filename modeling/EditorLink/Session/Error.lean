import EditorLink.Session.State
import EditorLink.Json.Display

/-!
# Errors of the link to the editor

Every failure of a session has one of the kinds below, by which callers tell failures apart, and
one wording.
-/

namespace EditorLink

/-- The kinds of failure of the link; `failure` is the kind of a failure not told further. -/
inductive LinkErrorKind where
  | failure
  | connectionFailed
  | connectionTimeout
  | notConnected
  | connectionClosed
  | unreadableResponse
  | commandTimeout
  | commandFailed
deriving DecidableEq

namespace Session

def timeoutMessage (commandType seconds : String) : String :=
  s!"Command timed out: {commandType} (no response within {seconds}s)"

/-- The kind of an attempt's error; an unexpected one is none of the link's. -/
def AttemptError.kind? : AttemptError → Option LinkErrorKind
  | .timedOut => some .connectionTimeout
  | .gaveUp _ => some .connectionFailed
  | .unexpected _ => none

def AttemptError.message (config : Config) : AttemptError → String
  | .timedOut =>
    s!"Connection timeout: no handshake from {config.url} within " ++
      s!"{config.connectTimeout.plainText}s"
  | .gaveUp last => s!"Could not connect to Godot at {config.url}: " ++ last.getD "None"
  | .unexpected message => message

def CallError.kind? : CallError → Option LinkErrorKind
  | .attempt error => error.kind?
  | .attemptCancelled => some .connectionFailed
  | .autoConnectOff => some .notConnected
  | .socketNotOpen => some .notConnected
  | .closedWhileSending _ => some .notConnected
  | .refused _ _ => some .commandFailed
  | .timedOut _ => some .commandTimeout
  | .closed _ _ => some .connectionClosed
  | .readerBroken _ => none

def CallError.message (config : Config) : CallError → String
  | .attempt error => error.message config
  | .attemptCancelled => s!"Connection to Godot at {config.url} cancelled by disconnect"
  | .autoConnectOff => s!"Not connected to Godot at {config.url}"
  | .socketNotOpen => "WebSocket not connected"
  | .closedWhileSending commandType => s!"WebSocket closed while sending {commandType}"
  | .refused _ message => message.shown
  | .timedOut commandType => timeoutMessage commandType config.timeout.plainText
  | .closed byPeer commandType =>
    (if byPeer then "Connection closed by Godot" else "Connection closed") ++
      s!" before {commandType} completed"
  | .readerBroken fault => fault.message

/-- The command that an error is about, for the kinds that carry it. -/
def CallError.commandType? : CallError → Option String
  | .refused commandType _ => some commandType
  | .timedOut commandType => some commandType
  | _ => none

end Session

end EditorLink
