import EditorLink.Session.State

/-!
# Connection attempts

An attempt makes handshakes until one opens a socket, one fails in an unexpected way, or all
rounds have failed; it rests between two handshakes. Whoever asks it to stop is heard at its next
suspension point, unless the handshake has just ended: then the attempt goes on with that outcome.
-/

namespace EditorLink.Session

/-- The error of an attempt whose last handshake failed. -/
def HandshakeFailure.toError : HandshakeFailure → AttemptError
  | .timedOut => .timedOut
  | .refused message => .gaveUp (some message)

namespace State

variable (config : Config)

/-- Ends an attempt; an attempt that did not connect leaves the session disconnected. -/
def finishAttempt (s : State) (a : AttemptId) (result : AttemptResult) : State :=
  let ended := s.setAttempt a fun attempt => { attempt with stage := .finished result }
  let phase := if s.phase = .connecting then .disconnected else s.phase
  { ended with phase, history := .attemptFinished a result :: s.history }

/-- Rests before the next round, or gives up after the last one. -/
def afterFailure (s : State) (a : AttemptId) (round : Nat) (failure : HandshakeFailure) : State :=
  if (round : Int) < config.rounds then
    let delay := config.retryDelay
    let stage := .resting round failure (s.now.add delay.toDouble) (!delay.isPositive)
    (s.setAttempt a fun attempt => { attempt with stage }).record (.restBegan a)
  else s.finishAttempt a (.failed failure.toError)

/-- Begins the handshake of a round. Without time to wait for it, it fails before it begins. -/
def beginRound (s : State) (a : AttemptId) (round : Nat) : State :=
  if config.rounds < round then s.finishAttempt a (.failed (.gaveUp none))
  else if config.connectTimeout.isPositive then
    let deadline := s.now.add config.connectTimeout.toDouble
    (s.setAttempt a fun attempt =>
      { attempt with stage := .handshaking round deadline none false }).record
        (.handshakeBegan a s.now)
  else s.setAttempt a fun attempt => { attempt with stage := .lapsed round }

/-- Installs the socket that a handshake opened. -/
def install (s : State) : State :=
  let k := s.sockets.length
  { s with
    sockets := s.sockets ++ [⟨.opened, false, .reading, false⟩]
    socket := some k
    reader := some k
    phase := .connected
    history := .socketOpened k :: s.history }

def afterHandshake (s : State) (a : AttemptId) (round : Nat) : HandshakeOutcome → State
  | .opened => s.install.finishAttempt a .connected
  | .refused message => s.afterFailure config a round (.refused message)
  | .timedOut => s.afterFailure config a round .timedOut
  | .unexpected message => s.finishAttempt a (.failed (.unexpected message))

/-- Whether an attempt can go on from where it stands. -/
def attemptCanRun (s : State) (a : AttemptId) : Bool :=
  match s.attempts[a]? with
  | none => false
  | some attempt =>
    match attempt.stage with
    | .created => true
    | .handshaking _ _ outcome expired => outcome.isSome || expired || attempt.cancelRequested
    | .lapsed _ => true
    | .resting _ _ _ elapsed => elapsed || attempt.cancelRequested
    | .finished _ => false

/-- Runs an attempt up to its next suspension point. -/
def runAttempt (s : State) (a : AttemptId) : State :=
  match s.attempts[a]? with
  | none => s
  | some attempt =>
    match attempt.stage with
    | .created =>
      if attempt.cancelRequested then
        (s.setAttempt a fun attempt => { attempt with stage := .finished .cancelled }).record
          (.attemptFinished a .cancelled)
      else { s with phase := .connecting }.beginRound config a 1
    | .handshaking round _ (some outcome) _ =>
      (s.setAttempt a fun attempt => { attempt with cancelRequested := false }).afterHandshake
        config a round outcome
    | .handshaking round _ none _ =>
      let s := s.record (.handshakeAborted a)
      if attempt.cancelRequested then s.finishAttempt a .cancelled
      else s.afterFailure config a round .timedOut
    | .lapsed round =>
      if attempt.cancelRequested then s.finishAttempt a .cancelled
      else s.afterFailure config a round .timedOut
    | .resting round _ _ _ =>
      if attempt.cancelRequested then s.finishAttempt a .cancelled
      else s.beginRound config a (round + 1)
    | .finished _ => s

/-- Asks an attempt to stop. -/
def stopAttempt (s : State) (a : AttemptId) : State :=
  match s.attemptResult? a with
  | some _ => s
  | none => s.setAttempt a fun attempt => { attempt with cancelRequested := true }

end State

end EditorLink.Session
