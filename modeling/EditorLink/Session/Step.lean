import EditorLink.Session.Call

/-!
# Steps of a session

A run of a session is any list of events. Each event is one thing that can happen at a moment: a
caller arrives or is cancelled, a call or an attempt runs up to its next suspension point, or the
world outside does something: a handshake ends, time is up, a message comes, a socket closes, a
write or a close ends. An event that cannot happen in a state leaves the state as it is.
-/

namespace EditorLink.Session

inductive Event where
  | arrive (kind : CallKind)
  | resume (c : CallId)
  | cancel (c : CallId)
  | attemptRuns (a : AttemptId)
  /-- The session notices that its attempt has ended; later callers start a new one. -/
  | attemptNoticed (a : AttemptId)
  | handshakeEnds (a : AttemptId) (outcome : HandshakeOutcome)
  | handshakeExpires (a : AttemptId)
  | restElapses (a : AttemptId)
  | message (k : SocketId) (frame : Frame)
  | readerEnds (k : SocketId)
  | socketTurns (k : SocketId) (state : SocketState)
  | socketRefuses (k : SocketId)
  | writeEnds (c : CallId) (written : Bool)
  | closeEnds (c : CallId)
  | timerFires (id : CommandId)
  | clock (now : Double)

namespace State

variable (config : Config)

def handshakeRuns (s : State) (a : AttemptId) : Bool :=
  match s.attempts[a]? with
  | some ⟨.handshaking _ _ none _, _⟩ => true
  | _ => false

/-- Whether an event can happen. -/
def admits (s : State) : Event → Bool
  | .arrive _ => true
  | .cancel _ => true
  | .clock _ => true
  | .resume c => s.callCanRun c
  | .attemptRuns a => s.attemptCanRun a
  | .attemptNoticed a => s.current == some a && (s.attemptResult? a).isSome
  | .handshakeEnds a _ => s.handshakeRuns a
  | .handshakeExpires a => s.handshakeRuns a
  | .restElapses a =>
    match s.attempts[a]? with
    | some ⟨.resting _ _ _ false, _⟩ => true
    | _ => false
  | .message k _ => s.sockets[k]?.any (·.reader == .reading)
  | .readerEnds k => s.sockets[k]?.any fun socket =>
      socket.reader == .stopping || (socket.reader == .reading && socket.state == .closed)
  | .socketTurns k _ => (s.sockets[k]?).isSome
  | .socketRefuses k => (s.sockets[k]?).isSome
  | .writeEnds c _ =>
    match s.calls[c]? with
    | some ⟨_, .writing _ _ none _, _⟩ => true
    | _ => false
  | .closeEnds c =>
    match s.calls[c]? with
    | some ⟨_, .closing _ _ false, _⟩ => true
    | _ => false
  | .timerFires id => s.timers.any (·.id == id)

/-- The socket that a disconnecting call closes. -/
def closingSocket? (s : State) (c : CallId) : Option SocketId :=
  match s.calls[c]? with
  | some ⟨_, .closing k _ _, _⟩ => some k
  | _ => none

/-- What an event that can happen does. -/
def act (s : State) : Event → State
  | .arrive kind => { s with calls := s.calls ++ [⟨kind, .arrived, false⟩] }
  | .cancel c => s.cancelCall c
  | .clock now => { s with now }
  | .resume c => s.runCall config c
  | .attemptRuns a => s.runAttempt config a
  | .attemptNoticed _ => { s with current := none }
  | .handshakeEnds a outcome =>
    s.setAttempt a fun attempt =>
      match attempt.stage with
      | .handshaking round deadline _ expired =>
        { attempt with stage := .handshaking round deadline (some outcome) expired }
      | _ => attempt
  | .handshakeExpires a =>
    s.setAttempt a fun attempt =>
      match attempt.stage with
      | .handshaking round deadline outcome _ =>
        { attempt with stage := .handshaking round deadline outcome true }
      | _ => attempt
  | .restElapses a =>
    s.setAttempt a fun attempt =>
      match attempt.stage with
      | .resting round last wakeAt _ => { attempt with stage := .resting round last wakeAt true }
      | _ => attempt
  | .message k frame => s.receive config k frame
  | .readerEnds k => s.endReader k none
  | .socketTurns k state => s.setSocket k fun socket => { socket with state }
  | .socketRefuses k => s.setSocket k fun socket => { socket with refusesWrites := true }
  | .writeEnds c written =>
    s.setCall c fun call =>
      match call.stage with
      | .writing id k _ answer => { call with stage := .writing id k (some written) answer }
      | _ => call
  | .closeEnds c =>
    let s := s.setCall c fun call =>
      match call.stage with
      | .closing k reader _ => { call with stage := .closing k reader true }
      | _ => call
    match s.closingSocket? c with
    | some k => s.setSocket k fun socket => { socket with state := .closed }
    | none => s
  | .timerFires id => s.expire id

def step (s : State) (event : Event) : State := if s.admits event then s.act config event else s

def run (s : State) (events : List Event) : State := events.foldl (step config) s

end State

end EditorLink.Session
