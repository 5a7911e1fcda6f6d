import EditorLink.Session.Config
import EditorLink.Session.Frame

/-!
# The state of a session

A session owns at most one socket to the editor. Callers connect, send commands and disconnect at
the same time; each caller is a `Call` that stands at one of its suspension points. A command in
flight has an entry in the table of pending commands and an armed timer; the call that sent it
holds the place where its answer is put. Connection attempts are shared by all callers that wait
for a connection. `history` records what a session did, latest first.
-/

namespace EditorLink.Session

abbrev CommandId := Nat
abbrev SocketId := Nat
abbrev AttemptId := Nat
abbrev CallId := Nat

inductive Phase where
  | disconnected
  | connecting
  | connected
deriving DecidableEq

/-! ## Connection attempts -/

/-- How a handshake ends by itself. -/
inductive HandshakeOutcome where
  | opened
  | refused (message : String)
  | timedOut
  | unexpected (message : String)
deriving DecidableEq

/-- A failure after which another handshake may be tried. -/
inductive HandshakeFailure where
  | timedOut
  | refused (message : String)
deriving DecidableEq

inductive AttemptError where
  | timedOut
  /-- Every handshake failed, the last one with this message; without a handshake there is none. -/
  | gaveUp (last : Option String)
  | unexpected (message : String)
deriving DecidableEq

inductive AttemptResult where
  | connected
  | failed (error : AttemptError)
  | cancelled
deriving DecidableEq

/-- Where an attempt stands; `round` counts handshakes from 1. -/
inductive AttemptStage where
  | created
  | handshaking (round : Nat) (deadline : Double) (outcome : Option HandshakeOutcome)
      (expired : Bool)
  /-- A round without time for its handshake, which fails before it begins. -/
  | lapsed (round : Nat)
  | resting (round : Nat) (last : HandshakeFailure) (wakeAt : Double) (elapsed : Bool)
  | finished (result : AttemptResult)
deriving DecidableEq

structure Attempt where
  stage : AttemptStage
  cancelRequested : Bool
deriving DecidableEq

def Attempt.result? (attempt : Attempt) : Option AttemptResult :=
  match attempt.stage with
  | .finished result => some result
  | _ => none

/-! ## Sockets -/

inductive SocketState where
  | opened
  | closing
  | closed
deriving DecidableEq

inductive ReaderState where
  | reading
  /-- Asked to stop; it takes no further message. -/
  | stopping
  /-- It ended, by the message that broke it if there was one. -/
  | ended (fault : Option FrameError)
deriving DecidableEq

def ReaderState.hasEnded : ReaderState → Bool
  | .ended _ => true
  | _ => false

structure Socket where
  state : SocketState
  refusesWrites : Bool
  reader : ReaderState
  /-- Whether a disconnect has called for the socket to be closed. -/
  closeCalled : Bool
deriving DecidableEq

/-! ## Callers -/

inductive CallKind where
  | connect
  | enter
  | send (commandType : String) (params : Value)
  | disconnect
  | leave

inductive CallError where
  | attempt (error : AttemptError)
  | attemptCancelled
  | autoConnectOff
  | socketNotOpen
  | closedWhileSending (commandType : String)
  | refused (commandType : String) (message : Value)
  | timedOut (commandType : String)
  | closed (byPeer : Bool) (commandType : String)
  /-- The reader that a disconnect waited for had been broken by a message. -/
  | readerBroken (fault : FrameError)

inductive CallResult where
  | done
  | entered
  | value (value : Value)
  | failed (error : CallError)
  | cancelled

/-- Where a call stands. `arrived` has not run yet; the other stages but `finished` are the
suspension points: waiting for an attempt, for a write, for an answer, and the three waits of a
disconnect. -/
inductive CallStage where
  | arrived
  | joining (attempt : AttemptId)
  | writing (id : CommandId) (socket : SocketId) (written : Option Bool) (answer : Option Answer)
  | awaiting (id : CommandId) (socket : SocketId) (answer : Option Answer)
  | stoppingAttempt (attempt : AttemptId)
  | closing (socket : SocketId) (reader : Option SocketId) (closed : Bool)
  | stoppingReader (socket : SocketId)
  | finished (result : CallResult)

structure Call where
  kind : CallKind
  stage : CallStage
  cancelRequested : Bool

namespace Call

def isFinished (call : Call) : Bool :=
  match call.stage with
  | .finished _ => true
  | _ => false

/-- Whether an answer to command `id` can still be put into the call. A caller that was cancelled
while it waited for the answer takes none. -/
def takesAnswer (call : Call) (id : CommandId) : Bool :=
  match call.stage with
  | .writing own _ _ none => own == id
  | .awaiting own _ none => own == id && !call.cancelRequested
  | _ => false

/-- The command whose answer a call waits for and gives up when it is cancelled. -/
def withdraws? (call : Call) : Option CommandId :=
  match call.stage with
  | .awaiting id _ none => if call.cancelRequested then none else some id
  | _ => none

def putAnswer (call : Call) (answer : Answer) : Call :=
  match call.stage with
  | .writing id socket written none => { call with stage := .writing id socket written answer }
  | .awaiting id socket none => { call with stage := .awaiting id socket answer }
  | _ => call

end Call

/-! ## The session -/

structure Pending where
  id : CommandId
  commandType : String
  call : CallId
deriving DecidableEq

structure Timer where
  id : CommandId
  due : Double
deriving DecidableEq

inductive Effect where
  | handshakeBegan (attempt : AttemptId) (moment : Double)
  | handshakeAborted (attempt : AttemptId)
  | restBegan (attempt : AttemptId)
  | attemptFinished (attempt : AttemptId) (result : AttemptResult)
  | socketOpened (socket : SocketId)
  | closeCalled (socket : SocketId)
  | registered (id : CommandId) (call : CallId)
  | wrote (socket : SocketId) (id : CommandId) (commandType : String) (params : Value)
  | settled (id : CommandId) (answer : Answer)
  /-- The caller was cancelled while it waited for the answer. -/
  | withdrawn (id : CommandId)
  | callFinished (call : CallId) (result : CallResult)

structure State where
  now : Double := .zero
  phase : Phase := .disconnected
  /-- The current socket, and the socket whose messages are read for the session. -/
  socket : Option SocketId := none
  reader : Option SocketId := none
  /-- The attempt that callers without a connection join. -/
  current : Option AttemptId := none
  nextId : CommandId := 0
  pending : List Pending := []
  timers : List Timer := []
  attempts : List Attempt := []
  calls : List Call := []
  sockets : List Socket := []
  history : List Effect := []

namespace State

def isConnected (s : State) : Bool := s.phase == .connected && s.socket.isSome

def record (s : State) (effect : Effect) : State := { s with history := effect :: s.history }

def setCall (s : State) (c : CallId) (f : Call → Call) : State :=
  { s with calls := s.calls.modify c f }

def setStage (s : State) (c : CallId) (stage : CallStage) : State :=
  s.setCall c fun call => { call with stage }

def finishCall (s : State) (c : CallId) (result : CallResult) : State :=
  (s.setStage c (.finished result)).record (.callFinished c result)

def setAttempt (s : State) (a : AttemptId) (f : Attempt → Attempt) : State :=
  { s with attempts := s.attempts.modify a f }

def setSocket (s : State) (k : SocketId) (f : Socket → Socket) : State :=
  { s with sockets := s.sockets.modify k f }

def attemptResult? (s : State) (a : AttemptId) : Option AttemptResult :=
  s.attempts[a]?.bind Attempt.result?

end State

end EditorLink.Session
