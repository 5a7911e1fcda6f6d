import EditorLink.Session.Command
import EditorLink.Session.Attempt

/-!
# What callers do

Each function here runs a call from one suspension point to the next. A call that needs a
connection joins the current attempt, or starts one. A command is registered, written and waited
for. A disconnect stops the attempt in flight, detaches the socket and rejects the pending
commands, then closes the socket and stops its reader.
-/

namespace EditorLink.Session

/-- The type of the command that a call sends; empty for other calls. -/
def CallKind.commandType : CallKind → String
  | .send commandType _ => commandType
  | _ => ""

/-- What an answer means to the call that waited for it. -/
def Answer.toResult (commandType : String) : Answer → CallResult
  | .result value => .value value
  | .refused message => .failed (.refused commandType message)
  | .timedOut => .failed (.timedOut commandType)
  | .closed byPeer => .failed (.closed byPeer commandType)

namespace State

variable (config : Config)

/-- Ends a sending call, and its command with it. -/
def endCommand (s : State) (c : CallId) (id : CommandId) (result : CallResult) : State :=
  (s.discard id).finishCall c result

/-- Registers a command and starts to write it, if the socket is open and takes it. -/
def sendCommand (s : State) (c : CallId) (commandType : String) (params : Value) : State :=
  let id := s.nextId
  let s := s.enroll c commandType (s.now.add config.timeout.toDouble)
  match s.socket with
  | none => s.endCommand c id (.failed .socketNotOpen)
  | some k =>
    match s.sockets[k]? with
    | none => s.endCommand c id (.failed .socketNotOpen)
    | some socket =>
      if socket.state ≠ .opened then s.endCommand c id (.failed .socketNotOpen)
      else if socket.refusesWrites then
        s.endCommand c id (.failed (.closedWhileSending commandType))
      else
        (s.record (.wrote k id commandType params)).setStage c (.writing id k none none)

/-- Goes on with a call that has its connection. -/
def afterConnect (s : State) (c : CallId) : CallKind → State
  | .send commandType params => s.sendCommand config c commandType params
  | .enter => s.finishCall c .entered
  | _ => s.finishCall c .done

/-- Goes on with a call whose attempt has ended. -/
def afterAttempt (s : State) (c : CallId) (kind : CallKind) : AttemptResult → State
  | .connected => s.afterConnect config c kind
  | .failed error => s.finishCall c (.failed (.attempt error))
  | .cancelled => s.finishCall c (.failed .attemptCancelled)

/-- The attempt that a caller joins, started if there is none. -/
def joinAttempt (s : State) : State × AttemptId :=
  match s.current with
  | some a => (s, a)
  | none =>
    let a := s.attempts.length
    ({ s with attempts := s.attempts ++ [⟨.created, false⟩], current := some a }, a)

def connect (s : State) (c : CallId) (kind : CallKind) : State :=
  if s.isConnected then s.afterConnect config c kind
  else
    let (s, a) := s.joinAttempt
    match s.attemptResult? a with
    | some result => s.afterAttempt config c kind result
    | none => s.setStage c (.joining a)

/-- Waits for a reader to end, or finishes the disconnect when it has. A message that broke the
reader while the socket closed makes the disconnect fail. -/
def awaitReader (s : State) (c : CallId) (reader : Option SocketId) : State :=
  match reader with
  | none => s.finishCall c .done
  | some k =>
    match s.sockets[k]? with
    | none => s.finishCall c .done
    | some socket =>
      match socket.reader with
      | .ended none => s.finishCall c .done
      | .ended (some fault) => s.finishCall c (.failed (.readerBroken fault))
      | _ =>
        (s.setSocket k fun socket => { socket with reader := .stopping }).setStage c
          (.stoppingReader k)

/-- Takes the socket from the session, rejects the pending commands and calls for the close. -/
def detach (s : State) (c : CallId) : State :=
  let socket := s.socket
  let reader := s.reader
  let s := { s with socket := none, reader := none, phase := .disconnected }.failPending false
  match socket with
  | none => s.awaitReader c reader
  | some k =>
    ((s.setSocket k fun socket => { socket with closeCalled := true }).record
      (.closeCalled k)).setStage c (.closing k reader false)

/-- Goes on with a disconnect after the attempt it stopped has ended. An unexpected failure of the
attempt escapes through the disconnect. -/
def afterStop (s : State) (c : CallId) (a : AttemptId) : AttemptResult → State
  | .failed (.unexpected message) =>
    s.finishCall c (.failed (.attempt (.unexpected message)))
  | _ => ({ s with current := if s.current = some a then none else s.current }).detach c

def disconnect (s : State) (c : CallId) : State :=
  match s.current with
  | none => s.detach c
  | some a =>
    match s.attemptResult? a with
    | some result => s.afterStop c a result
    | none => (s.stopAttempt a).setStage c (.stoppingAttempt a)

/-- Starts a call that has just arrived. -/
def begin (s : State) (c : CallId) : CallKind → State
  | .disconnect => s.disconnect c
  | .leave => s.disconnect c
  | .connect => s.connect config c .connect
  | .enter => s.connect config c .enter
  | .send commandType params =>
    if s.isConnected || config.autoConnect then s.connect config c (.send commandType params)
    else s.finishCall c (.failed .autoConnectOff)

/-- Whether a call can go on from where it stands. -/
def callCanRun (s : State) (c : CallId) : Bool :=
  match s.calls[c]? with
  | none => false
  | some call =>
    match call.stage with
    | .arrived => true
    | .joining a => (s.attemptResult? a).isSome || call.cancelRequested
    | .writing _ _ written _ => written.isSome || call.cancelRequested
    | .awaiting _ _ answer => answer.isSome || call.cancelRequested
    | .stoppingAttempt a => (s.attemptResult? a).isSome
    | .closing _ _ closed => closed || call.cancelRequested
    | .stoppingReader k => s.sockets[k]?.all (·.reader.hasEnded)
    | .finished _ => false

/-- Runs a call up to its next suspension point. -/
def runCall (s : State) (c : CallId) : State :=
  match s.calls[c]? with
  | none => s
  | some call =>
    match call.stage with
    | .arrived =>
      if call.cancelRequested then s.finishCall c .cancelled else s.begin config c call.kind
    | .joining a =>
      match s.attemptResult? a, call.cancelRequested with
      | some .cancelled, _ => s.finishCall c (.failed .attemptCancelled)
      | _, true => s.finishCall c .cancelled
      | some result, false => s.afterAttempt config c call.kind result
      | none, false => s
    | .writing id k written answer =>
      if call.cancelRequested then s.endCommand c id .cancelled
      else
        match written, answer with
        | some true, some answer =>
          s.endCommand c id (answer.toResult call.kind.commandType)
        | some true, none => s.setStage c (.awaiting id k none)
        | some false, _ =>
          s.endCommand c id (.failed (.closedWhileSending call.kind.commandType))
        | none, _ => s
    | .awaiting id _ answer =>
      if call.cancelRequested then s.endCommand c id .cancelled
      else
        match answer with
        | some answer => s.endCommand c id (answer.toResult call.kind.commandType)
        | none => s
    | .stoppingAttempt a =>
      match s.attemptResult? a, call.cancelRequested with
      | some _, true =>
        (s.setCall c fun call => { call with cancelRequested := false }).afterStop c a .cancelled
      | some result, false => s.afterStop c a result
      | none, _ => s
    | .closing _ reader _ =>
      if call.cancelRequested then s.finishCall c .cancelled else s.awaitReader c reader
    | .stoppingReader _ => s.finishCall c .done
    | .finished _ => s

/-- Cancels a call. A disconnect that waits for its attempt passes the request on to the attempt,
and does not see how the attempt ended when it had ended already; one that waits for the reader is
not disturbed. -/
def cancelCall (s : State) (c : CallId) : State :=
  match s.calls[c]? with
  | none => s
  | some call =>
    match call.stage with
    | .finished _ => s
    | .stoppingReader _ => s
    | .stoppingAttempt a =>
      match s.attemptResult? a with
      | some _ => s.setCall c fun call => { call with cancelRequested := true }
      | none => s.stopAttempt a
    | _ =>
      let asked := s.setCall c fun call => { call with cancelRequested := true }
      match call.withdraws? with
      | some id => asked.record (.withdrawn id)
      | none => asked

end State

end EditorLink.Session
