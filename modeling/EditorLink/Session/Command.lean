import EditorLink.Session.State

/-!
# Commands in flight

The table of pending commands and the timers change only here. Whatever removes an entry also
disarms its timer: a reply, the timer itself, the end of the connection, or the call that sent the
command and is done with it. An answer is put into a call only while the call can take one, so a
command is settled at most once.
-/

namespace EditorLink.Session

def commandName (id : CommandId) : String := "cmd_" ++ toString id

namespace State

/-- Puts an answer into the call that waits for a command, when it still takes one. -/
def settle (s : State) (entry : Pending) (answer : Answer) : State :=
  match s.calls[entry.call]? with
  | some call =>
    if call.takesAnswer entry.id then
      (s.setCall entry.call fun call => call.putAnswer answer).record (.settled entry.id answer)
    else s
  | none => s

def removePending (s : State) (id : CommandId) : State :=
  { s with pending := s.pending.filter (·.id != id) }

def disarm (s : State) (id : CommandId) : State :=
  { s with timers := s.timers.filter (·.id != id) }

def findPending? (s : State) (id : CommandId) : Option Pending := s.pending.find? (·.id == id)

/-- Enters a command into the table and arms its timer. -/
def enroll (s : State) (c : CallId) (commandType : String) (due : Double) : State :=
  { s with
    nextId := s.nextId + 1
    pending := s.pending ++ [⟨s.nextId, commandType, c⟩]
    timers := s.timers ++ [⟨s.nextId, due⟩]
    history := .registered s.nextId c :: s.history }

/-- Forgets a command whose call is done with it. -/
def discard (s : State) (id : CommandId) : State :=
  match s.findPending? id with
  | some _ => (s.removePending id).disarm id
  | none => s

/-- Takes an entry out of the table with its timer, and gives its call the answer. -/
def answer (s : State) (entry : Pending) (answer : Answer) : State :=
  ((s.removePending entry.id).disarm entry.id).settle entry answer

def expire (s : State) (id : CommandId) : State :=
  match s.findPending? id with
  | some entry => s.answer entry .timedOut
  | none => s.disarm id

/-- Rejects every pending command. -/
def failPending (s : State) (byPeer : Bool) : State :=
  s.pending.foldl (fun s entry => s.answer entry (.closed byPeer)) s

def deliver (s : State) (reply : Reply) : State :=
  match s.pending.find? fun entry => commandName entry.id == reply.commandName with
  | some entry => s.answer entry reply.answer
  | none => s

/-- The end of the reading of a socket. Only the current socket's end ends the connection. -/
def endReader (s : State) (k : SocketId) (fault : Option FrameError) : State :=
  let s := s.setSocket k fun socket => { socket with reader := .ended fault }
  if s.socket = some k then
    { s with socket := none, reader := none, phase := .disconnected }.failPending true
  else s

/-- A message on a socket that is being read. -/
def receive (config : Config) (s : State) (k : SocketId) (frame : Frame) : State :=
  match frame.decode config.nesting with
  | .ok fields =>
    match replyOf? fields with
    | some reply => s.deliver reply
    | none => s
  | .error error => if error.breaksReader then s.endReader k (some error) else s

end State

end EditorLink.Session
