import EditorLink.Session.Step
import EditorLink.Session.Error

/-!
# Scripted scenarios

A scenario plays a session against a scripted editor on a clock of its own. Before each deed of the
script nothing can happen without time passing; after it, every event that can happen at that
moment does, in a fixed order. Only `advance` moves the clock, from one due timer to the next. A
timer of the session that is due together with the end of a handshake goes first.
-/

namespace EditorLink.Session

/-- A planned handshake: how long it takes, and how it ends, if it does. -/
structure Handshake where
  delay : Double := .zero
  outcome : Option HandshakeOutcome := some .opened

/-- A handshake on its way. -/
structure InFlight where
  attempt : AttemptId
  due : Double
  outcome : Option HandshakeOutcome

inductive Deed where
  | plan (handshakes : List Handshake)
  | arrive (kind : CallKind)
  | cancel (c : CallId)
  | advance (seconds : Double)
  | receive (socket : Option SocketId) (frames : List Frame)
  | peerCloses (socket : Option SocketId)
  | socketCloses (socket : Option SocketId)
  | sendsFail (socket : Option SocketId)

/-- What one deed brought about, and the state after it. -/
structure Report where
  phase : Phase
  connected : Bool
  pending : Nat
  opens : List Double
  aborted : Nat
  sent : List (SocketId × Value)
  closed : List SocketId
  settled : List (CallId × CallResult)

structure Scenario where
  session : State := {}
  plans : List Handshake := []
  inFlight : Option InFlight := none

/-- A command as it is written to a socket. -/
def envelope (id : CommandId) (commandType : String) (params : Value) : Value :=
  .obj [("type", .str commandType), ("params", params.orElse (.obj [])),
    ("commandId", .str (commandName id))]

namespace Scenario

variable (config : Config)

/-- A handshake that begins takes the next plan; one that is aborted is no longer on its way. -/
def notice (scenario : Scenario) : Effect → Scenario
  | .handshakeBegan attempt moment =>
    let plan := scenario.plans.headD {}
    { scenario with
      plans := scenario.plans.drop 1
      inFlight := some ⟨attempt, moment.add plan.delay, plan.outcome⟩ }
  | .handshakeAborted _ => { scenario with inFlight := none }
  | _ => scenario

/-- The effects that `after` has beyond `before`, oldest first. -/
def newEffects (before after : State) : List Effect :=
  (after.history.take (after.history.length - before.history.length)).reverse

def apply (scenario : Scenario) (event : Event) : Scenario :=
  let session := scenario.session.step config event
  let inFlight :=
    match event with
    | .handshakeEnds _ _ => none
    | _ => scenario.inFlight
  (newEffects scenario.session session).foldl notice { scenario with session, inFlight }

/-- What a call waits for that happens at once here: a write or a close that ends. -/
def callEvent? (s : State) (c : CallId) : Option Event :=
  [.resume c, .writeEnds c true, .closeEnds c].find? s.admits

/-- The next event that can happen without time passing. -/
def nextEvent? (s : State) : Option Event :=
  let attempts := (List.range s.attempts.length).flatMap fun a => [.attemptRuns a, .attemptNoticed a]
  (attempts.find? s.admits).or <|
    ((List.range s.calls.length).findSome? (callEvent? s)).or <|
      ((List.range s.sockets.length).map .readerEnds).find? s.admits

/-- The timer that runs for an attempt, with the event of its end. -/
def attemptTimer? (a : AttemptId) (attempt : Attempt) : Option (Double × Event) :=
  match attempt.stage with
  | .handshaking _ deadline none false => some (deadline, .handshakeExpires a)
  | .resting _ _ wakeAt false => some (wakeAt, .restElapses a)
  | _ => none

/-- The timers that run, each with the event of its end. -/
def timers (scenario : Scenario) : List (Double × Event) :=
  let s := scenario.session
  let attempts := (List.range s.attempts.length).filterMap fun a =>
    s.attempts[a]?.bind (attemptTimer? a)
  let handshakes : List (Double × Event) :=
    match scenario.inFlight with
    | some ⟨attempt, due, some outcome⟩ => [(due, .handshakeEnds attempt outcome)]
    | _ => []
  attempts ++ handshakes ++ s.timers.map fun timer => (timer.due, .timerFires timer.id)

/-- The earliest timer, the first of those due together. -/
def earliest? : List (Double × Event) → Option (Double × Event)
  | [] => none
  | timer :: rest =>
    match earliest? rest with
    | some other => if other.1.lt timer.1 then some other else some timer
    | none => some timer

def clockTo (scenario : Scenario) (moment : Double) : Scenario :=
  if scenario.session.now.lt moment then scenario.apply config (.clock moment) else scenario

/-- Lets everything happen up to a moment; the first argument bounds the number of events. -/
def playUntil (moment : Double) : Nat → Scenario → Scenario
  | 0, scenario => scenario
  | fuel + 1, scenario =>
    match nextEvent? scenario.session with
    | some event => playUntil moment fuel (scenario.apply config event)
    | none =>
      match earliest? scenario.timers with
      | some (due, event) =>
        if moment.lt due then scenario
        else playUntil moment fuel ((scenario.clockTo config due).apply config event)
      | none => scenario

/-- A bound on the events up to the next rest of everything: a few for each round of an attempt, and
a few for each call, socket and timer. -/
def eventBound (s : State) : Nat :=
  8 * (config.rounds.toNat + 2) + 16 * (s.calls.length + s.sockets.length + s.timers.length + 1)

def play (scenario : Scenario) (moment : Double) : Scenario :=
  playUntil config moment (eventBound config scenario.session) scenario

def chosenSocket? (s : State) (socket : Option SocketId) : Option SocketId :=
  match socket with
  | some k => some k
  | none => if s.sockets.isEmpty then none else some (s.sockets.length - 1)

def applyTo (scenario : Scenario) (socket : Option SocketId) (events : SocketId → List Event) :
    Scenario :=
  match chosenSocket? scenario.session socket with
  | some k => (events k).foldl (apply config) scenario
  | none => scenario

/-- Does a deed and lets everything happen that can at once. -/
def perform (scenario : Scenario) (deed : Deed) : Scenario :=
  let now := scenario.session.now
  match deed with
  | .plan handshakes => { scenario with plans := scenario.plans ++ handshakes }
  | .arrive kind => (scenario.apply config (.arrive kind)).play config now
  | .cancel c => (scenario.apply config (.cancel c)).play config now
  | .advance seconds =>
    let target := now.add seconds
    (scenario.play config target).clockTo config target
  | .receive socket frames =>
    (scenario.applyTo config socket fun k => frames.map (.message k)).play config now
  | .peerCloses socket =>
    (scenario.applyTo config socket fun k => [.socketTurns k .closed]).play config now
  | .socketCloses socket =>
    (scenario.applyTo config socket fun k => [.socketTurns k .closing]).play config now
  | .sendsFail socket =>
    (scenario.applyTo config socket fun k => [.socketRefuses k]).play config now

def report (before after : State) : Report where
  phase := after.phase
  connected := after.isConnected
  pending := after.pending.length
  opens := (newEffects before after).filterMap fun
    | .handshakeBegan _ moment => some moment
    | _ => none
  aborted := (newEffects before after).countP fun
    | .handshakeAborted _ => true
    | _ => false
  sent := (newEffects before after).filterMap fun
    | .wrote k id commandType params => some (k, envelope id commandType params)
    | _ => none
  closed := (newEffects before after).filterMap fun
    | .closeCalled k => some k
    | _ => none
  settled := (List.range after.calls.length).filterMap fun c =>
    (newEffects before after).findSome? fun
      | .callFinished own result => if own = c then some (c, result) else none
      | _ => none

/-- Plays a script, with a report for each deed. -/
def playScript (scenario : Scenario) : List Deed → List Report
  | [] => []
  | deed :: deeds =>
    let next := scenario.perform config deed
    report scenario.session next.session :: playScript next deeds

end Scenario

end EditorLink.Session
