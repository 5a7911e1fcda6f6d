import EditorLink.Proofs.Session.Parts

/-!
# What a step can do

When a call or an attempt runs, when a call is cancelled and when a message comes, one of a few
things becomes of the state. `Turn`, `AttemptTurn`, `Cancels` and `Receives` name them, with what is
known when they happen; a `Turn` also tells whether the call takes the socket from the session. What
holds of every such step is shown by going through these cases, so that no other proof follows the
functions of a session through their branches again.
-/

namespace EditorLink.Session

/-- Whether an effect is recorded when an attempt runs. -/
def Effect.isOfAttempt (a : AttemptId) : Effect → Bool
  | .handshakeBegan b _ => b == a
  | .handshakeAborted b => b == a
  | .restBegan b => b == a
  | .attemptFinished b _ => b == a
  | .socketOpened _ => true
  | _ => false

/-- An attempt that has started and has not finished. -/
def Attempt.Running (attempt : Attempt) : Prop :=
  attempt.result? = none ∧ attempt.stage ≠ .created

/-- The outcome of a handshake that has ended and that the attempt has not seen yet. -/
def Attempt.outcome? (attempt : Attempt) : Option HandshakeOutcome :=
  match attempt.stage with
  | .handshaking _ _ outcome _ => outcome
  | _ => none

theorem Attempt.result?_of_outcome? {attempt : Attempt} {outcome : HandshakeOutcome}
    (ho : attempt.outcome? = some outcome) : attempt.result? = none := by
  obtain ⟨stage, asked⟩ := attempt
  cases stage with
  | handshaking round deadline ended expired => rfl
  | _ => cases ho

theorem Attempt.stage_ne_of_outcome? {attempt : Attempt} {outcome : HandshakeOutcome}
    (ho : attempt.outcome? = some outcome) : attempt.stage ≠ .created := by
  intro hstage
  rw [Attempt.outcome?, hstage] at ho
  cases ho

/-- What a message says about a command, if it is an object that names it. -/
def Frame.answerTo? (config : Config) (frame : Frame) (id : CommandId) : Option Answer :=
  match frame.decode config.nesting with
  | .error _ => none
  | .ok fields =>
    match fields.get? "commandId" with
    | some (.str name) =>
      if name = commandName id then
        some <|
          if (fields.getOrNull "status").isStr "success" then .result (fields.getOrNull "result")
          else .refused ((fields.getOrNull "message").orElse (.str "Unknown error"))
      else none
    | _ => none

theorem Frame.answerTo?_eq {config : Config} {frame : Frame} {fields : Fields}
    (h : frame.decode config.nesting = .ok fields) (id : CommandId) :
    frame.answerTo? config id = (replyOf? fields).bind fun reply =>
      if reply.commandName = commandName id then some reply.answer else none := by
  rw [Frame.answerTo?, h, replyOf?]
  dsimp only
  cases fields.get? "commandId" with
  | none => rfl
  | some value => cases value <;> rfl

/-- Whether an attempt's failure escapes through the disconnect that waits for its end. -/
def AttemptResult.escapes : AttemptResult → Bool
  | .failed (.unexpected _) => true
  | _ => false

def CallKind.isDisconnect : CallKind → Bool
  | .disconnect => true
  | .leave => true
  | _ => false

namespace Call

/-- Whether a call has not yet come to send its command. -/
def starting (call : Call) : Bool :=
  match call.stage with
  | .arrived => true
  | .joining _ => true
  | _ => false

theorem flight?_of_starting {call : Call} (h : call.starting) : call.flight? = none := by
  obtain ⟨kind, stage, asked⟩ := call
  cases stage with
  | arrived | joining a => rfl
  | _ => cases h

theorem withdraws?_eq_some {call : Call} {id : CommandId} (h : call.withdraws? = some id) :
    ∃ k, call.stage = .awaiting id k none ∧ call.cancelRequested = false := by
  unfold withdraws? at h
  split at h
  · next own k hstage =>
    split at h
    · cases h
    · next hnot =>
      obtain rfl := Option.some.inj h
      exact ⟨k, hstage, by simpa using hnot⟩
  · cases h

end Call

namespace State

/-- Whether a disconnect that begins has no attempt to wait for. -/
def detachesAtOnce (s : State) : Bool :=
  match s.current with
  | none => true
  | some a => (s.attemptResult? a).any (!·.escapes)

/-- Whether a call that goes on takes the socket from the session: a disconnect that begins, or one
whose attempt has ended. -/
def detaches (s : State) (c : CallId) : Bool :=
  match s.calls[c]? with
  | none => false
  | some call =>
    match call.stage with
    | .arrived => !call.cancelRequested && call.kind.isDisconnect && s.detachesAtOnce
    | .stoppingAttempt a =>
      (s.attemptResult? a).any fun result => call.cancelRequested || !result.escapes
    | _ => false

/-- What becomes of a state when a call runs, by whether the call takes the socket from the
session. -/
inductive Turn (config : Config) (s : State) (c : CallId) : Bool → State → Prop where
  | stays : Turn config s c false s
  | finishes {call : Call} (hc : s.calls[c]? = some call) (hf : call.flight? = none)
      (result : CallResult) : Turn config s c false (s.finishCall c result)
  /-- The call has its attempt, or needs none, and sends its command. -/
  | sends {call : Call} {commandType : String} {params : Value} (hc : s.calls[c]? = some call)
      (hstart : call.starting) (hasked : call.cancelRequested = false)
      (hkind : call.kind = .send commandType params) :
      Turn config s c false (s.sendCommand config c commandType params)
  /-- The command is written and has no answer yet. -/
  | awaits {call : Call} {id : CommandId} {k : SocketId} (hc : s.calls[c]? = some call)
      (hstage : call.stage = .writing id k (some true) none) :
      Turn config s c false (s.setStage c (.awaiting id k none))
  | ends {call : Call} {flight : Flight} (hc : s.calls[c]? = some call)
      (hf : call.flight? = some flight) (result : CallResult) :
      Turn config s c false (s.endCommand c flight.id result)
  /-- The call waits for the attempt of all callers. -/
  | joins {call : Call} (hc : s.calls[c]? = some call) (hstage : call.stage = .arrived)
      (hs : s.isConnected = false) :
      Turn config s c false (s.joinAttempt.1.setStage c (.joining s.joinAttempt.2))
  /-- The call begins to disconnect, and waits for the attempt that it stops. -/
  | stops {call : Call} (a : AttemptId) (hc : s.calls[c]? = some call)
      (hstage : call.stage = .arrived) (hkind : call.kind.isDisconnect)
      (hcur : s.current = some a) (hr : s.attemptResult? a = none) :
      Turn config s c false ((s.stopAttempt a).setStage c (.stoppingAttempt a))
  /-- The call takes the socket from the session, and forgets the attempt that it stopped and that
  it was asked to stop itself. -/
  | detaches {call : Call} (current : Option AttemptId) (hc : s.calls[c]? = some call)
      (hf : call.flight? = none)
      (hcurrent : current = s.current ∨
        current = none ∧ ∃ a, s.current = some a ∧ (s.attemptResult? a).isSome) :
      Turn config s c true (({ s with current }.setCall c fun call =>
        { call with cancelRequested := false }).detach c)
  /-- The socket has closed, and its reader is to end. -/
  | closes {call : Call} {k : SocketId} {reader : Option SocketId} {closed : Bool}
      (hc : s.calls[c]? = some call) (hstage : call.stage = .closing k reader closed) :
      Turn config s c false (s.awaitReader c reader)

/-- What becomes of a state when a call is cancelled. -/
inductive Cancels (s : State) (c : CallId) : State → Prop where
  | stays : Cancels s c s
  | asks : Cancels s c (s.setCall c fun call => { call with cancelRequested := true })
  /-- The attempt that a disconnect waits for is asked instead. -/
  | passes {call : Call} {a : AttemptId} (hc : s.calls[c]? = some call)
      (hstage : call.stage = .stoppingAttempt a) : Cancels s c (s.stopAttempt a)
  /-- The call gives up the answer that it waits for. -/
  | withdraws {call : Call} {id : CommandId} {k : SocketId} (hc : s.calls[c]? = some call)
      (hstage : call.stage = .awaiting id k none) (hasked : call.cancelRequested = false) :
      Cancels s c ((s.setCall c fun call => { call with cancelRequested := true }).record
        (.withdrawn id))

/-- What becomes of a state when a message comes on a socket. -/
inductive Receives (config : Config) (s : State) (k : SocketId) (frame : Frame) :
    State → Prop where
  /-- The message is no object, or names no command in the table. -/
  | ignores (hb : frame.breaks config = false)
      (hnot : ∀ entry ∈ s.pending, frame.answerTo? config entry.id = none) :
      Receives config s k frame s
  | answers {entry : Pending} {answer : Answer} (hb : frame.breaks config = false)
      (he : entry ∈ s.pending) (hanswer : frame.answerTo? config entry.id = some answer) :
      Receives config s k frame (s.answer entry answer)
  | breaks (error : FrameError) (hb : frame.breaks config) :
      Receives config s k frame (s.endReader k (some error))

/-- What an attempt does before it goes on. It says that the session connects when it starts, gives
up a handshake whose time is up, and forgets that it was asked to stop when its handshake has ended
by itself. -/
inductive Wakes (s : State) (a : AttemptId) (attempt : Attempt) : State → Prop where
  | goesOn (hstarted : attempt.stage ≠ .created) : Wakes s a attempt s
  | starts (hstage : attempt.stage = .created) : Wakes s a attempt { s with phase := .connecting }
  | aborts (hstarted : attempt.stage ≠ .created) :
      Wakes s a attempt (s.record (.handshakeAborted a))
  | hears (hstarted : attempt.stage ≠ .created) : Wakes s a attempt
      (s.setAttempt a fun attempt => { attempt with cancelRequested := false })

/-- What becomes of a state when an attempt runs. -/
inductive AttemptTurn (s : State) (a : AttemptId) : State → Prop where
  | stays (hover : ∀ attempt, s.attempts[a]? = some attempt → attempt.result?.isSome) :
      AttemptTurn s a s
  /-- The attempt was asked to stop before it started. -/
  | drops {attempt : Attempt} (ha : s.attempts[a]? = some attempt)
      (hstage : attempt.stage = .created) (hasked : attempt.cancelRequested) :
      AttemptTurn s a ((s.setAttempt a fun attempt =>
        { attempt with stage := .finished .cancelled }).record (.attemptFinished a .cancelled))
  | proceeds {attempt : Attempt} {u : State} (ha : s.attempts[a]? = some attempt)
      (hr : attempt.result? = none) (hu : s.Wakes a attempt u) {stage : AttemptStage}
      (hrunning : ∀ asked, Attempt.Running ⟨stage, asked⟩) (effects : List Effect)
      (heffects : ∀ effect ∈ effects, effect.isOfAttempt a) :
      AttemptTurn s a { u.setAttempt a (fun attempt => { attempt with stage }) with
        history := effects ++ u.history }
  /-- The attempt ends without a connection. -/
  | finishes {attempt : Attempt} {u : State} (ha : s.attempts[a]? = some attempt)
      (hr : attempt.result? = none) (hu : s.Wakes a attempt u) {result : AttemptResult}
      (hne : result ≠ .connected) (hasked : result = .cancelled → attempt.cancelRequested) :
      AttemptTurn s a (u.finishAttempt a result)
  | connects {attempt : Attempt} (ha : s.attempts[a]? = some attempt)
      (ho : attempt.outcome? = some .opened) :
      AttemptTurn s a ((s.setAttempt a fun attempt =>
        { attempt with cancelRequested := false }).install.finishAttempt a .connected)

variable (config : Config) {s u : State} {c : CallId} {call : Call} {a : AttemptId}
  {attempt : Attempt}

theorem detaches_eq (hc : s.calls[c]? = some call) : s.detaches c =
    match call.stage with
    | .arrived => !call.cancelRequested && call.kind.isDisconnect && s.detachesAtOnce
    | .stoppingAttempt a =>
      (s.attemptResult? a).any fun result => call.cancelRequested || !result.escapes
    | _ => false := by
  rw [detaches, hc]

/-! ## Connecting -/

/-- A command is registered. Its call gives it up at once, or writes it on the current socket, which
is open. -/
theorem sendCommand_enrolled (s : State) (c : CallId) (commandType : String) (params : Value) :
    (∃ error, s.sendCommand config c commandType params =
      (s.enroll c commandType (s.now.add config.timeout.toDouble)).endCommand c s.nextId
        (.failed error)) ∨
    ∃ k socket, s.socket = some k ∧ s.sockets[k]? = some socket ∧ socket.state = .opened ∧
      s.sendCommand config c commandType params =
        ((s.enroll c commandType (s.now.add config.timeout.toDouble)).record
          (.wrote k s.nextId commandType params)).setStage c (.writing s.nextId k none none) := by
  unfold sendCommand
  dsimp only
  split
  · exact .inl ⟨_, rfl⟩
  · next k hk =>
    split
    · exact .inl ⟨_, rfl⟩
    · next socket hsocket =>
      split
      · exact .inl ⟨_, rfl⟩
      · next hopened =>
        split
        · exact .inl ⟨_, rfl⟩
        · exact .inr ⟨k, socket, hk, hsocket, Decidable.not_not.mp hopened, rfl⟩

theorem turn_afterConnect (hc : s.calls[c]? = some call) (hstart : call.starting)
    (hasked : call.cancelRequested = false) :
    s.Turn config c false (s.afterConnect config c call.kind) := by
  cases hkind : call.kind with
  | send commandType params => exact .sends hc hstart hasked hkind
  | _ => exact .finishes hc (Call.flight?_of_starting hstart) _

theorem turn_afterAttempt (hc : s.calls[c]? = some call) (hstart : call.starting)
    (hasked : call.cancelRequested = false) (result : AttemptResult) :
    s.Turn config c false (s.afterAttempt config c call.kind result) := by
  cases result with
  | connected => exact turn_afterConnect config hc hstart hasked
  | failed _ | cancelled => exact .finishes hc (Call.flight?_of_starting hstart) _

/-- The attempt that a call joins has a result only if it was there before. -/
theorem joinAttempt_of_result {result : AttemptResult}
    (h : s.joinAttempt.1.attemptResult? s.joinAttempt.2 = some result) : s.joinAttempt.1 = s := by
  unfold joinAttempt at h ⊢
  split
  · rfl
  · next hcur =>
    rw [hcur] at h
    simp [attemptResult?, Attempt.result?] at h

theorem turn_connect (hc : s.calls[c]? = some call) (hstage : call.stage = .arrived)
    (hasked : call.cancelRequested = false) :
    s.Turn config c false (s.connect config c call.kind) := by
  have hstart : call.starting := by rw [Call.starting, hstage]
  unfold connect
  split
  · exact turn_afterConnect config hc hstart hasked
  · next hs =>
    dsimp only
    split
    · next result hr =>
      rw [joinAttempt_of_result hr]
      exact turn_afterAttempt config hc hstart hasked result
    · exact .joins hc hstage (eq_false_of_ne_true hs)

/-! ## Disconnecting -/

/-- A call that was not asked to stop has nothing to forget. -/
theorem setCall_clear (hc : s.calls[c]? = some call) (hasked : call.cancelRequested = false) :
    (s.setCall c fun call => { call with cancelRequested := false }) = s := by
  refine setCall_of_unchanged fun other hother => ?_
  obtain rfl := Option.some.inj (hc.symm.trans hother)
  rw [← hasked]

theorem turn_forget (hc : s.calls[c]? = some call) (hf : call.flight? = none) {a : AttemptId}
    {result : AttemptResult} (hr : s.attemptResult? a = some result) :
    s.Turn config c true (({ s with current := if s.current = some a then none else s.current
      }.setCall c fun call => { call with cancelRequested := false }).detach c) := by
  refine .detaches _ hc hf ?_
  split
  · next hcur => exact .inr ⟨rfl, a, hcur, by rw [hr]; rfl⟩
  · exact .inl rfl

theorem turn_afterStop (hc : s.calls[c]? = some call) (hf : call.flight? = none)
    (hasked : call.cancelRequested = false) {a : AttemptId} {result : AttemptResult}
    (hr : s.attemptResult? a = some result) :
    s.Turn config c (!result.escapes) (s.afterStop c a result) := by
  have hforget := turn_forget config hc hf hr
  rw [setCall_clear (s := { s with current := if s.current = some a then none else s.current }) hc
    hasked] at hforget
  cases result with
  | connected | cancelled => exact hforget
  | failed error =>
    cases error with
    | unexpected message => exact .finishes hc hf _
    | timedOut | gaveUp _ => exact hforget

theorem turn_disconnect (hc : s.calls[c]? = some call) (hstage : call.stage = .arrived)
    (hasked : call.cancelRequested = false) (hkind : call.kind.isDisconnect) :
    s.Turn config c s.detachesAtOnce (s.disconnect c) := by
  have hf : call.flight? = none := by rw [Call.flight?, hstage]
  unfold detachesAtOnce disconnect
  cases hcur : s.current with
  | none =>
    have hdetach : s.Turn config c true _ := .detaches _ hc hf (.inl rfl)
    rwa [setCall_clear hc hasked] at hdetach
  | some a =>
    dsimp only
    cases hr : s.attemptResult? a with
    | none => exact .stops a hc hstage hkind hcur hr
    | some result => exact turn_afterStop config hc hf hasked hr

/-! ## Running and cancelling -/

theorem turn_begin (hc : s.calls[c]? = some call) (hstage : call.stage = .arrived)
    (hasked : call.cancelRequested = false) :
    s.Turn config c (call.kind.isDisconnect && s.detachesAtOnce) (s.begin config c call.kind) := by
  have hf : call.flight? = none := by rw [Call.flight?, hstage]
  have hconnect := turn_connect config hc hstage hasked
  cases hkind : call.kind with
  | connect | enter => rwa [hkind] at hconnect
  | disconnect | leave =>
    exact turn_disconnect config hc hstage hasked (by rw [hkind]; rfl)
  | send commandType params =>
    rw [hkind] at hconnect
    rw [begin]
    split
    · exact hconnect
    · exact .finishes hc hf _

theorem turn_runCall (s : State) (c : CallId) :
    s.Turn config c (s.detaches c) (s.runCall config c) := by
  cases hc : s.calls[c]? with
  | none =>
    rw [detaches, runCall, hc]
    exact .stays
  | some call =>
    rw [detaches_eq hc, runCall, hc]
    obtain ⟨kind, stage, asked⟩ := call
    cases stage with
    | arrived =>
      cases asked with
      | true => exact .finishes hc rfl _
      | false => exact turn_begin config hc rfl rfl
    | joining a =>
      dsimp only
      split
      · exact .finishes hc rfl _
      · exact .finishes hc rfl _
      · exact turn_afterAttempt config hc rfl rfl _
      · exact .stays
    | writing id k written answer =>
      dsimp only
      split
      · exact .ends hc rfl _
      · split
        · exact .ends hc rfl _
        · exact .awaits hc rfl
        · exact .ends hc rfl _
        · exact .stays
    | awaiting id k answer =>
      dsimp only
      split
      · exact .ends hc rfl _
      · split
        · exact .ends hc rfl _
        · exact .stays
    | stoppingAttempt a =>
      dsimp only
      cases hr : s.attemptResult? a with
      | none => exact .stays
      | some result =>
        -- A caller that was cancelled meanwhile does not see how the attempt ended.
        cases asked with
        | true => exact turn_forget config hc rfl hr
        | false => exact turn_afterStop config hc rfl rfl hr
    | closing k reader closed =>
      dsimp only
      split
      · exact .finishes hc rfl _
      · exact .closes hc rfl
    | stoppingReader k => exact .finishes hc rfl _
    | finished result => exact .stays

theorem cancels_cancelCall (s : State) (c : CallId) : s.Cancels c (s.cancelCall c) := by
  unfold cancelCall
  split
  · exact .stays
  · next call hc =>
    split
    · exact .stays
    · exact .stays
    · next a hstage =>
      split
      · exact .asks
      · exact .passes hc hstage
    · dsimp only
      split
      · next id hw =>
        obtain ⟨k, hstage, hasked⟩ := Call.withdraws?_eq_some hw
        exact .withdraws hc hstage hasked
      · exact .asks

/-- A disconnect finishes, or it waits for the end of a reader, which takes no further message. -/
theorem awaitReader_cases (s : State) (c : CallId) (reader : Option SocketId) :
    (∃ result, s.awaitReader c reader = s.finishCall c result) ∨
      ∃ k socket, reader = some k ∧ s.sockets[k]? = some socket ∧
        socket.reader.hasEnded = false ∧ s.awaitReader c reader = (s.setSocket k fun socket =>
          { socket with reader := .stopping }).setStage c (.stoppingReader k) := by
  cases reader with
  | none => exact .inl ⟨_, rfl⟩
  | some k =>
    rw [awaitReader]
    cases hk : s.sockets[k]? with
    | none => exact .inl ⟨_, rfl⟩
    | some socket =>
      dsimp only
      cases hreader : socket.reader with
      | reading | stopping => exact .inr ⟨k, socket, rfl, hk, by rw [hreader]; rfl, rfl⟩
      | ended fault => cases fault <;> exact .inl ⟨_, rfl⟩

/-! ## The link of a session that disconnects -/

/-- A disconnect that waits for a reader changes its socket only. -/
theorem link_awaitReader (s : State) (c : CallId) (reader : Option SocketId) :
    ∃ sockets : List Socket, sockets.length = s.sockets.length ∧
      (s.awaitReader c reader).link = { s.link with sockets } := by
  rcases s.awaitReader_cases c reader with ⟨result, heq⟩ | ⟨k, socket, -, -, -, heq⟩
  · rw [heq]
    exact ⟨_, rfl, rfl⟩
  · rw [heq]
    exact ⟨_, List.length_modify _ _ _, rfl⟩

/-- A session whose socket was detached is disconnected. -/
theorem link_detach (s : State) (c : CallId) :
    ∃ sockets : List Socket, sockets.length = s.sockets.length ∧ (s.detach c).link =
      { s.link with phase := .disconnected, socket := none, reader := none, sockets } := by
  have hdrop := link_failPending { s with socket := none, reader := none, phase := .disconnected }
    false
  have hsockets : (failPending { s with socket := none, reader := none, phase := .disconnected }
    false).sockets = s.sockets := congrArg Link.sockets hdrop
  unfold detach
  dsimp only
  split
  · obtain ⟨sockets, hlength, hawait⟩ := link_awaitReader
      ({ s with socket := none, reader := none, phase := .disconnected }.failPending false) c
      s.reader
    refine ⟨sockets, hlength.trans (congrArg List.length hsockets), ?_⟩
    rw [hawait, hdrop]
    rfl
  · rw [link_setStage, link_record, link_setSocket, hdrop]
    exact ⟨_, List.length_modify _ _ _, rfl⟩

/-! ## Attempts -/

section

variable (ha : s.attempts[a]? = some attempt) (hr : attempt.result? = none)
  (hu : s.Wakes a attempt u)

include ha hr hu

theorem attemptTurn_beginRound (round : Nat) : s.AttemptTurn a (u.beginRound config a round) := by
  unfold beginRound
  split
  · exact .finishes ha hr hu (by simp) (by simp)
  · split
    · exact .proceeds ha hr hu (fun _ => ⟨rfl, by simp⟩) [.handshakeBegan a u.now]
        (by simp [Effect.isOfAttempt])
    · exact .proceeds ha hr hu (fun _ => ⟨rfl, by simp⟩) [] (by simp)

theorem attemptTurn_afterFailure (round : Nat) (failure : HandshakeFailure) :
    s.AttemptTurn a (u.afterFailure config a round failure) := by
  unfold afterFailure
  split
  · exact .proceeds ha hr hu (fun _ => ⟨rfl, by simp⟩) [.restBegan a]
      (by simp [Effect.isOfAttempt])
  · exact .finishes ha hr hu (by simp) (by simp)

end

theorem attemptTurn_runAttempt (s : State) (a : AttemptId) :
    s.AttemptTurn a (s.runAttempt config a) := by
  cases ha : s.attempts[a]? with
  | none =>
    rw [runAttempt, ha]
    exact .stays (by simp [ha])
  | some attempt =>
    rw [runAttempt, ha]
    obtain ⟨stage, asked⟩ := attempt
    cases stage with
    | created =>
      cases asked with
      | true => exact .drops ha rfl rfl
      | false => exact attemptTurn_beginRound config ha rfl (.starts rfl) 1
    | handshaking round deadline outcome expired =>
      cases outcome with
      | some outcome =>
        -- An attempt that was asked to stop goes on all the same when its handshake has ended.
        cases outcome with
        | opened => exact .connects ha rfl
        | refused _ | timedOut =>
          exact attemptTurn_afterFailure config ha rfl (.hears (by simp)) round _
        | unexpected message => exact .finishes ha rfl (.hears (by simp)) (by simp) (by simp)
      | none =>
        cases asked with
        | true => exact .finishes ha rfl (.aborts (by simp)) (by simp) (by simp)
        | false => exact attemptTurn_afterFailure config ha rfl (.aborts (by simp)) round _
    | lapsed round =>
      cases asked with
      | true => exact .finishes ha rfl (.goesOn (by simp)) (by simp) (by simp)
      | false => exact attemptTurn_afterFailure config ha rfl (.goesOn (by simp)) round _
    | resting round last wakeAt elapsed =>
      cases asked with
      | true => exact .finishes ha rfl (.goesOn (by simp)) (by simp) (by simp)
      | false => exact attemptTurn_beginRound config ha rfl (.goesOn (by simp)) _
    | finished result => exact .stays (by simp [ha, Attempt.result?])

/-! ## Messages -/

theorem receives_receive (config : Config) (s : State) (k : SocketId) (frame : Frame) :
    s.Receives config k frame (s.receive config k frame) := by
  unfold receive
  cases hd : frame.decode config.nesting with
  | error error =>
    have hbreaks : frame.breaks config = error.breaksReader := by rw [Frame.breaks, hd]
    dsimp only
    split
    · next he => exact .breaks error (hbreaks.trans he)
    · next he =>
      refine .ignores (hbreaks.trans (eq_false_of_ne_true he)) fun entry _ => ?_
      rw [Frame.answerTo?, hd]
  | ok fields =>
    have hb : frame.breaks config = false := by rw [Frame.breaks, hd]
    dsimp only
    cases hreply : replyOf? fields with
    | none =>
      refine .ignores hb fun entry _ => ?_
      rw [Frame.answerTo?_eq hd, hreply]
      rfl
    | some reply =>
      dsimp only
      unfold deliver
      split
      · next entry hfind =>
        have hname : commandName entry.id = reply.commandName := by
          simpa using List.find?_some hfind
        refine .answers hb (List.mem_of_find?_eq_some hfind) ?_
        rw [Frame.answerTo?_eq hd, hreply]
        exact if_pos hname.symm
      · next hfind =>
        refine .ignores hb fun entry he => ?_
        have hname : commandName entry.id ≠ reply.commandName := by
          simpa using List.find?_eq_none.mp hfind entry he
        rw [Frame.answerTo?_eq hd, hreply]
        exact if_neg (Ne.symm hname)

/-- The end of the reading of a socket shows in the sockets, and it takes the socket away if it is
the current one. -/
theorem link_endReader (s : State) (k : SocketId) (fault : Option FrameError) :
    ∃ sockets : List Socket, sockets.length = s.sockets.length ∧
      ((s.endReader k fault).link = { s.link with sockets } ∨ (s.endReader k fault).link =
        { s.link with phase := .disconnected, socket := none, reader := none, sockets }) := by
  refine ⟨_, List.length_modify (fun socket : Socket => { socket with reader := .ended fault })
    s.sockets k, ?_⟩
  unfold endReader
  dsimp only
  split
  · right
    rw [link_failPending]
    rfl
  · exact .inl rfl

end State

end EditorLink.Session
