import EditorLink.Session.Step

/-!
# The parts of a session's state

The link of a session is the part of its state that knows the connection: the phase, the current
socket and its reader, the attempts and the sockets. What callers do to the table of commands and
to each other leaves the link alone.
-/

namespace EditorLink.Session

/-- The part of the state that knows the connection. -/
structure Link where
  phase : Phase
  socket : Option SocketId
  reader : Option SocketId
  current : Option AttemptId
  attempts : List Attempt
  sockets : List Socket

/-- A command that a call has sent: the socket it was sent on, and its answer if it has one. -/
structure Flight where
  id : CommandId
  socket : SocketId
  answer : Option Answer

/-- Whether a message breaks the reader that meets it. -/
def Frame.breaks (config : Config) (frame : Frame) : Bool :=
  match frame.decode config.nesting with
  | .ok _ => false
  | .error error => error.breaksReader

def CallKind.isSend : CallKind → Bool
  | .send _ _ => true
  | _ => false

namespace Call

def flight? (call : Call) : Option Flight :=
  match call.stage with
  | .writing id socket _ answer => some ⟨id, socket, answer⟩
  | .awaiting id socket answer => some ⟨id, socket, answer⟩
  | _ => none

/-- The command whose answer can still be put into the call. -/
def awaited? (call : Call) : Option CommandId :=
  match call.stage with
  | .writing id _ _ none => some id
  | .awaiting id _ none => if call.cancelRequested then none else some id
  | _ => none

/-- Puts an answer into the call if it can take one. -/
def hear (call : Call) (answer : Answer) : Call :=
  if call.awaited?.isSome then call.putAnswer answer else call

theorem takesAnswer_iff (call : Call) (id : CommandId) :
    call.takesAnswer id ↔ call.awaited? = some id := by
  obtain ⟨kind, stage, asked⟩ := call
  cases stage with
  | writing own k written answer => cases answer <;> simp [takesAnswer, awaited?]
  | awaiting own k answer => cases answer <;> simp [takesAnswer, awaited?, and_comm]
  | _ => simp [takesAnswer, awaited?]

theorem flight?_of_awaited? {call : Call} {id : CommandId} (h : call.awaited? = some id) :
    ∃ k, call.flight? = some ⟨id, k, none⟩ := by
  unfold awaited? at h
  split at h
  · next own k written hstage =>
    obtain rfl := Option.some.inj h
    exact ⟨k, by rw [flight?, hstage]⟩
  · next own k hstage =>
    split at h
    · cases h
    · obtain rfl := Option.some.inj h
      exact ⟨k, by rw [flight?, hstage]⟩
  · cases h

theorem flight?_eq_none {call : Call} (h : call.isFinished) : call.flight? = none := by
  obtain ⟨kind, stage, asked⟩ := call
  cases stage with
  | finished result => rfl
  | _ => cases h

theorem awaited?_eq_none {call : Call} (h : call.flight? = none) : call.awaited? = none := by
  cases ha : call.awaited? with
  | none => rfl
  | some id =>
    obtain ⟨k, hk⟩ := flight?_of_awaited? ha
    rw [h] at hk
    cases hk

theorem hear_of_awaited?_eq_none {call : Call} (h : call.awaited? = none) (answer : Answer) :
    call.hear answer = call := by
  simp [hear, h]

@[simp] theorem kind_putAnswer (call : Call) (answer : Answer) :
    (call.putAnswer answer).kind = call.kind := by
  unfold putAnswer
  split <;> rfl

@[simp] theorem kind_hear (call : Call) (answer : Answer) :
    (call.hear answer).kind = call.kind := by
  unfold hear
  split <;> simp

@[simp] theorem awaited?_hear (call : Call) (answer : Answer) :
    (call.hear answer).awaited? = none := by
  by_cases h : call.awaited?.isSome
  · rw [hear, if_pos h]
    unfold awaited? at h
    split at h
    · next hstage => simp [putAnswer, hstage, awaited?]
    · next hstage => simp [putAnswer, hstage, awaited?]
    · cases h
  · rw [hear, if_neg h]
    simpa using h

theorem flight?_hear (call : Call) (answer : Answer) :
    (call.hear answer).flight? =
      if call.awaited?.isSome then call.flight?.map fun flight => { flight with answer }
      else call.flight? := by
  unfold hear
  split
  · next h =>
    unfold awaited? at h
    split at h
    · next hstage => simp [putAnswer, hstage, flight?]
    · next hstage => simp [putAnswer, hstage, flight?]
    · cases h
  · rfl

end Call

namespace State

def link (s : State) : Link := ⟨s.phase, s.socket, s.reader, s.current, s.attempts, s.sockets⟩

def withLink (s : State) (l : Link) : State :=
  { s with
    phase := l.phase
    socket := l.socket
    reader := l.reader
    current := l.current
    attempts := l.attempts
    sockets := l.sockets }

/-! ## One call or socket -/

theorem calls_setCall (s : State) (c j : CallId) (f : Call → Call) :
    (s.setCall c f).calls[j]? = if c = j then s.calls[j]?.map f else s.calls[j]? := by
  simp only [setCall, List.getElem?_modify]
  split <;> simp

theorem calls_setCall_self (s : State) (c : CallId) (f : Call → Call) :
    (s.setCall c f).calls[c]? = s.calls[c]?.map f := by
  rw [calls_setCall, if_pos rfl]

theorem calls_setCall_of_ne (s : State) {c j : CallId} (f : Call → Call) (h : c ≠ j) :
    (s.setCall c f).calls[j]? = s.calls[j]? := by
  rw [calls_setCall, if_neg h]

/-- After a change of one call, a call is the changed one or it is as it was. -/
theorem calls_setCall_cases {s : State} {c d : CallId} {f : Call → Call} {call new : Call}
    (hc : s.calls[c]? = some call) (hd : (s.setCall c f).calls[d]? = some new) :
    (c = d ∧ new = f call) ∨ (c ≠ d ∧ s.calls[d]? = some new) := by
  by_cases hcd : c = d
  · subst hcd
    rw [calls_setCall_self, hc] at hd
    exact .inl ⟨rfl, (Option.some.inj hd).symm⟩
  · rw [calls_setCall_of_ne s f hcd] at hd
    exact .inr ⟨hcd, hd⟩

theorem setCall_congr {s : State} {c : CallId} {f g : Call → Call}
    (h : ∀ call, s.calls[c]? = some call → f call = g call) : s.setCall c f = s.setCall c g := by
  have hcalls : s.calls.modify c f = s.calls.modify c g := by
    apply List.ext_getElem?
    intro j
    rw [List.getElem?_modify, List.getElem?_modify]
    cases hj : s.calls[j]? with
    | none => rfl
    | some call =>
      by_cases hcj : c = j
      · subst hcj
        simp [h call hj]
      · simp [hcj]
  rw [setCall, setCall, hcalls]

theorem setCall_of_unchanged {s : State} {c : CallId} {f : Call → Call}
    (h : ∀ call, s.calls[c]? = some call → f call = call) : s.setCall c f = s := by
  rw [setCall_congr (g := id) h, setCall, List.modify_id]

theorem calls_setStage_self (s : State) (c : CallId) (stage : CallStage) :
    (s.setStage c stage).calls[c]? = s.calls[c]?.map fun call => { call with stage } :=
  s.calls_setCall_self c _

theorem calls_setStage_of_ne (s : State) {c j : CallId} (stage : CallStage) (h : c ≠ j) :
    (s.setStage c stage).calls[j]? = s.calls[j]? :=
  s.calls_setCall_of_ne _ h

theorem calls_finishCall_self (s : State) (c : CallId) (result : CallResult) :
    (s.finishCall c result).calls[c]? =
      s.calls[c]?.map fun call => { call with stage := .finished result } :=
  s.calls_setCall_self c _

theorem calls_finishCall_of_ne (s : State) {c j : CallId} (result : CallResult) (h : c ≠ j) :
    (s.finishCall c result).calls[j]? = s.calls[j]? :=
  s.calls_setCall_of_ne _ h

theorem sockets_setSocket (s : State) (k j : SocketId) (f : Socket → Socket) :
    (s.setSocket k f).sockets[j]? = if k = j then s.sockets[j]?.map f else s.sockets[j]? := by
  simp only [setSocket, List.getElem?_modify]
  split <;> simp

theorem link_setSocket (s : State) (k : SocketId) (f : Socket → Socket) :
    (s.setSocket k f).link = { s.link with sockets := s.link.sockets.modify k f } := rfl

/-! ## What leaves the link alone -/

variable (config : Config) (s : State)

@[simp] theorem link_record (effect : Effect) : (s.record effect).link = s.link := rfl

@[simp] theorem link_setCall (c : CallId) (f : Call → Call) : (s.setCall c f).link = s.link := rfl

@[simp] theorem link_setStage (c : CallId) (stage : CallStage) :
    (s.setStage c stage).link = s.link := rfl

@[simp] theorem link_finishCall (c : CallId) (result : CallResult) :
    (s.finishCall c result).link = s.link := rfl

@[simp] theorem link_enroll (c : CallId) (commandType : String) (due : Double) :
    (s.enroll c commandType due).link = s.link := rfl

@[simp] theorem link_disarm (id : CommandId) : (s.disarm id).link = s.link := rfl

@[simp] theorem link_settle (entry : Pending) (answer : Answer) :
    (s.settle entry answer).link = s.link := by
  unfold settle
  split
  · split <;> rfl
  · rfl

@[simp] theorem link_answer (entry : Pending) (answer : Answer) :
    (s.answer entry answer).link = s.link := by
  simp only [State.answer, link_settle]
  rfl

@[simp] theorem link_discard (id : CommandId) : (s.discard id).link = s.link := by
  unfold discard
  split <;> rfl

@[simp] theorem link_failPending (byPeer : Bool) : (s.failPending byPeer).link = s.link := by
  unfold failPending
  generalize s.pending = entries
  induction entries generalizing s with
  | nil => rfl
  | cons entry entries ih => rw [List.foldl_cons, ih, link_answer]

@[simp] theorem link_expire (id : CommandId) : (s.expire id).link = s.link := by
  unfold expire
  split <;> simp

@[simp] theorem link_endCommand (c : CallId) (id : CommandId) (result : CallResult) :
    (s.endCommand c id result).link = s.link := by
  simp [endCommand]

@[simp] theorem link_sendCommand (c : CallId) (commandType : String) (params : Value) :
    (s.sendCommand config c commandType params).link = s.link := by
  simp only [sendCommand]
  repeat' split
  all_goals simp

@[simp] theorem link_afterConnect (c : CallId) (kind : CallKind) :
    (s.afterConnect config c kind).link = s.link := by
  cases kind <;> simp [afterConnect]

@[simp] theorem link_afterAttempt (c : CallId) (kind : CallKind) (result : AttemptResult) :
    (s.afterAttempt config c kind result).link = s.link := by
  cases result <;> simp [afterAttempt]

/-! ## What does not see the link -/

theorem settle_withLink (l : Link) (entry : Pending) (answer : Answer) :
    (s.withLink l).settle entry answer = (s.settle entry answer).withLink l := by
  simp only [settle, show (s.withLink l).calls = s.calls from rfl]
  split
  · split <;> rfl
  · rfl

theorem answer_withLink (l : Link) (entry : Pending) (answer : Answer) :
    (s.withLink l).answer entry answer = (s.answer entry answer).withLink l :=
  settle_withLink ((s.removePending entry.id).disarm entry.id) l entry answer

theorem failPending_withLink (l : Link) (byPeer : Bool) :
    (s.withLink l).failPending byPeer = (s.failPending byPeer).withLink l := by
  unfold failPending
  rw [show (s.withLink l).pending = s.pending from rfl]
  generalize s.pending = entries
  induction entries generalizing s with
  | nil => rfl
  | cons entry entries ih => rw [List.foldl_cons, List.foldl_cons, answer_withLink, ih]

/-! ## Runs -/

/-- What every step keeps, every run keeps. -/
theorem run_keeps {P : State → Prop} (hstep : ∀ s event, P s → P (step config s event))
    {s : State} (h : P s) (events : List Event) : P (s.run config events) := by
  induction events generalizing s with
  | nil => exact h
  | cons event events ih => exact ih (hstep s event h)

end State

end EditorLink.Session
