import EditorLink.Proofs.Session.Leaving
import EditorLink.Proofs.Session.Reconnect

/-!
# What a disconnect leaves behind

The step that detaches the socket rejects every command that still waits for an answer, each with
its own command type. A command whose caller was cancelled while it waited is still pending then,
but takes no answer any more: its call ends as cancelled. From then on the session is free: callers
can connect anew while the disconnect closes the old socket, and what is left of the disconnect
cannot reach the new connection. When it returns, no attempt and no socket from the time before the
call is left.
-/

namespace EditorLink.Session

/-- How the write of a command ended, if it has. -/
def Call.written? (call : Call) : Option Bool :=
  match call.stage with
  | .writing _ _ written _ => written
  | .awaiting _ _ _ => some true
  | _ => none

theorem Call.course {call : Call} {id : CommandId} {k : SocketId} {answer : Option Answer}
    (h : call.flight? = some ⟨id, k, answer⟩) (commandType : String) :
    Course id k commandType call.written? answer call.stage := by
  obtain ⟨kind, stage, asked⟩ := call
  cases stage with
  | writing _ _ written _ =>
    cases h
    exact .writing written answer
  | awaiting _ _ _ =>
    cases h
    exact .awaiting answer
  | _ => cases h

namespace State

/-- Whether the caller of a command was cancelled while it waited for the answer, and takes none any
more. -/
def GivenUp (s : State) (entry : Pending) : Prop :=
  ∃ call k, s.calls[entry.call]? = some call ∧ call.stage = .awaiting entry.id k none ∧
    call.cancelRequested

/-- Whether a command is rejected because a disconnect took its connection. This is its answer, and
once it is written its call returns it, unless it is cancelled. -/
def Rejected (config : Config) (s : State) (entry : Pending) : Prop :=
  ∃ call params k, s.calls[entry.call]? = some call ∧ call.kind = .send entry.commandType params ∧
    call.flight? = some ⟨entry.id, k, some (.closed false)⟩ ∧
    ∀ later, call.cancelRequested = false → .cancel entry.call ∉ later →
      call.written?.or (s.first? config (fun _ event => event.writeEnd? entry.call) later) =
        some true →
      ((s.run config later).step config (.resume entry.call)).Ended entry.call
        (.failed (.closed false entry.commandType))

variable (config : Config) {s t : State} {c : CallId} {call : Call} {kind : CallKind}
  {k : SocketId} {closed asked : Bool} {event : Event}

/-! ## Commands -/

theorem flight?_of_detaches (hc : s.calls[c]? = some call) (hd : s.detaches c) :
    call.flight? = none := by
  rw [detaches_eq hc] at hd
  obtain ⟨kind, stage, asked⟩ := call
  cases stage with
  | arrived | stoppingAttempt _ => rfl
  | _ => cases hd

/-- The step that detaches the socket is heard by all other calls. -/
theorem calls_of_detaches (h : s.TableSound) (hd : s.detaches c) {d : CallId} (hne : c ≠ d)
    (hcall : s.calls[d]? = some call) :
    (s.step config (.resume c)).calls[d]? = some (call.hear (.closed false)) := by
  rw [step_resume config (callCanRun_of_detaches hd),
    (turn_runCall config s c).calls_of_ne h hne hcall, hd]
  rfl

/-- A command without an answer can still get one, unless its caller has given it up. -/
theorem awaited?_of_flight {id : CommandId} (hf : call.flight? = some ⟨id, k, none⟩) :
    call.awaited? = some id ∨ call.stage = .awaiting id k none ∧ call.cancelRequested := by
  obtain ⟨kind, stage, asked⟩ := call
  cases stage with
  | writing _ _ written _ =>
    cases hf
    exact .inl rfl
  | awaiting _ _ _ =>
    cases hf
    cases asked with
    | true => exact .inr ⟨rfl, rfl⟩
    | false => exact .inl rfl
  | _ => cases hf

theorem rejected_of_flight (h : s.Sound) {entry : Pending} {params : Value}
    (hc : s.calls[entry.call]? = some call) (hkind : call.kind = .send entry.commandType params)
    (hf : call.flight? = some ⟨entry.id, k, some (.closed false)⟩) : s.Rejected config entry := by
  refine ⟨call, params, k, hc, hkind, hf, fun later hasked hcancel hwritten => ?_⟩
  have htype : call.kind.commandType = entry.commandType := by rw [hkind]; rfl
  obtain ⟨new, hnew, hk, hask, hcourse⟩ :=
    course_run config h hc hasked htype (Call.course hf entry.commandType) hcancel
  have hnewtype : new.kind.commandType = entry.commandType := (congrArg _ hk).trans htype
  -- The answer is decided, and with the end of the write so is the course.
  rw [hwritten, Option.some_or] at hcourse
  have hreturned := returned_of_resume config hnew hask (hnewtype ▸ hcourse)
  rw [hnewtype] at hreturned
  exact ⟨_, hreturned, rfl⟩

/-- The step that detaches the socket rejects the pending commands. -/
theorem rejected_of_detaches (h : s.Sound) (hd : s.detaches c) {entry : Pending}
    (he : entry ∈ s.pending) :
    s.GivenUp entry ∨ (s.step config (.resume c)).Rejected config entry := by
  obtain ⟨call, k, hcall, hf, -, params, hkind⟩ := h.table.pending_flies entry he
  rcases awaited?_of_flight hf with ha | ⟨hstage, hasked⟩
  · right
    have hne : c ≠ entry.call := by
      -- A call that detaches has sent nothing.
      rintro rfl
      rw [flight?_of_detaches hcall hd] at hf
      cases hf
    have hheard := calls_of_detaches config h.table hd hne hcall
    refine rejected_of_flight config (h.step config (.resume c)) (k := k) hheard
      ((Call.kind_hear call _).trans hkind) ?_
    rw [Call.flight?_hear, ha, hf]
    rfl
  · exact .inl ⟨call, k, hcall, hstage, hasked⟩

/-- What the step that detaches the socket does. -/
structure Detached (config : Config) (t : State) (c : CallId) : Prop where
  disconnected : (t.step config (.resume c)).phase = .disconnected
  socket : (t.step config (.resume c)).socket = none
  reader : (t.step config (.resume c)).reader = none
  pending : (t.step config (.resume c)).pending = []
  timers : (t.step config (.resume c)).timers = []
  /-- The socket is closed. -/
  closing : ∀ k, t.socket = some k →
    ∃ socket, (t.step config (.resume c)).sockets[k]? = some socket ∧ socket.closeCalled
  /-- Every command that was pending is rejected, unless its caller had given it up. -/
  rejected : ∀ entry ∈ t.pending,
    t.GivenUp entry ∨ (t.step config (.resume c)).Rejected config entry

theorem detached_of_detaches (events : List Event) (hd : (run config {} events).detaches c) :
    Detached config (run config {} events) c := by
  have h : (run config {} events).Sound := Sound.init.run config events
  obtain ⟨u, hu, hstep⟩ := step_of_detaches config h.table hd
  obtain ⟨sockets, -, hlink⟩ := link_detach u c
  rw [← hstep] at hlink
  have hsocket : ((run config {} events).step config (.resume c)).socket = none :=
    congrArg Link.socket hlink
  have htable := (h.step config (.resume c)).table
  have hpending := htable.pending_eq_nil hsocket
  refine ⟨congrArg Link.phase hlink, hsocket, congrArg Link.reader hlink, hpending, ?_, ?_,
    fun entry he => rejected_of_detaches config h hd he⟩
  · have htimers := htable.timers_eq
    rw [hpending] at htimers
    exact List.map_eq_nil_iff.mp htimers
  · intro k hk
    rw [hstep]
    exact hu.closeCalled hk (socket_lt config events hk)

/-! ## The rest of a disconnect -/

namespace SameBut

protected theorem refl (s : State) (c : CallId) (k : SocketId) : s.SameBut s c k :=
  ⟨rfl, fun _ _ => rfl, fun _ _ => rfl⟩

theorem setCall (h : s.SameBut t c k) (f : Call → Call) : s.SameBut (t.setCall c f) c k :=
  ⟨h.session, fun d hd => (calls_setCall_of_ne t f hd).trans (h.calls d hd), h.sockets⟩

theorem record (h : s.SameBut t c k) (effect : Effect) : s.SameBut (t.record effect) c k :=
  ⟨h.session, h.calls, h.sockets⟩

theorem setSocket (h : s.SameBut t c k) (f : Socket → Socket) : s.SameBut (t.setSocket k f) c k := by
  refine ⟨h.session, h.calls, fun j hj => ?_⟩
  rw [sockets_setSocket, if_neg hj]
  exact h.sockets j hj

theorem finishCall (h : s.SameBut t c k) (result : CallResult) :
    s.SameBut (t.finishCall c result) c k :=
  (h.setCall _).record _

theorem awaitReader (s : State) (c : CallId) (k : SocketId) :
    s.SameBut (s.awaitReader c (some k)) c k := by
  have hrefl := SameBut.refl s c k
  rcases s.awaitReader_cases c (some k) with ⟨result, heq⟩ | ⟨j, socket, hj, -, -, heq⟩
  · rw [heq]
    exact hrefl.finishCall _
  · obtain rfl := Option.some.inj hj
    rw [heq]
    exact (hrefl.setSocket _).setCall _

end SameBut

/-- The end of the reading of a socket that is not current is seen in this socket only. -/
theorem sameBut_of_endsReading (he : event.endsReading config k) (hs : s.socket ≠ some k) :
    s.SameBut (s.step config event) c k := by
  have hrefl := SameBut.refl s c k
  rcases step_of_endsReading config he hs with heq | ⟨fault, heq⟩
  · rw [heq]
    exact hrefl
  · rw [heq]
    exact hrefl.setSocket _

/-- The steps of a disconnect that closes a socket change its call and this socket only. -/
theorem sameBut_of_closing (hc : s.calls[c]? = some ⟨kind, .closing k (some k) closed, asked⟩)
    (he : event.isOf c) : s.SameBut (s.step config event) c k := by
  have hrefl := SameBut.refl s c k
  cases hadmits : s.admits event with
  | false =>
    rw [step_of_not_admits config hadmits]
    exact hrefl
  | true =>
    cases event with
    | resume d =>
      obtain rfl : d = c := beq_iff_eq.mp he
      rw [step_resume config hadmits, runCall, hc]
      dsimp only
      split
      · exact hrefl.finishCall _
      · exact .awaitReader s d k
    | cancel d =>
      obtain rfl : d = c := beq_iff_eq.mp he
      rw [step, hadmits, if_pos rfl, act, cancelCall, hc]
      exact hrefl.setCall _
    | closeEnds d =>
      obtain rfl : d = c := beq_iff_eq.mp he
      cases closed with
      | true =>
        rw [admits, hc] at hadmits
        cases hadmits
      | false =>
        rw [step_closeEnds config hc]
        exact (hrefl.setCall _).setSocket _
    | writeEnds d _ =>
      obtain rfl : d = c := beq_iff_eq.mp he
      rw [admits, hc] at hadmits
      cases hadmits
    | _ => cases he

/-- The steps of a disconnect that waits for a reader change its call only. -/
theorem sameBut_of_stoppingReader (hc : s.calls[c]? = some ⟨kind, .stoppingReader k, asked⟩)
    (he : event.isOf c) : s.SameBut (s.step config event) c k := by
  have hrefl := SameBut.refl s c k
  cases hadmits : s.admits event with
  | false =>
    rw [step_of_not_admits config hadmits]
    exact hrefl
  | true =>
    cases event with
    | resume d =>
      obtain rfl : d = c := beq_iff_eq.mp he
      rw [step_resume config hadmits, runCall, hc]
      exact hrefl.finishCall _
    | cancel d =>
      obtain rfl : d = c := beq_iff_eq.mp he
      rw [step, hadmits, if_pos rfl, act, cancelCall, hc]
      exact hrefl
    | writeEnds d _ | closeEnds d =>
      obtain rfl : d = c := beq_iff_eq.mp he
      rw [admits, hc] at hadmits
      cases hadmits
    | _ => cases he

/-! ## Leaving nothing -/

/-- What holds of a disconnect after a run in which it was called and not cancelled. -/
structure LeavesNothing (config : Config) (before later : List Event) (c : CallId) (call : Call) :
    Prop where
  /-- It detaches the socket before it goes on, unless an attempt failed in an unexpected way. -/
  detaches : call.proceeded → Detaches config (before ++ later) c ∨
    ∃ message, call.stage = .finished (.failed (.attempt (.unexpected message)))
  /-- Nothing is pending when it has detached the socket, and all that was pending is rejected. -/
  detached : (run config {} (before ++ later)).detaches c →
    Detached config (run config {} (before ++ later)) c
  /-- It does not detach the socket or go on before the attempts have finished that there were as it
  was called. -/
  finished : (run config {} (before ++ later)).detaches c ∨ call.proceeded →
    ∀ a < (run config {} before).attempts.length,
      ((run config {} (before ++ later)).attemptResult? a).isSome
  /-- Every socket was opened by an attempt. -/
  opened : ∀ k < (run config {} (before ++ later)).sockets.length,
    ∃ a, Opens config (before ++ later) a k
  /-- When it has gone on, close was called for every socket that those attempts opened, or its
  reader has ended. -/
  gone : call.proceeded → ∀ a < (run config {} before).attempts.length, ∀ k,
    Opens config (before ++ later) a k → (run config {} (before ++ later)).Gone k
  /-- While it closes a socket, this is not the current one, and neither its steps nor the end of
  the reading of the socket change anything but its call and the socket. -/
  apart : ∀ k, call.closes? = some k → (run config {} (before ++ later)).socket ≠ some k ∧
    ∀ event : Event, event.isOf c ∨ event.endsReading config k →
      (run config {} (before ++ later)).SameBut
        ((run config {} (before ++ later)).step config event) c k
  /-- While it closes a socket, a new caller can get a new connection, and the disconnect stands
  where it stood. -/
  reconnects : ∀ k, call.closes? = some k → config.shakes → ∀ kind : CallKind, kind.connects config →
    let t := run config {} (before ++ later)
    ∃ more, (∀ event ∈ more, event.isOf c = false) ∧
      let u := t.run config (.arrive kind :: more)
      u.isConnected ∧ u.socket ≠ some k ∧ u.calls[c]? = some call ∧
        u.Told t.calls.length kind .connected

/-- Without a step of its own, a call that has sent nothing stands where it stood. -/
theorem calls_run_of_idle (h : s.Sound) (hc : s.calls[c]? = some call) (hf : call.flight? = none)
    {events : List Event} (hown : ∀ event ∈ events, event.isOf c = false) :
    (s.run config events).calls[c]? = some call := by
  induction events generalizing s with
  | nil => exact hc
  | cons event events ih =>
    obtain ⟨he, hrest⟩ := List.forall_mem_cons.mp hown
    have hstep := calls_step config h.table hc he
    rw [Call.told_of_awaited?_eq_none (Call.awaited?_eq_none hf)] at hstep
    exact ih (h.step config event) hstep hrest

theorem Former.run (h : s.Former k) (events : List Event) : (s.run config events).Former k :=
  run_keeps config (P := fun s => s.Former k) (fun _ event hk => hk.step config event) h events

namespace Leaving

variable {config} {events : List Event} {n : Nat}

theorem over_of_proceeded (hl : Leaving config events c n call) (hp : call.proceeded) :
    ∀ a < n, Over config events a := by
  cases hl with
  | arrived | stopping => cases hp
  | closing hdetached hover hk => exact hover
  | stoppingReader hdetached hover hk => exact hover
  | finished hover hresult => exact hover

theorem former_of_closes? (hl : Leaving config events c n call) (hk : call.closes? = some k) :
    (State.run config {} events).Former k := by
  cases hl with
  | closing hdetached hover hformer =>
    obtain rfl := Option.some.inj hk
    exact hformer
  | stoppingReader hdetached hover hformer =>
    obtain rfl := Option.some.inj hk
    exact hformer
  | _ => cases hk

theorem sameBut (hc : (State.run config {} events).calls[c]? = some call)
    (hl : Leaving config events c n call) (hk : call.closes? = some k)
    (he : event.isOf c ∨ event.endsReading config k) :
    (State.run config {} events).SameBut ((State.run config {} events).step config event) c k := by
  rcases he with hown | hreads
  · cases hl with
    | closing hdetached hover hformer =>
      obtain rfl := Option.some.inj hk
      exact sameBut_of_closing config hc hown
    | stoppingReader hdetached hover hformer =>
      obtain rfl := Option.some.inj hk
      exact sameBut_of_stoppingReader config hc hown
    | _ => cases hk
  · exact sameBut_of_endsReading config hreads (hl.former_of_closes? hk).2

theorem reconnects (hc : (State.run config {} events).calls[c]? = some call)
    (hl : Leaving config events c n call) (hk : call.closes? = some k) (hshakes : config.shakes)
    (hkind : kind.connects config) :
    let t := State.run config {} events
    ∃ more, (∀ event ∈ more, event.isOf c = false) ∧
      let u := t.run config (.arrive kind :: more)
      u.isConnected ∧ u.socket ≠ some k ∧ u.calls[c]? = some call ∧
        u.Told t.calls.length kind .connected := by
  intro t
  have h : t.Sound := Sound.init.run config events
  obtain ⟨more, hmore, hconnected, htold⟩ := can_connect hshakes h hkind
  have hlt : c < t.calls.length := (List.getElem?_eq_some_iff.mp hc).1
  have hown : ∀ event ∈ Event.arrive kind :: more, event.isOf c = false :=
    List.forall_mem_cons.mpr ⟨rfl, fun event he => hmore event he c hlt⟩
  have hformer := (hl.former_of_closes? hk).run config (.arrive kind :: more)
  exact ⟨more, fun event he => hmore event he c hlt, hconnected, hformer.2,
    calls_run_of_idle config h hc hl.flight?_eq_none hown, htold⟩

end Leaving

/-- In every run, a disconnect that is not cancelled leaves nothing behind. When it detaches the
socket, every pending command is rejected with the closed connection, for its own type, unless its
caller was cancelled while it waited, and the session is disconnected with no command and no timer
left. The attempts that there were as it was called have finished before that, and when it returns
their sockets are closed or were read to the end. While it waits for the close, callers can connect
anew, and nothing that is left of it changes the new connection. -/
theorem disconnect_leaves_nothing (before later : List Event)
    (hc : (run config {} before).calls[c]? = some ⟨kind, .arrived, false⟩)
    (hkind : kind.isDisconnect) (hcancel : .cancel c ∉ later) :
    ∃ call, (run config {} (before ++ later)).calls[c]? = some call ∧
      LeavesNothing config before later c call := by
  have hbegins : Leaving config before c (run config {} before).attempts.length
      ⟨kind, .arrived, false⟩ := .arrived hkind (Nat.le_refl _)
  obtain ⟨call, hcall, hl⟩ := hbegins.run hc hcancel
  refine ⟨call, hcall, ?_⟩
  constructor
  · intro hp
    cases hl with
    | arrived | stopping => cases hp
    | closing hdetached hover hk => exact .inl hdetached
    | stoppingReader hdetached hover hk => exact .inl hdetached
    | finished hover hresult =>
      exact hresult.imp_right fun ⟨message, heq⟩ => ⟨message, congrArg CallStage.finished heq⟩
  · exact detached_of_detaches config (before ++ later)
  · rintro (hd | hp) a ha
    · exact hl.finished_of_detaches hcall hd ha
    · exact (hl.over_of_proceeded hp a ha).finished
  · exact fun k hlt => exists_opens (before ++ later) hlt
  · intro hp a ha k hk
    exact ((hl.over_of_proceeded hp a ha).former k hk).gone (Sound.init.run config (before ++ later))
  · intro k hk
    exact ⟨(hl.former_of_closes? hk).2, fun event he => hl.sameBut hcall hk he⟩
  · exact fun k hk hshakes kind hconnects => hl.reconnects hcall hk hshakes hconnects

/-- A command is on its way to the editor when a disconnect takes the socket. -/
theorem disconnect_leaves_nothing_pending :
    let t := run {} {} [.arrive .connect, .resume 0, .attemptRuns 0, .handshakeEnds 0 .opened,
      .attemptRuns 0, .attemptNoticed 0, .arrive (.send "ping" .null), .resume 1,
      .arrive .disconnect]
    t.pending = [⟨0, "ping", 1⟩] ∧ t.detaches 2 ∧
      (t.step {} (.resume 2)).Rejected {} ⟨0, "ping", 1⟩ := by
  intro t
  have hcall : t.calls[2]? = some ⟨.disconnect, .arrived, false⟩ := rfl
  obtain ⟨call, -, hleaves⟩ := disconnect_leaves_nothing {} [.arrive .connect, .resume 0,
    .attemptRuns 0, .handshakeEnds 0 .opened, .attemptRuns 0, .attemptNoticed 0,
    .arrive (.send "ping" .null), .resume 1, .arrive .disconnect] [] hcall rfl List.not_mem_nil
  have hdetaches : t.detaches 2 := by decide
  have hpending : t.pending = [⟨0, "ping", 1⟩] := rfl
  have hmem : ⟨0, "ping", 1⟩ ∈ t.pending := hpending ▸ List.mem_singleton.mpr rfl
  refine ⟨hpending, hdetaches, ?_⟩
  rcases (hleaves.detached hdetaches).rejected ⟨0, "ping", 1⟩ hmem with
    ⟨other, k, hother, hstage, -⟩ | hrejected
  · obtain rfl := Option.some.inj ((show t.calls[1]? = some _ from rfl).symm.trans hother)
    cases hstage
  · exact hrejected

/-- The caller of a command is cancelled while it waits, and before its call runs again a disconnect
takes the socket: the command is pending then, and is not rejected. Its call ends as cancelled. -/
theorem disconnect_not_rejecting_givenUp :
    let t := run {} {} [.arrive .connect, .resume 0, .attemptRuns 0, .handshakeEnds 0 .opened,
      .attemptRuns 0, .attemptNoticed 0, .arrive (.send "ping" .null), .resume 1,
      .writeEnds 1 true, .resume 1, .cancel 1, .arrive .disconnect]
    let u := t.step {} (.resume 2)
    t.pending = [⟨0, "ping", 1⟩] ∧ t.detaches 2 ∧ ¬ u.Rejected {} ⟨0, "ping", 1⟩ ∧
      (u.step {} (.resume 1)).Ended 1 .cancelled := by
  intro t u
  refine ⟨rfl, by decide, ?_, ?_⟩
  · rintro ⟨call, params, k, hcall, -, hflight, -⟩
    obtain rfl := Option.some.inj ((show u.calls[1]? = some _ from rfl).symm.trans hcall)
    cases hflight
  · exact ⟨_, rfl, rfl⟩

end State

end EditorLink.Session
