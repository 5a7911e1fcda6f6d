import EditorLink.Proofs.Session.Attempts

/-!
# One attempt for all callers

At most one attempt is unfinished, so handshakes do not overlap. A caller that needs a connection
while an attempt is unfinished joins this attempt, and unless it is cancelled itself it is told the
attempt's result, whatever happens to the others: a caller that is cancelled changes nothing but
itself. A handshake that opens hands its socket to the session when its attempt goes on, and from
then on the socket stays accounted for.
-/

namespace EditorLink.Session

/-- Whether a call needs a connection and opens one if there is none. -/
def CallKind.connects (config : Config) : CallKind → Bool
  | .connect => true
  | .enter => true
  | .send _ _ => config.autoConnect
  | .disconnect => false
  | .leave => false

/-- What a caller that only connects gets for a connection. -/
def CallKind.onConnected? : CallKind → Option CallResult
  | .connect => some .done
  | .enter => some .entered
  | _ => none

namespace State

/-- Whether a call has finished with a result. -/
def Ended (s : State) (c : CallId) (result : CallResult) : Prop :=
  ∃ call, s.calls[c]? = some call ∧ call.stage = .finished result

/-- Whether a caller has been told the result of the attempt it waited for: it has failed with it,
or it is connected, and a call that sends has registered its command. -/
def Told (s : State) (c : CallId) (kind : CallKind) : AttemptResult → Prop
  | .connected =>
    match kind.onConnected? with
    | some result => s.Ended c result
    | none => ∃ id, .registered id c ∈ s.history
  | .failed error => s.Ended c (.failed (.attempt error))
  | .cancelled => s.Ended c (.failed .attemptCancelled)

/-- Whether a caller still waits for an attempt. Once the attempt has a result the caller can go
on. -/
def Waits (s : State) (c : CallId) (kind : CallKind) (a : AttemptId) : Prop :=
  s.calls[c]? = some ⟨kind, .joining a, false⟩ ∧ (∃ attempt, s.attempts[a]? = some attempt) ∧
    ((s.attemptResult? a).isSome → s.callCanRun c)

/-- Whether a caller shares an attempt: it waits for it, or was told its result. -/
def Shares (s : State) (c : CallId) (kind : CallKind) (a : AttemptId) : Prop :=
  s.Waits c kind a ∨ ∃ result, s.attemptResult? a = some result ∧ s.Told c kind result

variable (config : Config) {s : State} {a : AttemptId} {c : CallId} {call : Call} {kind : CallKind}
  {event : Event}

/-! ## Callers that share an attempt -/

theorem Ended.step (h : s.TableSound) {result : CallResult} (hended : s.Ended c result)
    (event : Event) : (s.step config event).Ended c result := by
  obtain ⟨call, hc, hstage⟩ := hended
  have hf : call.isFinished := by rw [Call.isFinished, hstage]
  exact ⟨call, calls_step_of_finished config h hc hf event, hstage⟩

theorem Told.step (h : s.TableSound) {result : AttemptResult} (htold : s.Told c kind result)
    (event : Event) : (s.step config event).Told c kind result := by
  cases result with
  | connected =>
    unfold Told at htold ⊢
    dsimp only at htold ⊢
    split at htold
    · exact htold.step config h event
    · obtain ⟨id, hid⟩ := htold
      exact ⟨id, registered_step config h hid event⟩
  | failed _ | cancelled => exact Ended.step config h htold event

theorem ended_finishCall (hc : s.calls[c]? = some call) (result : CallResult) :
    (s.finishCall c result).Ended c result := by
  refine ⟨{ call with stage := .finished result }, ?_, rfl⟩
  rw [calls_finishCall_self, hc]
  rfl

/-- A caller that goes on with its connection is told. -/
theorem told_afterConnect (h : s.TableSound) (hc : s.calls[c]? = some call)
    (hkind : call.kind.connects config) :
    (s.afterConnect config c call.kind).Told c call.kind .connected := by
  cases hk : call.kind with
  | connect | enter => exact ended_finishCall hc _
  | send commandType params =>
    refine ⟨s.nextId, ?_⟩
    rcases sendCommand_cases h config c commandType params with
      ⟨error, heq⟩ | ⟨k, socket, -, -, -, heq⟩
    · rw [afterConnect, heq]
      exact List.mem_cons_of_mem _ List.mem_cons_self
    · rw [afterConnect, heq]
      exact List.mem_cons_of_mem _ List.mem_cons_self
  | disconnect | leave =>
    rw [hk] at hkind
    cases hkind

theorem told_afterAttempt (h : s.TableSound) (hc : s.calls[c]? = some call)
    (hkind : call.kind.connects config) (result : AttemptResult) :
    (s.afterAttempt config c call.kind result).Told c call.kind result := by
  cases result with
  | connected => exact told_afterConnect config h hc hkind
  | failed _ | cancelled => exact ended_finishCall hc _

theorem callCanRun_joining (hc : s.calls[c]? = some ⟨kind, .joining a, false⟩) :
    s.callCanRun c = (s.attemptResult? a).isSome := by
  rw [callCanRun, hc]
  exact Bool.or_false _

theorem waits_of_joining (hc : s.calls[c]? = some ⟨kind, .joining a, false⟩) {attempt : Attempt}
    (ha : s.attempts[a]? = some attempt) : s.Waits c kind a :=
  ⟨hc, ⟨attempt, ha⟩, fun hr => (callCanRun_joining hc).trans hr⟩

theorem step_resume_joining (hc : s.calls[c]? = some ⟨kind, .joining a, false⟩)
    {result : AttemptResult} (hr : s.attemptResult? a = some result) :
    s.step config (.resume c) = s.afterAttempt config c kind result := by
  rw [step, admits, callCanRun_joining hc, hr, if_pos Option.isSome_some, act, runCall, hc]
  dsimp only
  rw [hr]
  cases result <;> rfl

/-- A caller that waits goes on only when the attempt has a result, and is told it then. -/
theorem shares_resume (h : s.TableSound) (hkind : kind.connects config) (hw : s.Waits c kind a) :
    (s.step config (.resume c)).Shares c kind a := by
  obtain ⟨hc, ⟨attempt, ha⟩, -⟩ := hw
  have hcan := callCanRun_joining hc
  cases hr : s.attemptResult? a with
  | none =>
    have hstep : s.step config (.resume c) = s := by
      rw [step, admits, hcan, hr]
      rfl
    rw [hstep]
    exact .inl (waits_of_joining hc ha)
  | some result =>
    rw [step_resume_joining config hc hr]
    refine .inr ⟨result, ?_, told_afterAttempt config h hc hkind result⟩
    rw [attemptResult?, attempts_of_link_eq (link_afterAttempt config s c kind result)]
    exact hr

theorem shares_step (h : s.TableSound) (hkind : kind.connects config) (hs : s.Shares c kind a)
    (hcancel : event ≠ .cancel c) : (s.step config event).Shares c kind a := by
  rcases hs with hw | ⟨result, hr, htold⟩
  · have hc := hw.1
    obtain ⟨attempt, ha⟩ := hw.2.1
    obtain ⟨new, hnew, -⟩ := attempt_step config ha event
    cases hown : event.isOf c with
    | false =>
      have hcalls := calls_step config h hc hown
      rw [Call.told_of_awaited?_eq_none rfl] at hcalls
      exact .inl (waits_of_joining hcalls hnew)
    | true =>
      cases event with
      | resume d =>
        obtain rfl : d = c := beq_iff_eq.mp hown
        exact shares_resume config h hkind hw
      | cancel d => exact absurd (congrArg Event.cancel (beq_iff_eq.mp hown)) hcancel
      | writeEnds d _ | closeEnds d =>
        obtain rfl : d = c := beq_iff_eq.mp hown
        rw [step, admits, hc, if_neg Bool.false_ne_true]
        exact .inl hw
      | _ => cases hown
  · exact .inr ⟨result, attemptResult?_step config hr event, htold.step config h event⟩

theorem shares_run (h : s.Sound) (hkind : kind.connects config) (hs : s.Shares c kind a)
    {events : List Event} (hcancel : .cancel c ∉ events) :
    (s.run config events).Shares c kind a := by
  induction events generalizing s with
  | nil => exact hs
  | cons event events ih =>
    obtain ⟨hne, hrest⟩ := not_or.mp (mt List.mem_cons.mpr hcancel)
    exact ih (h.step config event) (shares_step config h.table hkind hs (Ne.symm hne)) hrest

/-- A caller that shares an attempt with a result is told it, at the latest when it goes on. -/
theorem told_of_shares (h : s.TableSound) (hkind : kind.connects config) (hs : s.Shares c kind a)
    {result : AttemptResult} (hr : s.attemptResult? a = some result) :
    (s.step config (.resume c)).Told c kind result := by
  rcases hs with ⟨hc, -, hcan⟩ | ⟨other, hother, htold⟩
  · rw [step_resume_joining config hc hr]
    exact told_afterAttempt config h hc hkind result
  · obtain rfl := Option.some.inj (hr.symm.trans hother)
    exact htold.step config h (.resume c)

/-! ## Callers that begin -/

theorem isConnected_of_socket_eq_none (hs : s.socket = none) : s.isConnected = false := by
  rw [isConnected, hs]
  exact Bool.and_false _

theorem step_resume_arrived (hc : s.calls[c]? = some ⟨kind, .arrived, false⟩) :
    s.step config (.resume c) = s.begin config c kind := by
  have hadmits : s.admits (.resume c) = true := by rw [admits, callCanRun, hc]
  rw [step, hadmits, if_pos rfl, act, runCall, hc]
  rfl

theorem begin_of_connects (hkind : kind.connects config) :
    s.begin config c kind = s.connect config c kind := by
  cases kind with
  | connect | enter => rfl
  | send commandType params =>
    have hauto : config.autoConnect = true := hkind
    rw [begin, hauto, Bool.or_true, if_pos rfl]
  | disconnect | leave => cases hkind

/-- A caller that needs a connection joins the attempt that is unfinished. -/
theorem joins_unfinished (h : s.Sound) {attempt : Attempt} (ha : s.attempts[a]? = some attempt)
    (hr : attempt.result? = none) (hc : s.calls[c]? = some ⟨kind, .arrived, false⟩)
    (hkind : kind.connects config) : s.step config (.resume c) = s.setStage c (.joining a) := by
  obtain ⟨hcur, hs⟩ : s.current = some a ∧ s.socket = none := h.link.unfinished a attempt ha hr
  have hjoin : s.joinAttempt = (s, a) := by rw [joinAttempt, hcur]
  rw [step_resume_arrived config hc, begin_of_connects config hkind, connect,
    isConnected_of_socket_eq_none hs, if_neg (by decide), hjoin]
  dsimp only
  rw [attemptResult?_of_getElem? ha, hr]

/-- A caller that only connects is done at once while there is a connection. -/
theorem done_when_connected (hs : s.isConnected) (hc : s.calls[c]? = some ⟨kind, .arrived, false⟩)
    {result : CallResult} (hkind : kind.onConnected? = some result) :
    s.step config (.resume c) = s.finishCall c result := by
  rw [step_resume_arrived config hc]
  cases kind with
  | connect | enter =>
    cases hkind
    exact if_pos hs
  | _ => cases hkind

/-- A cancelled caller stops waiting, and leaves everything else as it is. -/
theorem step_cancel_joining {asked : Bool} (hc : s.calls[c]? = some ⟨kind, .joining a, asked⟩) :
    s.step config (.cancel c) = s.setCall c fun call => { call with cancelRequested := true } := by
  rw [step, admits, if_pos rfl, act, cancelCall, hc]
  rfl

theorem step_resume_cancelled (hc : s.calls[c]? = some ⟨kind, .joining a, true⟩) :
    ∃ result, s.step config (.resume c) = s.finishCall c result := by
  have hadmits : s.admits (.resume c) = true := by
    rw [admits, callCanRun, hc]
    exact Bool.or_true _
  rw [step, hadmits, if_pos rfl, act, runCall, hc]
  dsimp only
  split
  · exact ⟨_, rfl⟩
  · exact ⟨_, rfl⟩
  · next htrue => cases htrue
  · next htrue => cases htrue

/-! ## Handshakes -/

theorem handshakeRuns_spec (h : s.handshakeRuns a) :
    ∃ attempt, s.attempts[a]? = some attempt ∧ attempt.shakes := by
  cases ha : s.attempts[a]? with
  | none =>
    rw [handshakeRuns, ha] at h
    cases h
  | some attempt => exact ⟨attempt, rfl, handshakeRuns_of_getElem? ha ▸ h⟩

theorem Sound.unfinished_unique (h : s.Sound) {b : AttemptId} {x y : Attempt}
    (ha : s.attempts[a]? = some x) (hb : s.attempts[b]? = some y) (hx : x.result? = none)
    (hy : y.result? = none) : a = b :=
  (h.link.busy ha hx).unique hb hy

/-- A handshake begins only when none is in progress. -/
theorem handshake_alone (h : s.Sound) (hnot : s.handshakeRuns a = false)
    (hruns : (s.step config event).handshakeRuns a) (b : AttemptId) :
    s.handshakeRuns b = false := by
  obtain ⟨new, hnew, hshakes⟩ := handshakeRuns_spec hruns
  cases ha : s.attempts[a]? with
  | none =>
    rw [attempt_new config ha hnew] at hshakes
    cases hshakes
  | some attempt =>
    obtain ⟨other, hother, hmoves⟩ := attempt_step config ha event
    obtain rfl := Option.some.inj (hnew.symm.trans hother)
    have hr : attempt.result? = none := by
      cases hr : attempt.result? with
      | none => rfl
      | some result =>
        rw [hmoves.kept (by rw [hr]; rfl)] at hshakes
        rw [Attempt.result?_of_shakes hshakes] at hr
        cases hr
    apply eq_false_of_ne_true
    intro hb
    obtain ⟨y, hy, hys⟩ := handshakeRuns_spec hb
    obtain rfl := h.unfinished_unique ha hy hr (Attempt.result?_of_shakes hys)
    rw [hb] at hnot
    cases hnot

/-- The outcome of a handshake waits for its attempt to run. -/
theorem outcome_run {attempt : Attempt} (ha : s.attempts[a]? = some attempt)
    {outcome : HandshakeOutcome} (ho : attempt.outcome? = some outcome) {events : List Event}
    (hruns : .attemptRuns a ∉ events) :
    ∃ new, (s.run config events).attempts[a]? = some new ∧ new.outcome? = some outcome := by
  induction events generalizing s attempt with
  | nil => exact ⟨attempt, ha, ho⟩
  | cons event events ih =>
    obtain ⟨hne, hrest⟩ := not_or.mp (mt List.mem_cons.mpr hruns)
    obtain ⟨new, hnew, hmoves⟩ := attempt_step config ha event
    have hnot : event.runs a = false := Event.runs_eq_false (Ne.symm hne)
    exact ih hnew (hmoves.outcome hnot outcome ho) hrest

/-- An attempt whose handshake has opened installs its socket, also when it was asked to stop. -/
theorem installs_opened {attempt : Attempt} (ha : s.attempts[a]? = some attempt)
    (ho : attempt.outcome? = some .opened) :
    (s.step config (.attemptRuns a)).socket = some s.sockets.length ∧
      (s.step config (.attemptRuns a)).sockets =
        s.sockets ++ [⟨.opened, false, .reading, false⟩] := by
  obtain ⟨stage, asked⟩ := attempt
  cases stage with
  | handshaking round deadline outcome expired =>
    obtain rfl : outcome = some .opened := ho
    have hadmits : s.admits (.attemptRuns a) = true := by
      rw [admits, attemptCanRun, ha]
      rfl
    rw [step, hadmits, if_pos rfl, act, runAttempt, ha]
    exact ⟨rfl, rfl⟩
  | _ => cases ho

/-! ## Single flight -/

/-- What callers, attempts and sockets can rely on. -/
structure SingleFlight (s : State) : Prop where
  /-- At most one attempt is unfinished. -/
  unfinished_unique : ∀ (a b : AttemptId) (x y : Attempt), s.attempts[a]? = some x →
    s.attempts[b]? = some y → x.result? = none → y.result? = none → a = b
  /-- At most one handshake is in progress. -/
  handshake_unique : ∀ a b, s.handshakeRuns a → s.handshakeRuns b → a = b
  /-- A handshake begins only when none is in progress. -/
  handshake_alone : ∀ (event : Event) (a : AttemptId), s.handshakeRuns a = false →
    (s.step config event).handshakeRuns a → ∀ b, s.handshakeRuns b = false
  /-- To connect while connected is done at once. -/
  connected_done : ∀ (c : CallId) (kind : CallKind) (result : CallResult), s.isConnected →
    s.calls[c]? = some ⟨kind, .arrived, false⟩ → kind.onConnected? = some result →
    s.step config (.resume c) = s.finishCall c result
  /-- A caller that needs a connection while an attempt is unfinished shares this attempt: unless
  the caller is cancelled, it waits for the attempt or was told its result, and it is told the
  result when it goes on. -/
  shared : ∀ (a : AttemptId) (attempt : Attempt) (c : CallId) (kind : CallKind)
    (later : List Event), s.attempts[a]? = some attempt → attempt.result? = none →
    s.calls[c]? = some ⟨kind, .arrived, false⟩ → kind.connects config → .cancel c ∉ later →
    let t := (s.step config (.resume c)).run config later
    t.Shares c kind a ∧ ∀ result, t.attemptResult? a = some result →
      (t.step config (.resume c)).Told c kind result
  /-- The result of an attempt does not change. -/
  result_kept : ∀ (a : AttemptId) (result : AttemptResult) (event : Event),
    s.attemptResult? a = some result → (s.step config event).attemptResult? a = some result
  /-- A caller that is cancelled while it waits changes nothing but itself, then and when it goes
  on. -/
  cancelled_alone : ∀ (a : AttemptId) (c : CallId) (kind : CallKind) (asked : Bool),
    s.calls[c]? = some ⟨kind, .joining a, asked⟩ →
    s.step config (.cancel c) = (s.setCall c fun call => { call with cancelRequested := true }) ∧
      (asked → ∃ result, s.step config (.resume c) = s.finishCall c result)
  /-- Only a disconnect stops an attempt, and only an attempt that was stopped is cancelled. -/
  stopped : ∀ (a : AttemptId) (old new : Attempt) (event : Event), s.attempts[a]? = some old →
    (s.step config event).attempts[a]? = some new →
    (new.cancelRequested → old.cancelRequested ∨ s.stops event) ∧
      (new.result? = some .cancelled → old.result? = some .cancelled ∨ old.cancelRequested)
  /-- A handshake that has opened is not lost: its attempt installs the socket when it runs. -/
  installed : ∀ (a : AttemptId) (attempt : Attempt) (later : List Event),
    s.attempts[a]? = some attempt → attempt.outcome? = some .opened → .attemptRuns a ∉ later →
    let t := s.run config later
    (t.step config (.attemptRuns a)).socket = some t.sockets.length ∧
      (t.step config (.attemptRuns a)).sockets = t.sockets ++ [⟨.opened, false, .reading, false⟩]
  /-- A socket stays the current one until a disconnect has called for its close or its reader has
  ended. -/
  accounted : ∀ (k : SocketId) (later : List Event), k < s.sockets.length →
    let t := s.run config later
    t.socket = some k ∨
      ∃ socket, t.sockets[k]? = some socket ∧ (socket.closeCalled ∨ socket.reader.hasEnded)

/-- Every run is single flight. -/
theorem single_flight (events : List Event) : SingleFlight config (run config {} events) := by
  have h : (run config {} events).Sound := Sound.init.run config events
  constructor
  · exact fun a b x y ha hb hx hy => h.unfinished_unique ha hb hx hy
  · intro a b ha hb
    obtain ⟨x, hx, hxs⟩ := handshakeRuns_spec ha
    obtain ⟨y, hy, hys⟩ := handshakeRuns_spec hb
    exact h.unfinished_unique hx hy (Attempt.result?_of_shakes hxs) (Attempt.result?_of_shakes hys)
  · exact fun event a hnot hruns b => handshake_alone config h hnot hruns b
  · exact fun c kind result hs hc hkind => done_when_connected config hs hc hkind
  · intro a attempt c kind later ha hr hc hkind hcancel
    have hjoin := joins_unfinished config h ha hr hc hkind
    have hshares : ((run config {} events).step config (.resume c)).Shares c kind a := by
      rw [hjoin]
      refine .inl (waits_of_joining ?_ ha)
      rw [calls_setStage_self, hc]
      rfl
    have hbegun := h.step config (.resume c)
    have hlater := shares_run config hbegun hkind hshares hcancel
    exact ⟨hlater, fun result => told_of_shares config (hbegun.run config later).table hkind hlater⟩
  · exact fun a result event hr => attemptResult?_step config hr event
  · intro a c kind asked hc
    refine ⟨step_cancel_joining config hc, fun hasked => ?_⟩
    obtain rfl : asked = true := hasked
    exact step_resume_cancelled config hc
  · intro a old new event ha hnew
    obtain ⟨other, hother, hmoves⟩ := attempt_step config ha event
    obtain rfl := Option.some.inj (hnew.symm.trans hother)
    exact ⟨hmoves.asked, hmoves.cancelled⟩
  · intro a attempt later ha ho hruns
    obtain ⟨new, hnew, hopened⟩ := outcome_run config ha ho hruns
    exact installs_opened config hnew hopened
  · intro k later hk
    have ht := h.run config later
    have hlt := Nat.lt_of_lt_of_le hk (sockets_run config _ later)
    obtain ⟨socket, hsocket⟩ : ∃ socket, ((run config {} events).run config later).sockets[k]? =
        some socket := ⟨_, List.getElem?_eq_getElem hlt⟩
    rcases ht.link.accounted k socket hsocket with hcur | hgone
    · exact .inl hcur
    · exact .inr ⟨socket, hsocket, hgone⟩

/-- The caller that started an attempt is cancelled; the one that joined it is connected. -/
theorem single_flight_joined :
    let s := run {} {} [.arrive .connect, .resume 0, .attemptRuns 0, .arrive .connect]
    let t := (s.step {} (.resume 1)).run {}
      [.cancel 0, .resume 0, .handshakeEnds 0 .opened, .attemptRuns 0]
    (t.step {} (.resume 1)).Ended 1 .done := by
  intro s t
  have hshared := (single_flight {} [.arrive .connect, .resume 0, .attemptRuns 0,
    .arrive .connect]).shared 0 _ 1 .connect
    [.cancel 0, .resume 0, .handshakeEnds 0 .opened, .attemptRuns 0] rfl rfl rfl rfl (by simp)
  exact hshared.2 .connected rfl

end State

end EditorLink.Session
