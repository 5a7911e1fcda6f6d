import EditorLink.Proofs.Session.Hearing
import EditorLink.Proofs.Session.Rounds

/-!
# The phase while an attempt runs

An attempt says that the session connects when it takes its first step, and the step in which it ends
says how the session stands then. In between nothing else has a say: without a socket no connection
can end, and whoever disconnects waits for the attempt. Only a disconnect that waits for an attempt
before it could still come; it has gone on by the time that a later attempt takes its first step,
because all who wait for an attempt go on when it ends.
-/

namespace EditorLink.Session

/-- The attempt that a disconnect has stopped and waits for. -/
def Call.stopping? (call : Call) : Option AttemptId :=
  match call.stage with
  | .stoppingAttempt a => some a
  | _ => none

theorem Call.stopping?_putAnswer (call : Call) (answer : Answer) :
    (call.putAnswer answer).stopping? = call.stopping? := by
  obtain ⟨kind, stage, asked⟩ := call
  cases stage with
  | writing id k written taken => cases taken <;> rfl
  | awaiting id k taken => cases taken <;> rfl
  | _ => rfl

/-- The phase after an attempt has run: the given one, if it goes on. -/
def Phase.after (phase : Phase) : Option AttemptResult → Phase
  | none => phase
  | some .connected => .connected
  | some _ => .disconnected

namespace State

/-- Whether every disconnect that waits for an attempt waits for the current one. -/
def Woken (s : State) : Prop :=
  ∀ (c : CallId) (call : Call) (b : AttemptId), s.calls[c]? = some call →
    call.stopping? = some b → s.current = some b

/-- Whether between two states the phase stays, and no disconnect comes to wait for another attempt
than the given one. -/
structure Steady (s : State) (a : AttemptId) (t : State) : Prop where
  phase : t.phase = s.phase
  stopping : ∀ (c : CallId) (call : Call) (b : AttemptId), t.calls[c]? = some call →
    call.stopping? = some b → b = a ∨ ∃ old, s.calls[c]? = some old ∧ old.stopping? = some b

variable (config : Config) {s t u : State} {a : AttemptId} {c : CallId} {call : Call}
  {attempt : Attempt} {event : Event}

namespace Steady

theorem of_eq (hphase : t.phase = s.phase) (hcalls : t.calls = s.calls) : s.Steady a t :=
  ⟨hphase, fun _ call _ hc hb => .inr ⟨call, hcalls ▸ hc, hb⟩⟩

protected theorem refl (s : State) : s.Steady a s := of_eq rfl rfl

theorem trans (h : s.Steady a t) (h' : t.Steady a u) : s.Steady a u := by
  refine ⟨h'.phase.trans h.phase, fun c call b hc hb => ?_⟩
  rcases h'.stopping c call b hc hb with heq | ⟨mid, hmid, hb⟩
  · exact .inl heq
  · exact h.stopping c mid b hmid hb

theorem setCall (s : State) (c : CallId) {f : Call → Call}
    (hf : ∀ (call : Call) (b : AttemptId), (f call).stopping? = some b →
      b = a ∨ call.stopping? = some b) : s.Steady a (s.setCall c f) := by
  refine ⟨rfl, fun d call b hd hb => ?_⟩
  rw [calls_setCall] at hd
  split at hd
  · obtain ⟨old, hold, rfl⟩ := Option.map_eq_some_iff.mp hd
    exact (hf old b hb).imp_right fun hb => ⟨old, hold, hb⟩
  · exact .inr ⟨call, hd, hb⟩

theorem setStage (s : State) (c : CallId) {stage : CallStage}
    (hstage : ∀ (kind : CallKind) (asked : Bool),
      Call.stopping? ⟨kind, stage, asked⟩ = none) : s.Steady a (s.setStage c stage) := by
  refine setCall s c fun call b hb => ?_
  rw [hstage] at hb
  cases hb

theorem finishCall (s : State) (c : CallId) (result : CallResult) :
    s.Steady a (s.finishCall c result) :=
  (setStage s c fun _ _ => rfl).trans (of_eq rfl rfl)

theorem answer (s : State) (entry : Pending) (answer : Answer) :
    s.Steady a (s.answer entry answer) := by
  have hremoved : s.Steady a ((s.removePending entry.id).disarm entry.id) := of_eq rfl rfl
  refine hremoved.trans ?_
  unfold State.answer settle
  split
  · split
    · refine (setCall _ _ fun call b hb => .inr ?_).trans (of_eq rfl rfl)
      rwa [Call.stopping?_putAnswer] at hb
    · exact .refl _
  · exact .refl _

theorem endCommand (s : State) (c : CallId) (id : CommandId) (result : CallResult) :
    s.Steady a (s.endCommand c id result) := by
  have hdiscard : s.Steady a (s.discard id) :=
    of_eq (congrArg Link.phase (link_discard s id)) (calls_discard s id)
  exact hdiscard.trans (finishCall _ c result)

theorem expire (s : State) (id : CommandId) : s.Steady a (s.expire id) := by
  unfold State.expire
  split
  · exact answer s _ _
  · exact of_eq rfl rfl

/-- Without a socket the end of a reading changes nothing that matters here. -/
theorem endReader (hs : s.socket = none) (k : SocketId) (fault : Option FrameError) :
    s.Steady a (s.endReader k fault) := by
  rw [endReader_of_ne (by rw [hs]; simp)]
  exact of_eq rfl rfl

theorem receives {config : Config} (hs : s.socket = none) {k : SocketId} {frame : Frame}
    (ht : s.Receives config k frame t) : s.Steady a t := by
  cases ht with
  | ignores => exact .refl s
  | answers => exact answer s _ _
  | breaks error => exact endReader hs k error

theorem awaitReader (s : State) (c : CallId) (reader : Option SocketId) :
    s.Steady a (s.awaitReader c reader) := by
  rcases s.awaitReader_cases c reader with ⟨result, heq⟩ | ⟨k, socket, -, -, -, heq⟩
  · rw [heq]
    exact finishCall s c result
  · rw [heq]
    have hstopped : s.Steady a (s.setSocket k fun socket =>
      { socket with reader := .stopping }) := of_eq rfl rfl
    exact hstopped.trans (setStage _ c fun _ _ => rfl)

theorem sendCommand (s : State) (c : CallId) (commandType : String) (params : Value) :
    s.Steady a (s.sendCommand config c commandType params) := by
  have henroll : s.Steady a (s.enroll c commandType (s.now.add config.timeout.toDouble)) :=
    of_eq rfl rfl
  rcases sendCommand_enrolled config s c commandType params with
    ⟨error, heq⟩ | ⟨k, socket, -, -, -, heq⟩
  · rw [heq]
    exact henroll.trans (endCommand _ c _ _)
  · rw [heq]
    have hwrote : (s.enroll c commandType (s.now.add config.timeout.toDouble)).Steady a
      ((s.enroll c commandType (s.now.add config.timeout.toDouble)).record
        (.wrote k s.nextId commandType params)) := of_eq rfl rfl
    exact henroll.trans (hwrote.trans (setStage _ c fun _ _ => rfl))

theorem stopAttempt (s : State) (b : AttemptId) : s.Steady a (s.stopAttempt b) := by
  unfold State.stopAttempt
  split
  · exact .refl s
  · exact of_eq rfl rfl

theorem cancels (ht : s.Cancels c t) : s.Steady a t := by
  have hasked : s.Steady a (s.setCall c fun call => { call with cancelRequested := true }) :=
    setCall s c fun _ _ hb => .inr hb
  cases ht with
  | stays => exact .refl s
  | asks => exact hasked
  | passes => exact stopAttempt s _
  | withdraws => exact hasked.trans (of_eq rfl rfl)

/-- A call that goes on and does not take the socket waits for no attempt but the current one. -/
theorem turn {config : Config} (ht : s.Turn config c false t) (hcur : s.current = some a) :
    s.Steady a t := by
  cases ht with
  | stays => exact .refl s
  | finishes _ _ result => exact finishCall s c result
  | sends => exact sendCommand config s c _ _
  | awaits => exact setStage s c fun _ _ => rfl
  | ends _ _ result => exact endCommand s c _ result
  | joins =>
    have hjoin : s.Steady a s.joinAttempt.1 := by
      unfold joinAttempt
      split
      · exact .refl s
      · exact of_eq rfl rfl
    exact hjoin.trans (setStage _ c fun _ _ => rfl)
  | stops b _ _ _ hother =>
    refine (stopAttempt s b).trans (setCall _ c fun call other hb => .inl ?_)
    obtain rfl : b = other := Option.some.inj hb
    exact Option.some.inj (hother.symm.trans hcur)
  | closes => exact awaitReader s c _

end Steady

/-! ## Steps -/

/-- While the current attempt is unfinished and every disconnect waits for it, no call takes the
socket. -/
theorem Woken.detaches_eq_false (hwoken : s.Woken) (hcur : s.current = some a)
    (hr : s.attemptResult? a = none) (c : CallId) : s.detaches c = false := by
  cases hc : s.calls[c]? with
  | none => rw [detaches, hc]
  | some call =>
    rw [detaches_eq hc]
    split
    · rw [detachesAtOnce, hcur]
      dsimp only
      rw [hr, Option.any_none, Bool.and_false]
    · next b hstage =>
      obtain rfl : a = b := by
        have hb := hwoken c call b hc (by rw [Call.stopping?, hstage])
        exact Option.some.inj (hcur.symm.trans hb)
      rw [hr, Option.any_none]
    · rfl

/-- While an attempt is unfinished and every disconnect waits for it, nothing but the attempt
changes the phase. -/
theorem steady_step (h : s.Sound) (ha : s.attempts[a]? = some attempt)
    (hr : attempt.result? = none) (hwoken : s.Woken) (hne : event ≠ .attemptRuns a) :
    s.Steady a (s.step config event) := by
  obtain ⟨hcur, hs⟩ : s.current = some a ∧ s.socket = none := h.link.unfinished a attempt ha hr
  have hresult : s.attemptResult? a = none := (attemptResult?_of_getElem? ha).trans hr
  unfold step
  split
  · next hadmits =>
    cases event with
    | arrive kind =>
      refine ⟨rfl, fun c call b hc hb => .inr ⟨call, ?_, hb⟩⟩
      rcases Nat.lt_or_ge c s.calls.length with hold | hnew
      · rwa [act, List.getElem?_append_left hold] at hc
      · rw [act, List.getElem?_append_right hnew, List.getElem?_singleton] at hc
        split at hc
        · obtain rfl := Option.some.inj hc
          cases hb
        · cases hc
    | resume c =>
      have hturn := turn_runCall config s c
      rw [hwoken.detaches_eq_false hcur hresult c] at hturn
      exact .turn hturn hcur
    | cancel c => exact .cancels (cancels_cancelCall s c)
    | attemptRuns b =>
      obtain ⟨other, hb, hother⟩ := unfinished_of_canRun hadmits
      exact absurd (h.unfinished_unique hb ha hother hr ▸ rfl) hne
    | message k frame => exact .receives hs (receives_receive config s k frame)
    | readerEnds k => exact .endReader hs k none
    | writeEnds c written =>
      refine .setCall s c fun call b hb => .inr ?_
      obtain ⟨kind, stage, asked⟩ := call
      cases stage <;> exact hb
    | closeEnds c =>
      dsimp only [act]
      split
      · refine (Steady.setCall s c fun call b hb => .inr ?_).trans (.of_eq rfl rfl)
        obtain ⟨kind, stage, asked⟩ := call
        cases stage <;> exact hb
      · refine .setCall s c fun call b hb => .inr ?_
        obtain ⟨kind, stage, asked⟩ := call
        cases stage <;> exact hb
    | timerFires id => exact .expire s id
    | _ => exact .of_eq rfl rfl
  · exact .refl s

/-! ## The attempt itself -/

theorem phase_finishAttempt (ha : s.attempts[a]? = some attempt) (hs : s.phase ≠ .connected)
    {result : AttemptResult} (hne : result ≠ .connected) : (s.finishAttempt a result).phase =
      s.phase.after ((s.finishAttempt a result).attemptResult? a) := by
  have hresult : (s.finishAttempt a result).attemptResult? a = some result :=
    attemptResult?_setAttempt ha _
  have hphase : (s.finishAttempt a result).phase = .disconnected := by
    rw [finishAttempt]
    cases hp : s.phase with
    | connected => exact absurd hp hs
    | connecting | disconnected => rfl
  rw [hresult, hphase]
  cases result with
  | connected => exact absurd rfl hne
  | failed _ | cancelled => rfl

/-- The phase in which an attempt goes on. -/
def phaseOf (s : State) (attempt : Attempt) : Phase :=
  if attempt.stage = .created then .connecting else s.phase

theorem Wakes.phase (hu : s.Wakes a attempt u) : u.phase = s.phaseOf attempt := by
  cases hu with
  | starts hstage => exact (if_pos hstage).symm
  | goesOn hstarted | aborts hstarted | hears hstarted => exact (if_neg hstarted).symm

theorem Wakes.exists_attempt (hu : s.Wakes a attempt u) (ha : s.attempts[a]? = some attempt) :
    ∃ new, u.attempts[a]? = some new := by
  cases hu with
  | goesOn | starts | aborts => exact ⟨_, ha⟩
  | hears => exact ⟨_, attempts_setAttempt ha _⟩

/-- The phase that an attempt leaves when it runs. -/
theorem AttemptTurn.phase (ht : s.AttemptTurn a t) (h : s.Sound)
    (ha : s.attempts[a]? = some attempt) (hr : attempt.result? = none) :
    t.phase = (s.phaseOf attempt).after (t.attemptResult? a) := by
  have hs : s.phase ≠ .connected := by
    have hsocket : s.socket = none := (h.link.unfinished a attempt ha hr).2
    intro hp
    have hsome : s.socket.isSome := h.link.connected_iff.mp hp
    rw [hsocket] at hsome
    cases hsome
  have hof : s.phaseOf attempt ≠ .connected := by
    rw [phaseOf]
    split
    · simp
    · exact hs
  cases ht with
  | stays hover =>
    have hfinished := hover attempt ha
    rw [hr] at hfinished
    cases hfinished
  | drops hold hstage =>
    obtain rfl := Option.some.inj (ha.symm.trans hold)
    have hresult := attemptResult?_setAttempt ha (.finished .cancelled)
    refine Eq.trans ?_ (congrArg (Phase.after _) hresult).symm
    cases hp : s.phase with
    | connected => exact absurd hp hs
    | disconnected => exact hp
    | connecting =>
      obtain ⟨b, other, hb, hrunning⟩ := h.link.connecting hp
      obtain rfl := h.unfinished_unique ha hb hr hrunning.1
      obtain rfl := Option.some.inj (ha.symm.trans hb)
      exact absurd hstage hrunning.2
  | @proceeds _ u hold _ hu stage hrunning =>
    obtain rfl := Option.some.inj (ha.symm.trans hold)
    obtain ⟨new, hnew⟩ := hu.exists_attempt ha
    have hresult := attemptResult?_setAttempt hnew stage
    rw [(hrunning new.cancelRequested).1] at hresult
    exact hu.phase.trans (congrArg (Phase.after _) hresult).symm
  | finishes hold _ hu hne =>
    obtain rfl := Option.some.inj (ha.symm.trans hold)
    obtain ⟨new, hnew⟩ := hu.exists_attempt ha
    rw [← hu.phase] at hof ⊢
    exact phase_finishAttempt hnew hof hne
  | connects hold =>
    obtain rfl := Option.some.inj (ha.symm.trans hold)
    have hcleared : (s.setAttempt a fun attempt =>
        { attempt with cancelRequested := false }).install.attempts[a]? = _ :=
      attempts_setAttempt ha _
    have hresult := attemptResult?_setAttempt hcleared (.finished .connected)
    exact (congrArg (Phase.after _) hresult).symm

theorem unfinished_of_step (hr : (s.step config event).attemptResult? a = none) :
    s.attemptResult? a = none := by
  cases hold : s.attemptResult? a with
  | none => rfl
  | some result =>
    rw [attemptResult?_step config hold event] at hr
    cases hr

/-- An attempt ends in a step of its own. -/
theorem admits_of_ended (hr : s.attemptResult? a = none) {result : AttemptResult}
    (hended : (s.step config event).attemptResult? a = some result) :
    event = .attemptRuns a ∧ s.admits event ∧ ∃ attempt, s.attempts[a]? = some attempt := by
  obtain ⟨new, hnew, hresult⟩ := Option.bind_eq_some_iff.mp hended
  cases ha : s.attempts[a]? with
  | none =>
    rw [attempt_new config ha hnew] at hresult
    cases hresult
  | some attempt =>
    have hunfinished : attempt.result? = none := attemptResult?_of_getElem? ha ▸ hr
    obtain ⟨other, hother, hmoves⟩ := attempt_step config ha event
    obtain rfl := Option.some.inj (hnew.symm.trans hother)
    refine ⟨?_, ?_, attempt, rfl⟩
    · by_contra hne
      have hplace := hmoves.place (Event.runs_eq_false hne)
      rw [Attempt.result?_eq_of_place hplace, hunfinished] at hresult
      cases hresult
    · by_contra hnot
      rw [step, if_neg hnot, hr] at hended
      cases hended

/-- The phase in which an attempt ends. -/
theorem phase_of_ended (h : s.Sound) (hr : s.attemptResult? a = none) {result : AttemptResult}
    (hended : (s.step config event).attemptResult? a = some result) :
    (s.step config event).phase =
      if result = .connected then .connected else .disconnected := by
  obtain ⟨rfl, hadmits, attempt, ha⟩ := admits_of_ended config hr hended
  have hrun : s.step config (.attemptRuns a) = s.runAttempt config a := if_pos hadmits
  have hphase := (attemptTurn_runAttempt config s a).phase h ha (attemptResult?_of_getElem? ha ▸ hr)
  rw [hrun] at hended ⊢
  rw [hphase, hended]
  cases result <;> rfl

/-! ## Runs -/

/-- Whether the session connects for an attempt, and all who wait for an attempt wait for it. -/
structure Connects (s : State) (a : AttemptId) : Prop where
  phase : s.phase = .connecting
  woken : s.Woken
  exists_attempt : ∃ attempt, s.attempts[a]? = some attempt

theorem Connects.of_stopping (h : s.Sound) (ht : t.Sound) (ha : s.attempts[a]? = some attempt)
    {new : Attempt} (hnew : t.attempts[a]? = some new)
    (hold : s.attemptResult? a = none) (hr : t.attemptResult? a = none) (hwoken : s.Woken)
    (hphase : t.phase = .connecting)
    (hstopping : ∀ (c : CallId) (call : Call) (b : AttemptId), t.calls[c]? = some call →
      call.stopping? = some b → b = a ∨ ∃ old, s.calls[c]? = some old ∧ old.stopping? = some b) :
    t.Connects a := by
  have hcur : s.current = some a :=
    (h.link.unfinished a attempt ha (attemptResult?_of_getElem? ha ▸ hold)).1
  have hkept : t.current = some a :=
    (ht.link.unfinished a new hnew (attemptResult?_of_getElem? hnew ▸ hr)).1
  refine ⟨hphase, fun c call b hc hb => ?_, new, hnew⟩
  rcases hstopping c call b hc hb with rfl | ⟨old, hc, hb⟩
  · exact hkept
  · exact hkept.trans (hcur.symm.trans (hwoken c old b hc hb))

/-- A step after which an attempt is unfinished. It says that the session connects when it starts,
and nobody contradicts. -/
theorem connects_step (h : s.Sound) (ha : s.attempts[a]? = some attempt) (hwoken : s.Woken)
    (hphase : event = .attemptRuns a ∧ attempt.stage = .created ∨ s.phase = .connecting)
    (hr : (s.step config event).attemptResult? a = none) : (s.step config event).Connects a := by
  obtain ⟨new, hnew, -⟩ := attempt_step config ha event
  have hold := unfinished_of_step config hr
  have hunfinished : attempt.result? = none := attemptResult?_of_getElem? ha ▸ hold
  by_cases hevent : event = .attemptRuns a
  · subst hevent
    by_cases hadmits : s.admits (.attemptRuns a)
    · have hrun : s.step config (.attemptRuns a) = s.runAttempt config a := if_pos hadmits
      have hcalls : (s.step config (.attemptRuns a)).calls = s.calls := by
        rw [hrun, (attemptTurn_runAttempt config s a).calls]
      have hconnecting : (s.step config (.attemptRuns a)).phase = .connecting := by
        rw [hrun, (attemptTurn_runAttempt config s a).phase h ha hunfinished, ← hrun, hr, phaseOf]
        rcases hphase with ⟨-, hstage⟩ | hphase
        · exact if_pos hstage
        · rw [hphase]
          exact ite_self _
      exact .of_stopping h (h.step config _) ha hnew hold hr hwoken hconnecting
        fun c call b hc hb => .inr ⟨call, hcalls ▸ hc, hb⟩
    · have hconnecting : s.phase = .connecting := by
        refine hphase.resolve_left fun hstart => hadmits ?_
        rw [admits, attemptCanRun, ha]
        dsimp only
        rw [hstart.2]
      rw [show s.step config (.attemptRuns a) = s from if_neg hadmits]
      exact ⟨hconnecting, hwoken, attempt, ha⟩
  · have hsteady := steady_step config h ha hunfinished hwoken hevent
    have hconnecting : s.phase = .connecting := hphase.resolve_left fun hstart => hevent hstart.1
    exact .of_stopping h (h.step config event) ha hnew hold hr hwoken
      (hsteady.phase.trans hconnecting) hsteady.stopping

/-- From its first step on, and as long as it is unfinished, the session connects for an attempt,
if at its first step nobody waits for an attempt before it. -/
theorem connects_run (h : s.Sound) (ha : s.attempts[a]? = some attempt)
    (hstage : attempt.stage = .created) (hwoken : s.Woken) (events : List Event)
    (hr : (s.run config (.attemptRuns a :: events)).attemptResult? a = none) :
    (s.run config (.attemptRuns a :: events)).Connects a := by
  induction events using List.reverseRecOn with
  | nil => exact connects_step config h ha hwoken (.inl ⟨rfl, hstage⟩) hr
  | append_singleton events event ih =>
    rw [← List.cons_append, run_append_singleton] at hr ⊢
    obtain ⟨hphase, hwoken, attempt, ha⟩ := ih (unfinished_of_step config hr)
    exact connects_step config (h.run config _) ha hwoken (.inr hphase) hr

/-! ## Schedules -/

/-- Whether in a schedule no attempt takes its first step while a disconnect still waits for one
that has ended. Those who wait become ready when their attempt ends, so they stand in line before
the first step of an attempt that is made after that. -/
def Orderly (events : List Event) : Prop :=
  ∀ (before later : List Event) (a : AttemptId) (attempt : Attempt),
    events = before ++ .attemptRuns a :: later →
    (run config {} before).attempts[a]? = some attempt → attempt.stage = .created →
    ∀ (c : CallId) (call : Call) (b : AttemptId), (run config {} before).calls[c]? = some call →
      call.stopping? = some b →
      ∃ other, (run config {} before).attempts[b]? = some other ∧ other.result? = none

theorem woken_of_orderly {events later : List Event}
    (h : Orderly config (events ++ .attemptRuns a :: later))
    (ha : (run config {} events).attempts[a]? = some attempt) (hstage : attempt.stage = .created) :
    (run config {} events).Woken := by
  intro c call b hc hb
  have hsound : (run config {} events).Sound := Sound.init.run config events
  obtain ⟨other, hother, hunfinished⟩ := h events later a attempt rfl ha hstage c call b hc hb
  exact (hsound.link.unfinished b other hother hunfinished).1

/-- In an orderly schedule the session connects for an attempt from its first step on, as long as it
is unfinished. -/
theorem connects_of_orderly {events later : List Event}
    (h : Orderly config (events ++ .attemptRuns a :: later))
    (ha : (run config {} events).attempts[a]? = some attempt) (hstage : attempt.stage = .created)
    (hr : (run config {} (events ++ .attemptRuns a :: later)).attemptResult? a = none) :
    (run config {} (events ++ .attemptRuns a :: later)).Connects a := by
  rw [run_append] at hr ⊢
  exact connects_run config (Sound.init.run config events) ha hstage
    (woken_of_orderly config h ha hstage) later hr

end State

end EditorLink.Session
