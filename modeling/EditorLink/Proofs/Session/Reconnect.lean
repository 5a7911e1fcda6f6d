import EditorLink.Proofs.Session.Sockets

/-!
# A way to a new connection

Whatever callers wait for, the attempts can go on by themselves: from every state some steps of
attempts lead to a connection, or to a state in which no attempt is left to join. So a caller that
needs a connection can get one at any moment, without a step of the calls that are there already,
wherever the session makes handshakes at all.
-/

namespace EditorLink.Session

/-- Whether an event is a step of an attempt, or what it waits for. -/
def Event.isOfAttempt : Event → Bool
  | .attemptRuns _ => true
  | .attemptNoticed _ => true
  | .handshakeEnds _ _ => true
  | .handshakeExpires _ => true
  | .restElapses _ => true
  | _ => false

/-- Whether an attempt makes a handshake, and has time for it. -/
def Config.shakes (config : Config) : Prop :=
  1 ≤ config.rounds ∧ config.connectTimeout.isPositive

namespace State

variable (config : Config) {s t : State} {a : AttemptId} {c : CallId} {call : Call}
  {kind : CallKind} {attempt : Attempt} {event : Event} {P Q : State → Prop}

theorem isOf_of_isOfAttempt (he : event.isOfAttempt) (c : CallId) : event.isOf c = false := by
  cases event with
  | attemptRuns _ | attemptNoticed _ | handshakeEnds _ _ | handshakeExpires _ | restElapses _ => rfl
  | _ => cases he

theorem calls_of_isOfAttempt (he : event.isOfAttempt) (s : State) :
    (s.step config event).calls = s.calls := by
  unfold step
  split
  · cases event with
    | attemptRuns a => exact (attemptTurn_runAttempt config s a).calls
    | attemptNoticed _ | handshakeEnds _ _ | handshakeExpires _ | restElapses _ => rfl
    | _ => cases he
  · rfl

theorem calls_run_of_isOfAttempt {events : List Event}
    (hevents : ∀ event ∈ events, event.isOfAttempt) (c : CallId) :
    (s.run config events).calls[c]? = s.calls[c]? := by
  induction events generalizing s with
  | nil => rfl
  | cons event events ih =>
    obtain ⟨he, hrest⟩ := List.forall_mem_cons.mp hevents
    exact (ih hrest).trans (congrArg (·[c]?) (calls_of_isOfAttempt config he s))

/-- Some steps of attempts lead to a state with a property. -/
def AttemptsLead (s : State) (P : State → Prop) : Prop :=
  ∃ events, (∀ event ∈ events, event.isOfAttempt) ∧ P (s.run config events)

namespace AttemptsLead

variable {config}

theorem here (h : P s) : AttemptsLead config s P := ⟨[], by simp, h⟩

theorem step (event : Event) (he : event.isOfAttempt)
    (h : AttemptsLead config (s.step config event) P) : AttemptsLead config s P := by
  obtain ⟨events, hevents, hlast⟩ := h
  exact ⟨event :: events, List.forall_mem_cons.mpr ⟨he, hevents⟩, hlast⟩

theorem mono (h : AttemptsLead config s P) (himp : ∀ t, P t → Q t) : AttemptsLead config s Q := by
  obtain ⟨events, hevents, hlast⟩ := h
  exact ⟨events, hevents, himp _ hlast⟩

theorem trans (hs : s.Sound) (h : AttemptsLead config s P)
    (hnext : ∀ t : State, t.Sound → P t → AttemptsLead config t Q) : AttemptsLead config s Q := by
  obtain ⟨events, hevents, hmid⟩ := h
  obtain ⟨later, hlater, hlast⟩ := hnext _ (hs.run config events) hmid
  refine ⟨events ++ later, fun event he => ?_, run_append config s events later ▸ hlast⟩
  rcases List.mem_append.mp he with he | he
  · exact hevents event he
  · exact hlater event he

end AttemptsLead

/-! ## Attempts that go on -/

/-- The attempt that callers join has finished, or there is a connection. -/
def Settled (s : State) (a : AttemptId) : Prop :=
  s.socket.isSome ∨ s.current = some a ∧ (s.attemptResult? a).isSome

/-- The current attempt stands at a stage. -/
def At (s : State) (a : AttemptId) (stage : AttemptStage) : Prop :=
  s.current = some a ∧ ∃ asked, s.attempts[a]? = some ⟨stage, asked⟩

theorem settled_finishAttempt (hcur : s.current = some a) (ha : s.attempts[a]? = some attempt)
    (result : AttemptResult) : (s.finishAttempt a result).Settled a := by
  have hresult : (s.finishAttempt a result).attemptResult? a = some result :=
    attemptResult?_setAttempt ha _
  exact .inr ⟨hcur, hresult ▸ rfl⟩

theorem at_setAttempt (hcur : s.current = some a) (ha : s.attempts[a]? = some attempt)
    (stage : AttemptStage) : (s.setAttempt a fun attempt => { attempt with stage }).At a stage :=
  ⟨hcur, attempt.cancelRequested, attempts_setAttempt ha _⟩

/-- A round that begins has its handshake, if the session makes handshakes. -/
theorem beginRound_cases (hshakes : config.shakes) (hcur : s.current = some a)
    (ha : s.attempts[a]? = some attempt) (round : Nat) :
    ((s.beginRound config a round).Settled a ∧ config.rounds < round) ∨
      ∃ deadline, (s.beginRound config a round).At a (.handshaking round deadline none false) := by
  unfold beginRound
  rw [if_pos hshakes.2]
  split
  · next hlast => exact .inl ⟨settled_finishAttempt hcur ha _, hlast⟩
  · exact .inr ⟨_, at_setAttempt hcur ha _⟩

theorem afterFailure_cases (hcur : s.current = some a) (ha : s.attempts[a]? = some attempt)
    (round : Nat) (failure : HandshakeFailure) : (s.afterFailure config a round failure).Settled a ∨
      ∃ wakeAt elapsed, (s.afterFailure config a round failure).At a
        (.resting round failure wakeAt elapsed) := by
  unfold afterFailure
  split
  · exact .inr ⟨_, _, at_setAttempt hcur ha _⟩
  · exact .inl (settled_finishAttempt hcur ha _)

theorem step_attemptRuns (h : s.attemptCanRun a = true) :
    s.step config (.attemptRuns a) = s.runAttempt config a :=
  if_pos h

variable {config}

/-- A handshake in progress can open. -/
theorem leads_of_shaking {round : Nat} {deadline : Double} {expired : Bool}
    (h : s.At a (.handshaking round deadline none expired)) :
    AttemptsLead config s fun t => t.socket.isSome ∧ t.attemptResult? a = some .connected := by
  obtain ⟨-, asked, ha⟩ := h
  have hopened : (s.step config (.handshakeEnds a .opened)).attempts[a]? =
      some ⟨.handshaking round deadline (some .opened) expired, asked⟩ := by
    have hadmits : s.admits (.handshakeEnds a .opened) = true := by rw [admits, handshakeRuns, ha]
    rw [State.step, if_pos hadmits]
    exact attempts_setAttempt ha _
  refine .step (.handshakeEnds a .opened) rfl (.step (.attemptRuns a) rfl ?_)
  obtain ⟨hsocket, hsockets⟩ := installs_opened config hopened rfl
  refine .here ⟨hsocket ▸ rfl, (connected_of_opened config ?_).2⟩
  rw [hsockets, List.length_append]
  exact Nat.lt_succ_self _

theorem settles_of_shaking {round : Nat} {deadline : Double} {expired : Bool}
    (h : s.At a (.handshaking round deadline none expired)) :
    AttemptsLead config s (·.Settled a) :=
  (leads_of_shaking h).mono fun _ ht => .inl ht.1

theorem settles_of_round (hshakes : config.shakes) (hcur : s.current = some a)
    (ha : s.attempts[a]? = some attempt) (round : Nat) :
    AttemptsLead config (s.beginRound config a round) (·.Settled a) := by
  rcases beginRound_cases config hshakes hcur ha round with ⟨hsettled, -⟩ | ⟨deadline, hat⟩
  · exact .here hsettled
  · exact settles_of_shaking hat

theorem settles_of_elapsed (hshakes : config.shakes) {round : Nat} {last : HandshakeFailure}
    {wakeAt : Double} (h : s.At a (.resting round last wakeAt true)) :
    AttemptsLead config s (·.Settled a) := by
  obtain ⟨hcur, asked, ha⟩ := h
  refine .step (.attemptRuns a) rfl ?_
  rw [step_attemptRuns config (by rw [attemptCanRun, ha]; rfl), runAttempt, ha]
  cases asked with
  | true => exact .here (settled_finishAttempt hcur ha _)
  | false => exact settles_of_round hshakes hcur ha _

theorem settles_of_resting (hshakes : config.shakes) {round : Nat} {last : HandshakeFailure}
    {wakeAt : Double} {elapsed : Bool} (h : s.At a (.resting round last wakeAt elapsed)) :
    AttemptsLead config s (·.Settled a) := by
  cases elapsed with
  | true => exact settles_of_elapsed hshakes h
  | false =>
    obtain ⟨hcur, asked, ha⟩ := h
    have helapsed : (s.step config (.restElapses a)).At a (.resting round last wakeAt true) := by
      have hadmits : s.admits (.restElapses a) = true := by rw [admits, ha]
      rw [State.step, if_pos hadmits]
      exact ⟨hcur, asked, attempts_setAttempt ha _⟩
    exact .step (.restElapses a) rfl (settles_of_elapsed hshakes helapsed)

theorem settles_of_failure (hshakes : config.shakes) (hcur : s.current = some a)
    (ha : s.attempts[a]? = some attempt) (round : Nat) (failure : HandshakeFailure) :
    AttemptsLead config (s.afterFailure config a round failure) (·.Settled a) := by
  rcases afterFailure_cases config hcur ha round failure with hsettled | ⟨wakeAt, elapsed, hat⟩
  · exact .here hsettled
  · exact settles_of_resting hshakes hat

theorem settles_of_answered (hshakes : config.shakes) {round : Nat} {deadline : Double}
    {outcome : HandshakeOutcome} {expired : Bool}
    (h : s.At a (.handshaking round deadline (some outcome) expired)) :
    AttemptsLead config s (·.Settled a) := by
  obtain ⟨hcur, asked, ha⟩ := h
  have hcleared : (s.setAttempt a fun attempt =>
      { attempt with cancelRequested := false }).attempts[a]? =
        some ⟨.handshaking round deadline (some outcome) expired, false⟩ :=
    attempts_setAttempt ha _
  have hcur' : (s.setAttempt a fun attempt =>
      { attempt with cancelRequested := false }).current = some a := hcur
  refine .step (.attemptRuns a) rfl ?_
  rw [step_attemptRuns config (by rw [attemptCanRun, ha]; rfl), runAttempt, ha]
  cases outcome with
  | opened => exact .here (.inl rfl)
  | refused _ | timedOut => exact settles_of_failure hshakes hcur' hcleared _ _
  | unexpected message => exact .here (settled_finishAttempt hcur' hcleared _)

/-- The current attempt can go on until it has finished or there is a connection. -/
theorem settles (hshakes : config.shakes) (hcur : s.current = some a)
    (ha : s.attempts[a]? = some attempt) : AttemptsLead config s (·.Settled a) := by
  obtain ⟨stage, asked⟩ := attempt
  have hat : s.At a stage := ⟨hcur, asked, ha⟩
  have hruns : s.attemptCanRun a = true →
      AttemptsLead config (s.runAttempt config a) (·.Settled a) →
      AttemptsLead config s (·.Settled a) := by
    intro hcan hnext
    rw [← step_attemptRuns config hcan] at hnext
    exact .step (.attemptRuns a) rfl hnext
  cases stage with
  | created =>
    refine hruns (by rw [attemptCanRun, ha]) ?_
    rw [runAttempt, ha]
    cases asked with
    | true => exact .here (settled_finishAttempt hcur ha .cancelled)
    | false => exact settles_of_round (s := { s with phase := .connecting }) hshakes hcur ha 1
  | handshaking round deadline outcome expired =>
    cases outcome with
    | none => exact settles_of_shaking hat
    | some outcome => exact settles_of_answered hshakes hat
  | lapsed round =>
    refine hruns (by rw [attemptCanRun, ha]) ?_
    rw [runAttempt, ha]
    cases asked with
    | true => exact .here (settled_finishAttempt hcur ha _)
    | false => exact settles_of_failure hshakes hcur ha _ _
  | resting round last wakeAt elapsed => exact settles_of_resting hshakes hat
  | finished result =>
    refine .here (.inr ⟨hcur, ?_⟩)
    rw [attemptResult?_of_getElem? ha]
    rfl

/-- Attempts can go on until there is a connection, or no attempt is left to join. -/
theorem leads_to_free (hshakes : config.shakes) (h : s.Sound) :
    AttemptsLead config s fun t => t.socket.isSome ∨ t.current = none := by
  cases hcur : s.current with
  | none => exact .here (.inr hcur)
  | some a =>
    have ha := List.getElem?_eq_getElem (h.link.current_lt a hcur)
    refine (settles hshakes hcur ha).trans h fun t _ hsettled => ?_
    rcases hsettled with hconnected | ⟨hcur, hr⟩
    · exact .here (.inl hconnected)
    · refine .step (.attemptNoticed a) rfl (.here (.inr ?_))
      have hadmits : t.admits (.attemptNoticed a) = true := by
        rw [admits, hcur, hr, beq_self_eq_true]
        rfl
      rw [State.step, hadmits, if_pos rfl, act]

/-! ## Callers -/

theorem isConnected_of_socket (h : s.link.Sound) (hs : s.socket.isSome) : s.isConnected := by
  have hp : s.phase = .connected := h.connected_iff.mpr hs
  rw [isConnected, hp, hs]
  rfl

theorem isConnected_of_link_eq (h : t.link = s.link) (hs : s.isConnected) : t.isConnected := by
  have hp : t.phase = s.phase := congrArg Link.phase h
  rwa [isConnected, hp, socket_of_link_eq h]

/-- A caller that needs a connection and finds none, and no attempt to join, starts an attempt. -/
theorem starts_attempt (hs : s.isConnected = false) (hcur : s.current = none)
    (hc : s.calls[c]? = some ⟨kind, .arrived, false⟩) (hkind : kind.connects config) :
    (s.step config (.resume c)).current = some s.attempts.length ∧
      (s.step config (.resume c)).attempts[s.attempts.length]? = some ⟨.created, false⟩ ∧
      (s.step config (.resume c)).calls[c]? =
        some ⟨kind, .joining s.attempts.length, false⟩ := by
  have hnew : (s.attempts ++ [(⟨.created, false⟩ : Attempt)])[s.attempts.length]? =
      some ⟨.created, false⟩ := List.getElem?_concat_length
  have hstep : s.step config (.resume c) = setStage { s with
      attempts := s.attempts ++ [⟨.created, false⟩], current := some s.attempts.length } c
      (.joining s.attempts.length) := by
    rw [step_resume_arrived config hc, begin_of_connects config hkind, connect, hs,
      if_neg Bool.false_ne_true, joinAttempt, hcur]
    dsimp only
    rw [attemptResult?_of_getElem? (s := { s with
      attempts := s.attempts ++ [⟨.created, false⟩], current := some s.attempts.length }) hnew]
    rfl
  rw [hstep]
  refine ⟨rfl, hnew, ?_⟩
  rw [calls_setStage_self]
  exact congrArg (Option.map _) hc

/-- A caller that begins while there is a connection has it. -/
theorem served_of_socket (h : s.Sound) (hs : s.socket.isSome)
    (hc : s.calls[c]? = some ⟨kind, .arrived, false⟩) (hkind : kind.connects config) :
    (s.step config (.resume c)).isConnected ∧
      (s.step config (.resume c)).Told c kind .connected := by
  have hconnected := isConnected_of_socket h.link hs
  have hstep : s.step config (.resume c) = s.afterConnect config c kind := by
    rw [step_resume_arrived config hc, begin_of_connects config hkind]
    exact if_pos hconnected
  rw [hstep]
  exact ⟨isConnected_of_link_eq (link_afterConnect config s c kind) hconnected,
    told_afterConnect config h.table hc hkind⟩

/-- A caller that waits for an attempt has the connection that the attempt made. -/
theorem served_of_joining (h : s.Sound) (hs : s.socket.isSome)
    (hr : s.attemptResult? a = some .connected)
    (hc : s.calls[c]? = some ⟨kind, .joining a, false⟩) (hkind : kind.connects config) :
    (s.step config (.resume c)).isConnected ∧
      (s.step config (.resume c)).Told c kind .connected := by
  rw [step_resume_joining config hc hr]
  exact ⟨isConnected_of_link_eq (link_afterAttempt config s c kind .connected)
      (isConnected_of_socket h.link hs),
    told_afterAttempt config h.table hc hkind .connected⟩

/-- A new attempt can make a connection, without another step than its own. -/
theorem leads_of_created (hshakes : config.shakes) (hcur : s.current = some a)
    (ha : s.attempts[a]? = some ⟨.created, false⟩) :
    AttemptsLead config s fun t => t.socket.isSome ∧ t.attemptResult? a = some .connected := by
  refine .step (.attemptRuns a) rfl ?_
  rw [step_attemptRuns config (by rw [attemptCanRun, ha]), runAttempt, ha]
  -- The first round has its handshake, since there is at least one round.
  rcases beginRound_cases (s := { s with phase := .connecting }) config hshakes hcur ha 1 with
    ⟨-, hlast⟩ | ⟨deadline, hat⟩
  · exact absurd (Int.lt_of_le_of_lt hshakes.1 hlast) (Int.lt_irrefl _)
  · exact leads_of_shaking hat

/-- Without a connection and an attempt to join, a caller gets its connection from a new attempt. -/
theorem served_of_free (hshakes : config.shakes) (h : s.Sound) (hs : s.socket = none)
    (hcur : s.current = none) (hc : s.calls[c]? = some ⟨kind, .arrived, false⟩)
    (hkind : kind.connects config) :
    ∃ more, (∀ event ∈ more, event.isOfAttempt ∨ event = .resume c) ∧
      (s.run config more).isConnected ∧ (s.run config more).Told c kind .connected := by
  obtain ⟨hnew, hcreated, hjoins⟩ :=
    starts_attempt (isConnected_of_socket_eq_none hs) hcur hc hkind
  obtain ⟨events, hevents, hsocket, hr⟩ := leads_of_created hshakes hnew hcreated
  have hmid := (h.step config (.resume c)).run config events
  have hcall := (calls_run_of_isOfAttempt config hevents c).trans hjoins
  have hserved := served_of_joining hmid hsocket hr hcall hkind
  rw [← run_append_singleton] at hserved
  refine ⟨Event.resume c :: (events ++ [Event.resume c]), ?_, hserved⟩
  exact List.forall_mem_cons.mpr ⟨.inr rfl, List.forall_mem_append.mpr
    ⟨fun event he => .inl (hevents event he), List.forall_mem_singleton.mpr (.inr rfl)⟩⟩

/-- A caller that begins can have a connection, by its own steps and those of attempts. -/
theorem served (hshakes : config.shakes) (h : s.Sound)
    (hc : s.calls[c]? = some ⟨kind, .arrived, false⟩) (hkind : kind.connects config) :
    ∃ more, (∀ event ∈ more, event.isOfAttempt ∨ event = .resume c) ∧
      (s.run config more).isConnected ∧ (s.run config more).Told c kind .connected := by
  obtain ⟨events, hevents, hfree⟩ := leads_to_free hshakes h
  have hmid := h.run config events
  have hcall := (calls_run_of_isOfAttempt config hevents c).trans hc
  have hserves : ∃ more, (∀ event ∈ more, event.isOfAttempt ∨ event = .resume c) ∧
      ((s.run config events).run config more).isConnected ∧
        ((s.run config events).run config more).Told c kind .connected := by
    cases hs : (s.run config events).socket with
    | some k =>
      have hserved := served_of_socket hmid (hs ▸ rfl) hcall hkind
      exact ⟨[.resume c], List.forall_mem_singleton.mpr (.inr rfl), hserved⟩
    | none =>
      rw [hs] at hfree
      exact served_of_free hshakes hmid hs (hfree.resolve_left nofun) hcall hkind
  obtain ⟨more, hmore, hserved⟩ := hserves
  rw [← run_append] at hserved
  exact ⟨events ++ more, List.forall_mem_append.mpr
    ⟨fun event he => .inl (hevents event he), hmore⟩, hserved⟩

/-- A new caller that needs a connection can get one, without a step of the calls before it. -/
theorem can_connect (hshakes : config.shakes) (h : s.Sound) (hkind : kind.connects config) :
    ∃ more, (∀ event ∈ more, ∀ c < s.calls.length, event.isOf c = false) ∧
      let t := s.run config (.arrive kind :: more)
      t.isConnected ∧ t.Told s.calls.length kind .connected := by
  -- The new caller comes after all others, so none of its steps is one of theirs.
  have hnew : (s.step config (.arrive kind)).calls[s.calls.length]? =
      some ⟨kind, .arrived, false⟩ := List.getElem?_concat_length
  obtain ⟨more, hmore, hserved⟩ := served hshakes (h.step config (.arrive kind)) hnew hkind
  refine ⟨more, fun event he c hlt => ?_, hserved⟩
  rcases hmore event he with hattempt | rfl
  · exact isOf_of_isOfAttempt hattempt c
  · exact beq_eq_false_iff_ne.mpr (Nat.ne_of_gt hlt)

end State

end EditorLink.Session
