import EditorLink.Proofs.Session.Registration

/-!
# What steps do to attempts and sockets

A step changes one attempt at most, or adds a new one that has not started. A finished attempt stays
as it is. Only a disconnect asks an attempt to stop, and only an attempt that was asked to stop ends
as cancelled; an attempt begins a handshake only when it runs itself, and the outcome of a handshake
waits for the attempt to run. Sockets are added and changed, and never forgotten.
-/

namespace EditorLink.Session

/-- The place of a stage in the course of an attempt, apart from what the attempt has yet to hear. -/
def AttemptStage.place : AttemptStage → AttemptStage
  | .handshaking round deadline _ _ => .handshaking round deadline none false
  | .resting round last wakeAt _ => .resting round last wakeAt false
  | stage => stage

namespace Attempt

/-- An attempt has a result where it stands. -/
theorem result?_eq_of_place {x y : Attempt} (h : x.stage.place = y.stage.place) :
    x.result? = y.result? := by
  have hplace : ∀ z : Attempt, z.result? = Attempt.result? ⟨z.stage.place, false⟩ := by
    rintro ⟨stage, asked⟩
    cases stage <;> rfl
  rw [hplace x, hplace y, h]

/-- Whether the attempt's handshake is in progress. -/
def shakes (attempt : Attempt) : Bool :=
  match attempt.stage with
  | .handshaking _ _ none _ => true
  | _ => false

/-- What a step may do to an attempt, by whether the attempt ran and whether a disconnect stops
attempts in this step. -/
structure Moves (old new : Attempt) (ran stopped : Bool) : Prop where
  kept : old.result?.isSome → new = old
  asked : new.cancelRequested → old.cancelRequested ∨ stopped
  cancelled : new.result? = some .cancelled → old.result? = some .cancelled ∨ old.cancelRequested
  outcome : ran = false → ∀ outcome, old.outcome? = some outcome → new.outcome? = some outcome
  shakes : ran = false → new.shakes → old.shakes
  place : ran = false → new.stage.place = old.stage.place

protected theorem Moves.refl (attempt : Attempt) (ran stopped : Bool) :
    attempt.Moves attempt ran stopped :=
  ⟨fun _ => rfl, .inl, .inl, fun _ _ => id, fun _ => id, fun _ => rfl⟩

/-- An unfinished attempt that runs. -/
theorem Moves.of_run {old new : Attempt} {stopped : Bool} (hr : old.result? = none)
    (hasked : new.cancelRequested → old.cancelRequested)
    (hcancelled : new.result? = some .cancelled → old.cancelRequested) :
    old.Moves new true stopped where
  kept := by
    rw [hr]
    simp
  asked := fun h => .inl (hasked h)
  cancelled := fun h => .inr (hcancelled h)
  outcome := by simp
  shakes := by simp
  place := by simp

/-- An unfinished attempt hears of something that ended outside it. -/
theorem Moves.of_news {old new : Attempt} {ran stopped : Bool} (hold : old.result? = none)
    (hnew : new.result? = none) (hasked : new.cancelRequested = old.cancelRequested)
    (houtcome : old.outcome? = none) (hshakes : new.shakes → old.shakes)
    (hplace : new.stage.place = old.stage.place) : old.Moves new ran stopped where
  kept := by
    rw [hold]
    simp
  asked := fun h => .inl (hasked ▸ h)
  cancelled := by
    rw [hnew]
    simp
  outcome := by
    rw [houtcome]
    simp
  shakes := fun _ => hshakes
  place := fun _ => hplace

theorem eq_handshaking_of_shakes {attempt : Attempt} (h : attempt.shakes) :
    ∃ round deadline expired asked,
      attempt = ⟨.handshaking round deadline none expired, asked⟩ := by
  obtain ⟨stage, asked⟩ := attempt
  cases stage with
  | handshaking round deadline outcome expired =>
    cases outcome with
    | none => exact ⟨round, deadline, expired, asked, rfl⟩
    | some outcome => cases h
  | _ => cases h

theorem result?_of_shakes {attempt : Attempt} (h : attempt.shakes) : attempt.result? = none := by
  obtain ⟨round, deadline, expired, asked, rfl⟩ := eq_handshaking_of_shakes h
  rfl

end Attempt

def Event.runs (event : Event) (a : AttemptId) : Bool :=
  match event with
  | .attemptRuns b => b == a
  | _ => false

theorem Event.runs_eq_false {event : Event} {a : AttemptId} (hne : event ≠ .attemptRuns a) :
    event.runs a = false := by
  cases event with
  | attemptRuns b => exact beq_eq_false_iff_ne.mpr fun hba => hne (hba ▸ rfl)
  | _ => rfl

namespace State

/-- Whether a step is one of a disconnect that stops an attempt: it begins, or its caller passes a
cancellation on to the attempt that it waits for. -/
def stops (s : State) : Event → Bool
  | .resume c =>
    match s.calls[c]? with
    | some ⟨kind, .arrived, _⟩ => kind.isDisconnect
    | _ => false
  | .cancel c =>
    match s.calls[c]? with
    | some ⟨_, .stoppingAttempt _, _⟩ => true
    | _ => false
  | _ => false

/-- A step moves one attempt at most, or adds one. -/
def Advances (s t : State) (event : Event) : Prop :=
  (∃ a f, t.attempts = s.attempts.modify a f ∧ ∀ attempt, s.attempts[a]? = some attempt →
    attempt.Moves (f attempt) (event.runs a) (s.stops event)) ∨
  t.attempts = s.attempts ++ [⟨.created, false⟩]

variable (config : Config) {s t u : State} {a : AttemptId} {c : CallId} {call : Call} {event : Event}

theorem Advances.of_attempts_eq (h : t.attempts = s.attempts) : s.Advances t event := by
  refine .inl ⟨0, id, ?_, fun attempt _ => .refl attempt _ _⟩
  rw [h, List.modify_id]

theorem attempts_setAttempt {attempt : Attempt} (ha : s.attempts[a]? = some attempt)
    (f : Attempt → Attempt) : (s.setAttempt a f).attempts[a]? = some (f attempt) := by
  rw [setAttempt, List.getElem?_modify_eq, ha]
  rfl

theorem attemptResult?_setAttempt {attempt : Attempt} (ha : s.attempts[a]? = some attempt)
    (stage : AttemptStage) :
    (s.setAttempt a fun attempt => { attempt with stage }).attemptResult? a =
      Attempt.result? ⟨stage, attempt.cancelRequested⟩ :=
  attemptResult?_of_getElem? (attempts_setAttempt ha _)

/-! ## Attempts that run -/

theorem cancelled_stage {stage : AttemptStage} {asked : Bool}
    (h : Attempt.result? ⟨stage, asked⟩ = some .cancelled) : stage = .finished .cancelled := by
  cases stage with
  | finished result =>
    cases h
    rfl
  | _ => cases h

theorem Wakes.attempts {attempt : Attempt} (hu : s.Wakes a attempt u) :
    ∃ f : Attempt → Attempt, u.attempts = s.attempts.modify a f ∧
      ∀ attempt, (f attempt).cancelRequested → attempt.cancelRequested := by
  cases hu with
  | goesOn | starts | aborts => exact ⟨id, (List.modify_id a s.attempts).symm, fun _ => id⟩
  | hears => exact ⟨_, rfl, by simp⟩

/-- An unfinished attempt goes on to another stage, and it is cancelled only if it was asked to
stop. -/
theorem advances_of_stage {attempt : Attempt} (ha : s.attempts[a]? = some attempt)
    (hr : attempt.result? = none) (hu : s.Wakes a attempt u) {stage : AttemptStage}
    (ht : t.attempts = u.attempts.modify a fun attempt => { attempt with stage })
    (hcancelled : stage = .finished .cancelled → attempt.cancelRequested) :
    s.Advances t (.attemptRuns a) := by
  obtain ⟨f, hf, hasked⟩ := hu.attempts
  rw [hf] at ht
  refine .inl ⟨a, _, ht.trans (List.modify_modify_eq _ _ a s.attempts), fun old hold => ?_⟩
  obtain rfl := Option.some.inj (ha.symm.trans hold)
  rw [show Event.runs (.attemptRuns a) a = true from beq_self_eq_true a]
  exact .of_run hr (hasked attempt) fun h => hcancelled (cancelled_stage h)

theorem AttemptTurn.advances (ht : s.AttemptTurn a t) : s.Advances t (.attemptRuns a) := by
  cases ht with
  | stays => exact .of_attempts_eq rfl
  | @drops attempt ha hstage hasked =>
    refine .inl ⟨a, _, rfl, fun old hold => ?_⟩
    obtain rfl := Option.some.inj (ha.symm.trans hold)
    rw [show Event.runs (.attemptRuns a) a = true from beq_self_eq_true a]
    exact .of_run (by rw [Attempt.result?, hstage]) id fun _ => hasked
  | proceeds ha hr hu hrunning =>
    refine advances_of_stage ha hr hu rfl fun hstage => ?_
    have hnone := (hrunning true).1
    rw [hstage] at hnone
    cases hnone
  | finishes ha hr hu _ hasked =>
    refine advances_of_stage ha hr hu rfl fun hstage => hasked ?_
    exact AttemptStage.finished.inj hstage
  | connects ha ho =>
    exact advances_of_stage ha (Attempt.result?_of_outcome? ho)
      (.hears (Attempt.stage_ne_of_outcome? ho)) rfl (by simp)

/-! ## Calls -/

theorem attempts_of_link_eq (h : t.link = s.link) : t.attempts = s.attempts :=
  congrArg Link.attempts h

theorem attempts_detach (s : State) (c : CallId) : (s.detach c).attempts = s.attempts := by
  obtain ⟨sockets, -, hlink⟩ := link_detach s c
  exact congrArg Link.attempts hlink

theorem attempts_endReader (s : State) (k : SocketId) (fault : Option FrameError) :
    (s.endReader k fault).attempts = s.attempts := by
  obtain ⟨sockets, -, hlink | hlink⟩ := link_endReader s k fault
  · exact congrArg Link.attempts hlink
  · exact congrArg Link.attempts hlink

theorem Receives.attempts {config : Config} {k : SocketId} {frame : Frame}
    (ht : s.Receives config k frame t) :
    t.attempts = s.attempts := by
  cases ht with
  | ignores => rfl
  | answers => exact attempts_of_link_eq (s.link_answer _ _)
  | breaks error => exact attempts_endReader s k error

/-- Asking an attempt to stop does nothing to one that has finished. -/
theorem advances_stopAttempt (hstops : s.stops event) (ht : t.attempts = (s.stopAttempt a).attempts) :
    s.Advances t event := by
  unfold stopAttempt at ht
  split at ht
  · exact .of_attempts_eq ht
  · next hnone =>
    refine .inl ⟨a, _, ht, fun attempt ha => ?_⟩
    rw [attemptResult?_of_getElem? ha] at hnone
    refine ⟨fun hr => ?_, fun _ => .inr hstops, ?_, fun _ _ => id, fun _ => id, fun _ => rfl⟩
    · rw [hnone] at hr
      cases hr
    · intro hcancelled
      rw [show Attempt.result? { attempt with cancelRequested := true } = attempt.result? from rfl,
        hnone] at hcancelled
      cases hcancelled

theorem advances_joinAttempt (s : State) : s.Advances s.joinAttempt.1 event := by
  unfold joinAttempt
  split
  · exact .of_attempts_eq rfl
  · exact .inr rfl

theorem Turn.advances {config : Config} {detached : Bool} (ht : s.Turn config c detached t) :
    s.Advances t (.resume c) := by
  cases ht with
  | stays | finishes | awaits => exact .of_attempts_eq rfl
  | sends => exact .of_attempts_eq (attempts_of_link_eq (link_sendCommand config s c _ _))
  | ends => exact .of_attempts_eq (attempts_of_link_eq (link_endCommand s c _ _))
  | joins => exact advances_joinAttempt s
  | @stops call a hc hstage hkind =>
    refine advances_stopAttempt ?_ rfl
    obtain ⟨kind, stage, asked⟩ := call
    obtain rfl : stage = .arrived := hstage
    rw [State.stops, hc]
    exact hkind
  | detaches => exact .of_attempts_eq (attempts_detach _ c)
  | closes =>
    obtain ⟨sockets, -, hlink⟩ := link_awaitReader s c _
    exact .of_attempts_eq (congrArg Link.attempts hlink)

theorem Cancels.advances (ht : s.Cancels c t) : s.Advances t (.cancel c) := by
  cases ht with
  | stays | asks | withdraws => exact .of_attempts_eq rfl
  | @passes call a hc hstage =>
    refine advances_stopAttempt ?_ rfl
    obtain ⟨kind, stage, asked⟩ := call
    obtain rfl : stage = .stoppingAttempt a := hstage
    rw [stops, hc]

/-! ## Steps -/

theorem handshakeRuns_of_getElem? {attempt : Attempt} (ha : s.attempts[a]? = some attempt) :
    s.handshakeRuns a = attempt.shakes := by
  obtain ⟨stage, asked⟩ := attempt
  rw [handshakeRuns, ha]
  cases stage with
  | handshaking round deadline outcome expired => cases outcome <;> rfl
  | _ => rfl

/-- A change of an attempt whose handshake is in progress, or that rests, from outside. -/
theorem advances_setAttempt (f : Attempt → Attempt) (hf : ∀ attempt, s.attempts[a]? = some attempt →
      attempt.Moves (f attempt) (event.runs a) (s.stops event)) :
    s.Advances (s.setAttempt a f) event :=
  .inl ⟨a, f, rfl, hf⟩

theorem advances_step (s : State) (event : Event) : s.Advances (s.step config event) event := by
  unfold step
  split
  · next hadmits =>
    cases event with
    | resume c => exact (turn_runCall config s c).advances
    | cancel c => exact (cancels_cancelCall s c).advances
    | attemptRuns a => exact (attemptTurn_runAttempt config s a).advances
    | message k frame => exact .of_attempts_eq (receives_receive config s k frame).attempts
    | readerEnds k => exact .of_attempts_eq (attempts_endReader s k none)
    | timerFires id => exact .of_attempts_eq (attempts_of_link_eq (s.link_expire id))
    | handshakeEnds a outcome =>
      refine advances_setAttempt _ fun attempt ha => ?_
      rw [admits, handshakeRuns_of_getElem? ha] at hadmits
      obtain ⟨round, deadline, expired, asked, rfl⟩ := Attempt.eq_handshaking_of_shakes hadmits
      exact .of_news rfl rfl rfl rfl (by simp [Attempt.shakes]) rfl
    | handshakeExpires a =>
      refine advances_setAttempt _ fun attempt ha => ?_
      rw [admits, handshakeRuns_of_getElem? ha] at hadmits
      obtain ⟨round, deadline, expired, asked, rfl⟩ := Attempt.eq_handshaking_of_shakes hadmits
      exact .of_news rfl rfl rfl rfl id rfl
    | restElapses a =>
      refine advances_setAttempt _ fun attempt ha => ?_
      obtain ⟨stage, asked⟩ := attempt
      rw [admits, ha] at hadmits
      cases stage with
      | resting round last wakeAt elapsed =>
        exact .of_news rfl rfl rfl rfl (by simp [Attempt.shakes]) rfl
      | _ => cases hadmits
    | closeEnds c =>
      dsimp only [act]
      split
      · exact .of_attempts_eq rfl
      · exact .of_attempts_eq rfl
    | _ => exact .of_attempts_eq rfl
  · exact .of_attempts_eq rfl

/-- Every attempt goes on in every step as its moves allow. -/
theorem attempt_step {attempt : Attempt} (ha : s.attempts[a]? = some attempt) (event : Event) :
    ∃ new, (s.step config event).attempts[a]? = some new ∧
      attempt.Moves new (event.runs a) (s.stops event) := by
  rcases advances_step config s event with ⟨b, f, ht, hf⟩ | ht
  · by_cases hba : b = a
    · subst hba
      refine ⟨f attempt, ?_, hf attempt ha⟩
      rw [ht, List.getElem?_modify_eq, ha]
      rfl
    · refine ⟨attempt, ?_, .refl attempt _ _⟩
      rw [ht, List.getElem?_modify_ne _ _ hba, ha]
  · obtain ⟨hlt, -⟩ := List.getElem?_eq_some_iff.mp ha
    refine ⟨attempt, ?_, .refl attempt _ _⟩
    rw [ht, List.getElem?_append_left hlt, ha]

/-- An attempt that a step adds has not started. -/
theorem attempt_new {new : Attempt} (hnone : s.attempts[a]? = none)
    (ha : (s.step config event).attempts[a]? = some new) : new = ⟨.created, false⟩ := by
  rcases advances_step config s event with ⟨b, f, ht, -⟩ | ht
  · rw [ht, List.getElem?_modify, hnone] at ha
    cases ha
  · rw [ht, List.getElem?_append_right (List.getElem?_eq_none_iff.mp hnone),
      List.getElem?_singleton] at ha
    split at ha
    · exact (Option.some.inj ha).symm
    · cases ha

theorem attemptResult?_step {result : AttemptResult} (h : s.attemptResult? a = some result)
    (event : Event) : (s.step config event).attemptResult? a = some result := by
  obtain ⟨attempt, ha, hr⟩ := Option.bind_eq_some_iff.mp h
  obtain ⟨new, hnew, hmoves⟩ := attempt_step config ha event
  rw [attemptResult?_of_getElem? hnew, hmoves.kept (by rw [hr]; rfl), hr]

/-! ## Sockets -/

theorem socket_of_link_eq (h : t.link = s.link) : t.socket = s.socket := congrArg Link.socket h

theorem length_sockets_of_link {l : Link} (h : t.link = l) :
    t.sockets.length = l.sockets.length :=
  congrArg (fun l : Link => l.sockets.length) h

theorem socket_detach (s : State) (c : CallId) : (s.detach c).socket = none := by
  obtain ⟨sockets, -, hlink⟩ := link_detach s c
  exact congrArg Link.socket hlink

/-- Whether between two states no socket is opened, and the current one stays or is taken away. -/
structure OpensNone (s t : State) : Prop where
  length : t.sockets.length = s.sockets.length
  socket : t.socket = s.socket ∨ t.socket = none

namespace OpensNone

theorem of_link_eq (h : t.link = s.link) : s.OpensNone t :=
  ⟨length_sockets_of_link h, .inl (socket_of_link_eq h)⟩

protected theorem refl (s : State) : s.OpensNone s := of_link_eq rfl

theorem trans (h : s.OpensNone t) (h' : t.OpensNone u) : s.OpensNone u := by
  refine ⟨h'.length.trans h.length, ?_⟩
  rcases h'.socket with hsame | hnone
  · rw [hsame]
    exact h.socket
  · exact .inr hnone

theorem setSocket (s : State) (k : SocketId) (f : Socket → Socket) :
    s.OpensNone (s.setSocket k f) :=
  ⟨List.length_modify f s.sockets k, .inl rfl⟩

theorem stopAttempt (s : State) (a : AttemptId) : s.OpensNone (s.stopAttempt a) := by
  unfold State.stopAttempt
  split <;> exact ⟨rfl, .inl rfl⟩

theorem joinAttempt (s : State) : s.OpensNone s.joinAttempt.1 := by
  unfold State.joinAttempt
  split <;> exact ⟨rfl, .inl rfl⟩

theorem awaitReader (s : State) (c : CallId) (reader : Option SocketId) :
    s.OpensNone (s.awaitReader c reader) := by
  obtain ⟨sockets, hlength, hlink⟩ := link_awaitReader s c reader
  exact ⟨(length_sockets_of_link hlink).trans hlength, .inl (congrArg Link.socket hlink)⟩

theorem detach (s : State) (c : CallId) : s.OpensNone (s.detach c) := by
  obtain ⟨sockets, hlength, hlink⟩ := link_detach s c
  exact ⟨(length_sockets_of_link hlink).trans hlength, .inr (congrArg Link.socket hlink)⟩

theorem endReader (s : State) (k : SocketId) (fault : Option FrameError) :
    s.OpensNone (s.endReader k fault) := by
  obtain ⟨sockets, hlength, hlink | hlink⟩ := link_endReader s k fault
  · exact ⟨(length_sockets_of_link hlink).trans hlength, .inl (congrArg Link.socket hlink)⟩
  · exact ⟨(length_sockets_of_link hlink).trans hlength, .inr (congrArg Link.socket hlink)⟩

theorem turn {config : Config} {detached : Bool} (ht : s.Turn config c detached t) :
    s.OpensNone t := by
  cases ht with
  | stays | finishes | awaits => exact of_link_eq rfl
  | sends => exact of_link_eq (link_sendCommand config s c _ _)
  | ends => exact of_link_eq (link_endCommand s c _ _)
  | joins => exact (joinAttempt s).trans (of_link_eq rfl)
  | stops a => exact (stopAttempt s a).trans (of_link_eq rfl)
  | detaches current =>
    have hforgotten : s.OpensNone ({ s with current }.setCall c fun call =>
      { call with cancelRequested := false }) := ⟨rfl, .inl rfl⟩
    exact hforgotten.trans (detach _ c)
  | closes => exact awaitReader s c _

theorem cancels (ht : s.Cancels c t) : s.OpensNone t := by
  cases ht with
  | stays | asks | withdraws => exact of_link_eq rfl
  | passes => exact stopAttempt s _

theorem receives {config : Config} {k : SocketId} {frame : Frame}
    (ht : s.Receives config k frame t) : s.OpensNone t := by
  cases ht with
  | ignores => exact .refl s
  | answers => exact of_link_eq (s.link_answer _ _)
  | breaks error => exact endReader s k error

theorem wakes {attempt : Attempt} (hu : s.Wakes a attempt u) : s.OpensNone u := by
  cases hu <;> exact ⟨rfl, .inl rfl⟩

end OpensNone

/-- An attempt that runs opens no socket, unless its handshake has opened. Then the new socket
becomes the current one. -/
theorem AttemptTurn.sockets (ht : s.AttemptTurn a t) : s.OpensNone t ∨
    ∃ attempt, s.attempts[a]? = some attempt ∧ attempt.outcome? = some .opened ∧
      t.socket = some s.sockets.length ∧
      t.sockets = s.sockets ++ [⟨.opened, false, .reading, false⟩] := by
  cases ht with
  | stays | drops => exact .inl ⟨rfl, .inl rfl⟩
  | proceeds _ _ hu => exact .inl ((OpensNone.wakes hu).trans ⟨rfl, .inl rfl⟩)
  | finishes _ _ hu => exact .inl ((OpensNone.wakes hu).trans ⟨rfl, .inl rfl⟩)
  | connects ha ho => exact .inr ⟨_, ha, ho, rfl, rfl⟩

/-- Only an attempt that runs opens a socket, one at a time, and makes it the current one. -/
theorem sockets_step_cases (s : State) (event : Event) : s.OpensNone (s.step config event) ∨
    ∃ a, event = .attemptRuns a ∧ (s.step config event).socket = some s.sockets.length ∧
      (s.step config event).sockets.length = s.sockets.length + 1 := by
  unfold step
  split
  · cases event with
    | attemptRuns a =>
      rcases (attemptTurn_runAttempt config s a).sockets with hnone |
        ⟨attempt, -, -, hsocket, hsockets⟩
      · exact .inl hnone
      · exact .inr ⟨a, rfl, hsocket, (congrArg List.length hsockets).trans List.length_append⟩
    | resume c => exact .inl (.turn (turn_runCall config s c))
    | cancel c => exact .inl (.cancels (cancels_cancelCall s c))
    | message k frame => exact .inl (.receives (receives_receive config s k frame))
    | readerEnds k => exact .inl (.endReader s k none)
    | socketTurns k _ | socketRefuses k => exact .inl (.setSocket s k _)
    | timerFires id => exact .inl (.of_link_eq (link_expire s id))
    | closeEnds c =>
      dsimp only [act]
      split
      · exact .inl ⟨List.length_modify _ _ _, .inl rfl⟩
      · exact .inl ⟨rfl, .inl rfl⟩
    | _ => exact .inl ⟨rfl, .inl rfl⟩
  · exact .inl (.refl s)

/-- No step forgets a socket. -/
theorem sockets_step (s : State) (event : Event) :
    s.sockets.length ≤ (s.step config event).sockets.length := by
  rcases sockets_step_cases config s event with hnone | ⟨a, -, -, hone⟩
  · exact Nat.le_of_eq hnone.length.symm
  · rw [hone]
    exact Nat.le_succ _

theorem sockets_run (s : State) (events : List Event) :
    s.sockets.length ≤ (s.run config events).sockets.length := by
  induction events generalizing s with
  | nil => exact Nat.le_refl _
  | cons event events ih => exact Nat.le_trans (sockets_step config s event) (ih _)

end State

end EditorLink.Session
