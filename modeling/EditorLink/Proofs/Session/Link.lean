import EditorLink.Proofs.Session.Turns

/-!
# The link of a session stays sound

`Link.Sound` ties the phase, the socket, the attempts and all sockets together. An attempt starts
only when no other one is unfinished and no socket is there, so at most one attempt is unfinished,
and only it installs a socket. A socket leaves the session by the end of its reader or by a
disconnect, which calls for its close. Each function of the session keeps the link sound, and so
does every run.
-/

namespace EditorLink.Session

namespace Link

structure Sound (l : Link) : Prop where
  connected_iff : l.phase = .connected ↔ l.socket.isSome
  reader_eq : l.reader = l.socket
  current_lt : ∀ a, l.current = some a → a < l.attempts.length
  unfinished : ∀ (a : AttemptId) (attempt : Attempt), l.attempts[a]? = some attempt →
    attempt.result? = none → l.current = some a ∧ l.socket = none
  /-- As long as the end of an attempt that did not connect is unnoticed, no other one begins. -/
  failed : ∀ (a : AttemptId) (attempt : Attempt) (result : AttemptResult), l.current = some a →
    l.attempts[a]? = some attempt → attempt.result? = some result → result ≠ .connected →
    l.socket = none
  connecting : l.phase = .connecting →
    ∃ (a : AttemptId) (attempt : Attempt), l.attempts[a]? = some attempt ∧ attempt.Running
  accounted : ∀ (k : SocketId) (socket : Socket), l.sockets[k]? = some socket →
    l.socket = some k ∨ socket.closeCalled ∨ socket.reader.hasEnded

/-- An attempt is unfinished in a sound link. The phase may tell that it runs before it does. -/
structure Busy (l : Link) (a : AttemptId) : Prop where
  sound : ∃ phase, Sound { l with phase } ∧ (l.phase = phase ∨ l.phase = .connecting)
  unfinished : ∃ attempt, l.attempts[a]? = some attempt ∧ attempt.result? = none

variable {l : Link} {a : AttemptId} {k : SocketId}

theorem getElem?_modify_attempts (l : Link) (a b : AttemptId) (f : Attempt → Attempt) :
    (l.attempts.modify a f)[b]? = if a = b then l.attempts[b]?.map f else l.attempts[b]? := by
  rw [List.getElem?_modify]
  split <;> simp

theorem getElem?_modify_sockets (l : Link) (k j : SocketId) (f : Socket → Socket) :
    (l.sockets.modify k f)[j]? = if k = j then l.sockets[j]?.map f else l.sockets[j]? := by
  rw [List.getElem?_modify]
  split <;> simp

namespace Sound

/-- A change of a socket that keeps it accounted for. -/
theorem setSocket (h : l.Sound) (f : Socket → Socket)
    (hf : ∀ socket, l.sockets[k]? = some socket → socket.closeCalled ∨ socket.reader.hasEnded →
      (f socket).closeCalled ∨ (f socket).reader.hasEnded) :
    Sound { l with sockets := l.sockets.modify k f } where
  connected_iff := h.connected_iff
  reader_eq := h.reader_eq
  current_lt := h.current_lt
  unfinished := h.unfinished
  failed := h.failed
  connecting := h.connecting
  accounted := by
    intro j socket hj
    rw [getElem?_modify_sockets] at hj
    split at hj
    · next hkj =>
      subst hkj
      obtain ⟨old, hold, rfl⟩ := Option.map_eq_some_iff.mp hj
      exact (h.accounted k old hold).imp_right (hf old hold)
    · exact h.accounted j socket hj

/-- The end of the current connection, when every socket has its close called or its reader
ended. -/
theorem drop (h : l.Sound) {sockets : List Socket}
    (hsockets : ∀ (j : SocketId) (socket : Socket), sockets[j]? = some socket →
      socket.closeCalled ∨ socket.reader.hasEnded) :
    Sound { l with socket := none, reader := none, phase := .disconnected, sockets } where
  connected_iff := by simp
  reader_eq := rfl
  current_lt := h.current_lt
  unfinished := fun a attempt ha hr => ⟨(h.unfinished a attempt ha hr).1, rfl⟩
  failed := fun _ _ _ _ _ _ _ => rfl
  connecting := fun hp => by cases hp
  accounted := fun j socket hj => .inr (hsockets j socket hj)

theorem drop_none (h : l.Sound) (hs : l.socket = none) :
    Sound { l with socket := none, reader := none, phase := .disconnected } := by
  refine h.drop fun j socket hj => (h.accounted j socket hj).resolve_left ?_
  rw [hs]
  exact Option.some_ne_none j ∘ Eq.symm

/-- The end of the current connection as its socket is closed or its reader ends. -/
theorem drop_current (h : l.Sound) (hs : l.socket = some k) (f : Socket → Socket)
    (hf : ∀ socket, (f socket).closeCalled ∨ (f socket).reader.hasEnded) :
    Sound { l with
      socket := none, reader := none, phase := .disconnected, sockets := l.sockets.modify k f } := by
  refine h.drop fun j socket hj => ?_
  rw [getElem?_modify_sockets] at hj
  split at hj
  · obtain ⟨old, -, rfl⟩ := Option.map_eq_some_iff.mp hj
    exact hf old
  · next hkj =>
    exact (h.accounted j socket hj).resolve_left fun hsj =>
      hkj (Option.some.inj (hs.symm.trans hsj))

/-- A change of an attempt that neither ends it nor takes it back to its start. -/
theorem setAttempt (h : l.Sound) (f : Attempt → Attempt)
    (hr : ∀ attempt, (f attempt).result? = attempt.result?)
    (hc : ∀ attempt, (f attempt).stage = .created → attempt.stage = .created) :
    Sound { l with attempts := l.attempts.modify a f } where
  connected_iff := h.connected_iff
  reader_eq := h.reader_eq
  current_lt := fun b hb => (List.length_modify f l.attempts a).symm ▸ h.current_lt b hb
  unfinished := by
    intro b attempt hb hrb
    rw [getElem?_modify_attempts] at hb
    split at hb
    · obtain ⟨old, hold, rfl⟩ := Option.map_eq_some_iff.mp hb
      exact h.unfinished b old hold ((hr old).symm.trans hrb)
    · exact h.unfinished b attempt hb hrb
  failed := by
    intro b attempt result hcur hb hrb hne
    rw [getElem?_modify_attempts] at hb
    split at hb
    · obtain ⟨old, hold, rfl⟩ := Option.map_eq_some_iff.mp hb
      exact h.failed b old result hcur hold ((hr old).symm.trans hrb) hne
    · exact h.failed b attempt result hcur hb hrb hne
  connecting := by
    intro hp
    obtain ⟨b, attempt, hb, hrun⟩ := h.connecting hp
    by_cases hab : a = b
    · refine ⟨b, f attempt, ?_, (hr attempt).trans hrun.1, fun hcr => hrun.2 (hc attempt hcr)⟩
      rw [getElem?_modify_attempts, if_pos hab, hb]
      rfl
    · refine ⟨b, attempt, ?_, hrun⟩
      rw [getElem?_modify_attempts, if_neg hab, hb]
  accounted := h.accounted

/-- A new attempt begins when none is there to join. -/
theorem join (h : l.Sound) (hcur : l.current = none) (hs : l.socket = none) :
    Sound { l with
      attempts := l.attempts ++ [⟨.created, false⟩], current := some l.attempts.length } where
  connected_iff := h.connected_iff
  reader_eq := h.reader_eq
  current_lt := by
    intro b hb
    obtain rfl := Option.some.inj hb
    rw [List.length_append]
    exact Nat.lt_succ_self _
  unfinished := by
    intro b attempt hb hrb
    rcases Nat.lt_or_ge b l.attempts.length with hlt | hge
    · rw [List.getElem?_append_left hlt] at hb
      have := (h.unfinished b attempt hb hrb).1
      rw [hcur] at this
      cases this
    · obtain ⟨hlt, -⟩ := List.getElem?_eq_some_iff.mp hb
      have hb' : l.attempts.length = b := by
        rw [List.length_append, List.length_singleton] at hlt
        omega
      exact ⟨congrArg some hb', hs⟩
  failed := fun _ _ _ _ _ _ _ => hs
  connecting := by
    intro hp
    obtain ⟨b, attempt, hb, hrun⟩ := h.connecting hp
    obtain ⟨hlt, -⟩ := List.getElem?_eq_some_iff.mp hb
    exact ⟨b, attempt, by rw [List.getElem?_append_left hlt]; exact hb, hrun⟩
  accounted := h.accounted

/-- The current attempt is forgotten once it has ended. -/
theorem forget (h : l.Sound) {attempt : Attempt} {result : AttemptResult}
    (hcur : l.current = some a) (ha : l.attempts[a]? = some attempt)
    (hr : attempt.result? = some result) : Sound { l with current := none } where
  connected_iff := h.connected_iff
  reader_eq := h.reader_eq
  current_lt := fun _ hc => by cases hc
  unfinished := by
    intro b other hb hrb
    obtain ⟨hcur', hs⟩ := h.unfinished b other hb hrb
    obtain rfl : a = b := Option.some.inj (hcur.symm.trans hcur')
    rw [ha] at hb
    cases hb
    rw [hr] at hrb
    cases hrb
  failed := fun _ _ _ hc _ _ _ => by cases hc
  connecting := h.connecting
  accounted := h.accounted

theorem busy (h : l.Sound) {attempt : Attempt} (ha : l.attempts[a]? = some attempt)
    (hr : attempt.result? = none) : l.Busy a :=
  ⟨⟨l.phase, h, .inl rfl⟩, attempt, ha, hr⟩

/-- An attempt that is about to run. -/
theorem busy_connecting (h : l.Sound) {attempt : Attempt} (ha : l.attempts[a]? = some attempt)
    (hr : attempt.result? = none) : Busy { l with phase := .connecting } a :=
  ⟨⟨l.phase, h, .inr rfl⟩, attempt, ha, hr⟩

end Sound

namespace Busy

theorem setAttempt (h : l.Busy a) (f : Attempt → Attempt)
    (hr : ∀ attempt, (f attempt).result? = attempt.result?)
    (hc : ∀ attempt, (f attempt).stage = .created → attempt.stage = .created) :
    Busy { l with attempts := l.attempts.modify a f } a := by
  obtain ⟨⟨phase, hsound, hphase⟩, attempt, ha, hra⟩ := h
  refine ⟨⟨phase, hsound.setAttempt f hr hc, hphase⟩, f attempt, ?_, (hr attempt).trans hra⟩
  rw [getElem?_modify_attempts, if_pos rfl, ha]
  rfl

/-- The unfinished attempt is the only one, and there is no socket. -/
theorem socket_eq (h : l.Busy a) : l.current = some a ∧ l.socket = none := by
  obtain ⟨⟨phase, hsound, -⟩, attempt, ha, hra⟩ := h
  exact hsound.unfinished a attempt ha hra

theorem unique (h : l.Busy a) {b : AttemptId} {attempt : Attempt}
    (hb : l.attempts[b]? = some attempt) (hr : attempt.result? = none) : a = b := by
  obtain ⟨⟨phase, hsound, -⟩, other, ha, hra⟩ := h
  have h1 := (hsound.unfinished a other ha hra).1
  have h2 := (hsound.unfinished b attempt hb hr).1
  exact Option.some.inj (h1.symm.trans h2)

theorem current_lt_modify (h : l.Busy a) (f : Attempt → Attempt) (b : AttemptId)
    (hb : l.current = some b) : b < (l.attempts.modify a f).length := by
  obtain ⟨⟨phase, hsound, -⟩, -⟩ := h
  rw [List.length_modify]
  exact hsound.current_lt b hb

/-- Once the unfinished attempt has ended, none is unfinished. -/
theorem finished_modify (h : l.Busy a) (result : AttemptResult) (b : AttemptId)
    (attempt : Attempt) (hb : (l.attempts.modify a fun attempt =>
      { attempt with stage := .finished result })[b]? = some attempt) :
    attempt.result? ≠ none := by
  intro hr
  rw [getElem?_modify_attempts] at hb
  split at hb
  · obtain ⟨old, -, rfl⟩ := Option.map_eq_some_iff.mp hb
    cases hr
  · next hab => exact hab (h.unique hb hr)

/-- The attempt goes on to another stage in which it runs. -/
theorem proceed (h : l.Busy a) (stage : AttemptStage)
    (hrun : ∀ asked, Attempt.Running ⟨stage, asked⟩) :
    Sound { l with attempts := l.attempts.modify a fun attempt => { attempt with stage } } := by
  obtain ⟨hcur, hs⟩ := h.socket_eq
  have hlt := h.current_lt_modify fun attempt => { attempt with stage }
  obtain ⟨⟨phase, hsound, hphase⟩, attempt, ha, hra⟩ := h
  have hnew : (l.attempts.modify a fun attempt => { attempt with stage })[a]? =
      some { attempt with stage } := by
    rw [getElem?_modify_attempts, if_pos rfl, ha]
    rfl
  constructor
  · rcases hphase with hp | hp
    · simpa [hp] using hsound.connected_iff
    · simp [hp, hs]
  · exact hsound.reader_eq
  · exact hlt
  · intro b other hb hrb
    rw [getElem?_modify_attempts] at hb
    split at hb
    · next hab => exact ⟨hab ▸ hcur, hs⟩
    · exact hsound.unfinished b other hb hrb
  · exact fun _ _ _ _ _ _ _ => hs
  · exact fun _ => ⟨a, _, hnew, hrun _⟩
  · exact hsound.accounted

/-- The attempt ends without a connection. -/
theorem finish (h : l.Busy a) (result : AttemptResult) :
    Sound { l with
      phase := if l.phase = .connecting then .disconnected else l.phase
      attempts := l.attempts.modify a fun attempt => { attempt with stage := .finished result } } := by
  obtain ⟨hcur, hs⟩ := h.socket_eq
  have hlt := h.current_lt_modify fun attempt => { attempt with stage := .finished result }
  have hover := h.finished_modify result
  obtain ⟨⟨phase, hsound, hphase⟩, -⟩ := h
  have hdisconnected : l.phase ≠ .connected := by
    rcases hphase with hp | hp
    · intro hc
      have := hsound.connected_iff.mp (hp.symm.trans hc)
      rw [show ({ l with phase } : Link).socket = none from hs] at this
      cases this
    · rw [hp]
      decide
  constructor
  · simp only [hs, Option.isSome_none, Bool.false_eq_true, iff_false]
    split
    · decide
    · exact hdisconnected
  · exact hsound.reader_eq
  · exact hlt
  · exact fun b other hb hrb => absurd hrb (hover b other hb)
  · exact fun _ _ _ _ _ _ _ => hs
  · intro hp
    dsimp only at hp
    split at hp
    · cases hp
    · next hne => exact absurd hp hne
  · exact hsound.accounted

/-- An attempt that was asked to stop before it started ends at once. -/
theorem finish_created (h : l.Sound) {attempt : Attempt} (ha : l.attempts[a]? = some attempt)
    (hstage : attempt.stage = .created) (result : AttemptResult) :
    Sound { l with attempts := l.attempts.modify a fun attempt =>
      { attempt with stage := .finished result } } := by
  have hb : l.Busy a := h.busy ha (by rw [Attempt.result?, hstage])
  have hne : l.phase ≠ .connecting := by
    intro hp
    obtain ⟨b, other, hother, hrun⟩ := h.connecting hp
    obtain rfl := hb.unique hother hrun.1
    rw [ha] at hother
    cases hother
    exact hrun.2 hstage
  have hf := hb.finish result
  rwa [if_neg hne] at hf

/-- The attempt ends with a new socket. -/
theorem connect (h : l.Busy a) :
    Sound { l with
      phase := .connected
      socket := some l.sockets.length
      reader := some l.sockets.length
      sockets := l.sockets ++ [⟨.opened, false, .reading, false⟩]
      attempts := l.attempts.modify a fun attempt =>
        { attempt with stage := .finished .connected } } := by
  obtain ⟨hcur, hs⟩ := h.socket_eq
  have hlt := h.current_lt_modify fun attempt => { attempt with stage := .finished .connected }
  have hover := h.finished_modify .connected
  obtain ⟨⟨phase, hsound, -⟩, -⟩ := h
  constructor
  · simp
  · rfl
  · exact hlt
  · exact fun b other hb hrb => absurd hrb (hover b other hb)
  · intro b other result hcur' hb hrb hne
    obtain rfl : a = b := Option.some.inj (hcur.symm.trans hcur')
    rw [getElem?_modify_attempts, if_pos rfl] at hb
    obtain ⟨old, -, rfl⟩ := Option.map_eq_some_iff.mp hb
    cases hrb
    exact absurd rfl hne
  · exact fun hp => by cases hp
  · intro j socket hj
    rcases Nat.lt_or_ge j l.sockets.length with hlt | hge
    · rw [List.getElem?_append_left hlt] at hj
      right
      exact (hsound.accounted j socket hj).resolve_left (by simp [hs])
    · left
      obtain ⟨hlt, -⟩ := List.getElem?_eq_some_iff.mp hj
      rw [List.length_append, List.length_singleton] at hlt
      have hj' : l.sockets.length = j := by omega
      exact congrArg some hj'

end Busy

end Link

namespace State

variable (config : Config) {s t u : State} {a : AttemptId} {c : CallId}

theorem attemptResult?_of_getElem? {attempt : Attempt} (h : s.attempts[a]? = some attempt) :
    s.attemptResult? a = attempt.result? := by
  simp [attemptResult?, h]

/-! ## Attempts -/

theorem Wakes.busy {attempt : Attempt} (hu : s.Wakes a attempt u) (h : s.link.Sound)
    (ha : s.attempts[a]? = some attempt) (hr : attempt.result? = none) : u.link.Busy a := by
  cases hu with
  | goesOn | aborts => exact h.busy ha hr
  | starts => exact h.busy_connecting ha hr
  | hears => exact (h.busy ha hr).setAttempt _ (fun _ => rfl) fun _ hc => hc

theorem AttemptTurn.sound (ht : s.AttemptTurn a t) (h : s.link.Sound) : t.link.Sound := by
  cases ht with
  | stays => exact h
  | drops ha hstage _ => exact Link.Busy.finish_created h ha hstage _
  | proceeds ha hr hu hrunning => exact (hu.busy h ha hr).proceed _ hrunning
  | finishes ha hr hu => exact (hu.busy h ha hr).finish _
  | connects ha ho =>
    have hu := Wakes.hears (s := s) (a := a) (Attempt.stage_ne_of_outcome? ho)
    exact (hu.busy h ha (Attempt.result?_of_outcome? ho)).connect

theorem sound_stopAttempt (h : s.link.Sound) (a : AttemptId) : (s.stopAttempt a).link.Sound := by
  unfold stopAttempt
  split
  · exact h
  · exact h.setAttempt _ (fun _ => rfl) fun _ hc => hc

/-! ## Calls -/

theorem socket_eq_none (h : s.link.Sound) (hs : s.isConnected = false) : s.socket = none := by
  cases hk : s.socket with
  | none => rfl
  | some k =>
    have hp : s.phase = .connected :=
      h.connected_iff.mpr (by rw [show s.link.socket = some k from hk]; rfl)
    simp [isConnected, hp, hk] at hs

theorem sound_joinAttempt (h : s.link.Sound) (hs : s.isConnected = false) :
    s.joinAttempt.1.link.Sound := by
  unfold joinAttempt
  split
  · exact h
  · next hcur => exact h.join hcur (socket_eq_none h hs)

theorem sound_awaitReader (h : s.link.Sound) (c : CallId) (reader : Option SocketId) :
    (s.awaitReader c reader).link.Sound := by
  rcases s.awaitReader_cases c reader with ⟨result, heq⟩ | ⟨k, socket, -, hk, hreading, heq⟩
  · rw [heq]
    exact h
  · rw [heq]
    refine h.setSocket _ fun other hother hgone => ?_
    obtain rfl : socket = other := Option.some.inj (hk.symm.trans hother)
    refine hgone.imp_right fun hended => ?_
    rw [hreading] at hended
    cases hended

theorem sound_detach (h : s.link.Sound) (c : CallId) : (s.detach c).link.Sound := by
  unfold detach
  dsimp only
  split
  · next hs =>
    rw [show s.reader = none from h.reader_eq.trans hs, awaitReader, link_finishCall,
      link_failPending]
    exact h.drop_none hs
  · next k hs =>
    rw [link_setStage, link_record, link_setSocket, link_failPending]
    exact h.drop_current hs _ fun _ => .inl rfl

/-- The end of the current attempt is noticed. -/
theorem sound_forget (h : s.link.Sound) (hcur : s.current = some a)
    (hr : (s.attemptResult? a).isSome) : Link.Sound { s.link with current := none } := by
  obtain ⟨result, hresult⟩ := Option.isSome_iff_exists.mp hr
  obtain ⟨attempt, ha, hr⟩ := Option.bind_eq_some_iff.mp hresult
  exact h.forget hcur ha hr

theorem Turn.sound {config : Config} {detached : Bool} (ht : s.Turn config c detached t)
    (h : s.link.Sound) : t.link.Sound := by
  cases ht with
  | stays | finishes | awaits => exact h
  | sends =>
    rw [link_sendCommand]
    exact h
  | ends =>
    rw [link_endCommand]
    exact h
  | joins _ _ hs => exact sound_joinAttempt h hs
  | stops => exact sound_stopAttempt h _
  | detaches _ _ _ hcurrent =>
    refine sound_detach ?_ c
    rcases hcurrent with rfl | ⟨rfl, a, hcur, hr⟩
    · exact h
    · have hforgotten := sound_forget h hcur hr
      exact hforgotten
  | closes => exact sound_awaitReader h c _

theorem Cancels.sound (ht : s.Cancels c t) (h : s.link.Sound) : t.link.Sound := by
  cases ht with
  | stays | asks | withdraws => exact h
  | passes => exact sound_stopAttempt h _

theorem sound_endReader (h : s.link.Sound) (k : SocketId) (fault : Option FrameError) :
    (s.endReader k fault).link.Sound := by
  unfold endReader
  dsimp only
  split
  · next hs =>
    rw [link_failPending]
    exact h.drop_current hs _ fun _ => .inr rfl
  · exact h.setSocket _ fun _ _ _ => .inr rfl

theorem Receives.sound {config : Config} {k : SocketId} {frame : Frame}
    (ht : s.Receives config k frame t)
    (h : s.link.Sound) : t.link.Sound := by
  cases ht with
  | ignores => exact h
  | answers => rwa [link_answer]
  | breaks error => exact sound_endReader h k error

/-! ## Steps and runs -/

theorem sound_act (h : s.link.Sound) (event : Event) (ha : s.admits event) :
    (s.act config event).link.Sound := by
  cases event with
  | arrive kind => exact h
  | resume c => exact (turn_runCall config s c).sound h
  | cancel c => exact (cancels_cancelCall s c).sound h
  | attemptRuns a => exact (attemptTurn_runAttempt config s a).sound h
  | attemptNoticed a =>
    simp only [admits, Bool.and_eq_true, beq_iff_eq] at ha
    exact sound_forget h ha.1 ha.2
  | handshakeEnds a _ | handshakeExpires a | restElapses a =>
    refine h.setAttempt _ (fun attempt => ?_) fun attempt => ?_
    · split
      · next hstage => rw [Attempt.result?, Attempt.result?, hstage]
      · rfl
    · split
      · simp
      · exact id
  | message k frame => exact (receives_receive config s k frame).sound h
  | readerEnds k => exact sound_endReader h k none
  | socketTurns k _ | socketRefuses k => exact h.setSocket _ fun _ _ hs => hs
  | writeEnds c written => exact h
  | closeEnds c =>
    dsimp only [act]
    split
    · exact h.setSocket _ fun _ _ hs => hs
    · exact h
  | timerFires id =>
    rw [act, link_expire]
    exact h
  | clock now => exact h

theorem sound_step (h : s.link.Sound) (event : Event) : (s.step config event).link.Sound := by
  unfold step
  split
  · next ha => exact sound_act config h event ha
  · exact h

theorem sound_init : ({} : State).link.Sound where
  connected_iff := by decide
  reader_eq := rfl
  current_lt := fun _ h => by cases h
  unfinished := fun _ _ h => by cases h
  failed := fun _ _ _ _ h => by cases h
  connecting := fun h => by cases h
  accounted := fun _ _ h => by cases h

end State

end EditorLink.Session
