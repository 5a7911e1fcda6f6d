import EditorLink.Proofs.Session.Hearing

/-!
# What a run does to a session's past

A command is registered only by the call that sends it, in the step in which this call gets its
connection, and it is written in this step or not at all; no step takes a registration back. A call
that has finished takes no further step.
-/

namespace EditorLink.Session

/-- Whether an effect is part of the sending of a command: its registration, or its write. -/
def Effect.sends : Effect → Bool
  | .registered _ _ => true
  | .wrote _ _ _ _ => true
  | _ => false

/-- Whether an effect is recorded by a call apart from the sending of its command. -/
def Effect.isOfCall : Effect → Bool
  | .closeCalled _ => true
  | .settled _ _ => true
  | .withdrawn _ => true
  | .callFinished _ _ => true
  | _ => false

namespace State

/-- Whether no command is registered between two states. -/
def SameRegistered (s t : State) : Prop :=
  ∀ (id : CommandId) (c : CallId), .registered id c ∈ t.history ↔ .registered id c ∈ s.history

/-- Whether between two states no command is numbered, and nothing recorded that passes a test. -/
structure Keeps (s : State) (p : Effect → Bool) (t : State) : Prop where
  nextId : t.nextId = s.nextId
  history : t.history.filter p = s.history.filter p

variable {s t u : State} {c : CallId} {call : Call} {p : Effect → Bool}

namespace Keeps

protected theorem refl (s : State) : s.Keeps p s := ⟨rfl, rfl⟩

theorem trans (h : s.Keeps p t) (h' : t.Keeps p u) : s.Keeps p u :=
  ⟨h'.nextId.trans h.nextId, h'.history.trans h.history⟩

theorem of_eq (hnext : t.nextId = s.nextId) (hhistory : t.history = s.history) : s.Keeps p t :=
  ⟨hnext, by rw [hhistory]⟩

/-- From a state with the same next id and history as the first one. -/
theorem of_start (h : u.Keeps p t) (hnext : u.nextId = s.nextId)
    (hhistory : u.history = s.history) : s.Keeps p t :=
  (of_eq hnext hhistory).trans h

theorem record {effect : Effect} (h : p effect = false) : s.Keeps p (s.record effect) :=
  ⟨rfl, List.filter_cons_of_neg (Bool.not_eq_true _ ▸ h)⟩

/-- What is read off the effects that pass the test stays the same. -/
theorem filterMap_eq {α : Type} (h : s.Keeps p t) {f : Effect → Option α}
    (hf : ∀ effect, p effect = false → f effect = none) :
    t.history.filterMap f = s.history.filterMap f := by
  have hfilter : ∀ effects : List Effect, effects.filterMap f = (effects.filter p).filterMap f := by
    intro effects
    rw [List.filterMap_filter]
    congr 1
    funext effect
    cases hp : p effect with
    | true => rfl
    | false => exact hf effect hp
  rw [hfilter, h.history, ← hfilter]

theorem discard (s : State) (id : CommandId) : s.Keeps p (s.discard id) := by
  unfold State.discard
  split
  · exact of_eq rfl rfl
  · exact .refl s

theorem stopAttempt (s : State) (a : AttemptId) : s.Keeps p (s.stopAttempt a) := by
  unfold State.stopAttempt
  split
  · exact .refl s
  · exact of_eq rfl rfl

theorem joinAttempt (s : State) : s.Keeps p s.joinAttempt.1 := by
  unfold State.joinAttempt
  split
  · exact .refl s
  · exact of_eq rfl rfl

/-! ### Calls -/

section

variable (hp : ∀ effect : Effect, effect.isOfCall → p effect = false)

include hp

theorem finishCall (s : State) (c : CallId) (result : CallResult) :
    s.Keeps p (s.finishCall c result) :=
  (of_eq rfl rfl : s.Keeps p (s.setStage c (.finished result))).trans (record (hp _ rfl))

theorem settle (s : State) (entry : Pending) (answer : Answer) :
    s.Keeps p (s.settle entry answer) := by
  unfold State.settle
  split
  · split
    · exact (of_eq rfl rfl : s.Keeps p (s.setCall _ _)).trans (record (hp _ rfl))
    · exact .refl s
  · exact .refl s

theorem answer (s : State) (entry : Pending) (answer : Answer) :
    s.Keeps p (s.answer entry answer) :=
  (settle hp ((s.removePending entry.id).disarm entry.id) entry answer).of_start rfl rfl

theorem failPending (s : State) (byPeer : Bool) : s.Keeps p (s.failPending byPeer) := by
  unfold State.failPending
  generalize s.pending = entries
  induction entries generalizing s with
  | nil => exact .refl s
  | cons entry entries ih => exact (answer hp s entry (.closed byPeer)).trans (ih _)

theorem endCommand (s : State) (c : CallId) (id : CommandId) (result : CallResult) :
    s.Keeps p (s.endCommand c id result) :=
  (discard s id).trans (finishCall hp _ c result)

theorem expire (s : State) (id : CommandId) : s.Keeps p (s.expire id) := by
  unfold State.expire
  split
  · exact answer hp s _ _
  · exact of_eq rfl rfl

theorem endReader (s : State) (k : SocketId) (fault : Option FrameError) :
    s.Keeps p (s.endReader k fault) := by
  unfold State.endReader
  dsimp only
  split
  · exact (failPending hp _ true).of_start rfl rfl
  · exact of_eq rfl rfl

theorem receives {config : Config} {k : SocketId} {frame : Frame}
    (ht : s.Receives config k frame t) : s.Keeps p t := by
  cases ht with
  | ignores => exact .refl s
  | answers => exact Keeps.answer hp s _ _
  | breaks error => exact endReader hp s k error

theorem awaitReader (s : State) (c : CallId) (reader : Option SocketId) :
    s.Keeps p (s.awaitReader c reader) := by
  rcases s.awaitReader_cases c reader with ⟨result, heq⟩ | ⟨k, socket, -, -, -, heq⟩
  · rw [heq]
    exact finishCall hp s c result
  · rw [heq]
    exact of_eq rfl rfl

theorem detach (s : State) (c : CallId) : s.Keeps p (s.detach c) := by
  have hdrop : s.Keeps p
      ({ s with socket := none, reader := none, phase := .disconnected }.failPending false) :=
    (failPending hp _ false).of_start rfl rfl
  unfold State.detach
  dsimp only
  split
  · exact hdrop.trans (awaitReader hp _ c _)
  · exact hdrop.trans ⟨rfl, List.filter_cons_of_neg (Bool.not_eq_true _ ▸ hp _ rfl)⟩

theorem cancels (ht : s.Cancels c t) : s.Keeps p t := by
  cases ht with
  | stays => exact .refl s
  | asks => exact of_eq rfl rfl
  | passes => exact stopAttempt s _
  | withdraws => exact (of_eq rfl rfl : s.Keeps p (s.setCall c _)).trans (record (hp _ rfl))

end

/-! ### Attempts -/

section

variable {a : AttemptId} (hp : ∀ effect : Effect, effect.isOfAttempt a → p effect = false)

include hp

theorem finishAttempt (s : State) (result : AttemptResult) :
    s.Keeps p (s.finishAttempt a result) :=
  ⟨rfl, List.filter_cons_of_neg (Bool.not_eq_true _ ▸ hp _ (beq_self_eq_true a))⟩

theorem wakes {attempt : Attempt} (hu : s.Wakes a attempt u) : s.Keeps p u := by
  cases hu with
  | goesOn => exact .refl s
  | starts | hears => exact of_eq rfl rfl
  | aborts => exact record (hp _ (beq_self_eq_true a))

theorem attemptTurn (ht : s.AttemptTurn a t) : s.Keeps p t := by
  cases ht with
  | stays => exact .refl s
  | drops =>
    exact (of_eq rfl rfl : s.Keeps p (s.setAttempt a _)).trans
      (record (hp _ (beq_self_eq_true a)))
  | @proceeds _ u _ _ hu _ _ effects heffects =>
    refine (wakes hp hu).trans ⟨rfl, ?_⟩
    have hnone : effects.filter p = [] := List.filter_eq_nil_iff.mpr fun effect he =>
      Bool.not_eq_true _ ▸ hp effect (heffects effect he)
    show (effects ++ u.history).filter p = u.history.filter p
    rw [List.filter_append, hnone, List.nil_append]
  | finishes _ _ hu => exact (wakes hp hu).trans (finishAttempt hp _ _)
  | connects =>
    have hinstalled : s.Keeps p (s.setAttempt a fun attempt =>
        { attempt with cancelRequested := false }).install :=
      ⟨rfl, List.filter_cons_of_neg (Bool.not_eq_true _ ▸ hp _ rfl)⟩
    exact hinstalled.trans (finishAttempt hp _ _)

end

end Keeps

theorem SameRegistered.of_keeps (h : s.Keeps Effect.sends t) : s.SameRegistered t := by
  intro id c
  have hmem : ∀ effects : List Effect, .registered id c ∈ effects ↔
      .registered id c ∈ effects.filter Effect.sends := by
    intro effects
    simp [List.mem_filter, Effect.sends]
  rw [hmem, hmem s.history, h.history]

/-! ## The call that sends -/

/-- Whether a call sends its command in a state that shows the same commands as the first one. -/
def Sends (config : Config) (s : State) (c : CallId) (t : State) : Prop :=
  ∃ call u commandType params, s.calls[c]? = some call ∧ call.kind = .send commandType params ∧
    call.cancelRequested = false ∧ s.Quiet u ∧ t = u.sendCommand config c commandType params

/-- Whether a call that has just arrived, or has its attempt, goes on and sends its command. -/
def Dispatches (config : Config) (s : State) (c : CallId) (t : State) : Prop :=
  ∃ call commandType params, s.calls[c]? = some call ∧ call.starting ∧
    call.kind = .send commandType params ∧ call.cancelRequested = false ∧
    t = s.sendCommand config c commandType params

variable (config : Config)

theorem Dispatches.sends (h : Dispatches config s c t) : Sends config s c t := by
  obtain ⟨call, commandType, params, hc, -, hkind, hasked, heq⟩ := h
  exact ⟨call, s, commandType, params, hc, hkind, hasked, Quiet.refl s, heq⟩

section

variable (hp : ∀ effect : Effect, effect.isOfCall → p effect = false)

include hp

/-- A call that goes on sends nothing, or it sends its command. -/
theorem Turn.dispatches {config : Config} {detached : Bool} (ht : s.Turn config c detached t) :
    s.Keeps p t ∨ Dispatches config s c t := by
  cases ht with
  | stays => exact .inl (.refl s)
  | finishes _ _ result => exact .inl (.finishCall hp s c result)
  | sends hc hstart hasked hkind => exact .inr ⟨_, _, _, hc, hstart, hkind, hasked, rfl⟩
  | awaits => exact .inl (.of_eq rfl rfl)
  | ends _ _ result => exact .inl (.endCommand hp s c _ result)
  | joins => exact .inl ((Keeps.joinAttempt s).trans (.of_eq rfl rfl))
  | stops => exact .inl ((Keeps.stopAttempt s _).trans (.of_eq rfl rfl))
  | detaches => exact .inl ((Keeps.detach hp _ c).of_start rfl rfl)
  | closes => exact .inl (.awaitReader hp s c _)

/-- A step records nothing that passes a test, or it is the step of a call that sends its command,
where the test passes neither what calls record apart from sending nor what the attempt records that
runs. -/
theorem step_dispatches (s : State) {event : Event} (hattempt : ∀ a, event = .attemptRuns a →
      ∀ effect : Effect, effect.isOfAttempt a → p effect = false) :
    s.Keeps p (s.step config event) ∨
      ∃ c, event = .resume c ∧ Dispatches config s c (s.step config event) := by
  unfold step
  split
  · cases event with
    | resume c =>
      exact ((turn_runCall config s c).dispatches hp).imp_right fun hsends => ⟨c, rfl, hsends⟩
    | cancel c => exact .inl (.cancels hp (cancels_cancelCall s c))
    | attemptRuns a =>
      exact .inl (.attemptTurn (hattempt a rfl) (attemptTurn_runAttempt config s a))
    | message k frame => exact .inl (.receives hp (receives_receive config s k frame))
    | readerEnds k => exact .inl (.endReader hp s k none)
    | timerFires id => exact .inl (.expire hp s id)
    | closeEnds c =>
      left
      dsimp only [act]
      split
      · exact .of_eq rfl rfl
      · exact .of_eq rfl rfl
    | _ => exact .inl (.of_eq rfl rfl)
  · exact .inl (.refl s)

end

/-- A step sends nothing, or it is the step of a call that sends its command. -/
theorem step_sends (s : State) (event : Event) : s.Keeps Effect.sends (s.step config event) ∨
    ∃ c, event = .resume c ∧ Dispatches config s c (s.step config event) := by
  have hcall : ∀ effect : Effect, effect.isOfCall → effect.sends = false := by
    intro effect he
    cases effect <;> first | rfl | cases he
  have hattempt : ∀ a, ∀ effect : Effect, effect.isOfAttempt a → effect.sends = false := by
    intro a effect he
    cases effect <;> first | rfl | cases he
  exact step_dispatches config hcall s fun a _ => hattempt a

/-- A step registers nothing, or it is the step of a call that sends its command. -/
theorem step_registers (s : State) (event : Event) : s.SameRegistered (s.step config event) ∨
    ∃ c, event = .resume c ∧ Sends config s c (s.step config event) :=
  (step_sends config s event).imp SameRegistered.of_keeps
    fun ⟨c, hevent, hdispatches⟩ => ⟨c, hevent, hdispatches.sends⟩

/-- A call that sends its command registers it under the next id. It writes the command on the
current socket, or it fails at once. -/
theorem Sends.spec (h : Sends config s c t) (hs : s.TableSound) :
    (∀ (id : CommandId) (d : CallId), .registered id d ∈ t.history ↔
      .registered id d ∈ s.history ∨ id = s.nextId ∧ d = c) ∧
    ∃ call commandType params, t.calls[c]? = some call ∧ call.kind = .send commandType params ∧
      ((∃ k, s.socket = some k ∧ call.cancelRequested = false ∧
        call.stage = .writing s.nextId k none none) ∨
        ∃ error, call.stage = .finished (.failed error)) := by
  obtain ⟨call, u, commandType, params, hc, hkind, hasked, hq, rfl⟩ := h
  have hcu : u.calls[c]? = some call := hq.calls ▸ hc
  rcases sendCommand_cases (hs.quiet hq) config c commandType params with
    ⟨error, heq⟩ | ⟨k, socket, hk, -, -, heq⟩
  · rw [heq]
    constructor
    · intro id d
      refine Iff.trans ?_ (or_congr_left hq.mem_registered)
      rw [← hq.nextId]
      show _ ∈ Effect.callFinished _ _ :: Effect.registered _ _ :: u.history ↔ _
      simp [or_comm]
    · refine ⟨{ call with stage := .finished (.failed error) }, commandType, params, ?_, hkind, ?_⟩
      · rw [calls_finishCall_self]
        exact congrArg (Option.map _) hcu
      · exact .inr ⟨error, rfl⟩
  · rw [heq]
    constructor
    · intro id d
      refine Iff.trans ?_ (or_congr_left hq.mem_registered)
      rw [← hq.nextId]
      show _ ∈ Effect.wrote _ _ _ _ :: Effect.registered _ _ :: u.history ↔ _
      simp [or_comm]
    · refine ⟨{ call with stage := .writing u.nextId k none none }, commandType, params, ?_, hkind,
        ?_⟩
      · exact (calls_setStage_self _ c _).trans (congrArg (Option.map _) hcu)
      · exact .inl ⟨k, hq.socket ▸ hk, hasked, by rw [hq.nextId]⟩

/-- No step takes a registration back. -/
theorem registered_step (h : s.TableSound) {id : CommandId} (hr : .registered id c ∈ s.history)
    (event : Event) : .registered id c ∈ (s.step config event).history := by
  rcases step_registers config s event with hsame | ⟨d, -, hsends⟩
  · exact (hsame id c).mpr hr
  · exact ((hsends.spec config h).1 id c).mpr (.inl hr)

/-! ## Finished calls -/

/-- A finished call takes no step of its own. -/
theorem step_of_finished (hc : s.calls[c]? = some call) (hf : call.isFinished) {event : Event}
    (hown : event.isOf c) : s.step config event = s := by
  obtain ⟨kind, stage, asked⟩ := call
  cases stage with
  | finished result =>
    cases event with
    | resume d =>
      obtain rfl : d = c := beq_iff_eq.mp hown
      have hnot : s.admits (.resume d) = false := by rw [admits, callCanRun, hc]
      rw [step, hnot, if_neg Bool.false_ne_true]
    | cancel d =>
      obtain rfl : d = c := beq_iff_eq.mp hown
      rw [step, admits, if_pos rfl, act, cancelCall, hc]
    | writeEnds d _ | closeEnds d =>
      obtain rfl : d = c := beq_iff_eq.mp hown
      rw [step, admits, hc, if_neg Bool.false_ne_true]
    | _ => cases hown
  | _ => cases hf

theorem calls_step_of_finished (h : s.TableSound) (hc : s.calls[c]? = some call)
    (hf : call.isFinished) (event : Event) : (s.step config event).calls[c]? = some call := by
  cases hown : event.isOf c with
  | true => rw [step_of_finished config hc hf hown, hc]
  | false =>
    have hidle := Call.awaited?_eq_none (Call.flight?_eq_none hf)
    rw [calls_step config h hc hown, Call.told_of_awaited?_eq_none hidle]

end State

end EditorLink.Session
