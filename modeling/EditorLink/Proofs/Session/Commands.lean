import EditorLink.Proofs.Session.Table

/-!
# Commands are answered once

Only a call that can take an answer completes one, and then it takes none any more; and whatever ends
a command takes its entry and its timer away. Each function of a session keeps the table sound, and
so does every run.
-/

namespace EditorLink.Session

namespace State

variable {s t u : State} {c : CallId} {call : Call} {id : CommandId}

/-! ## Answers -/

/-- An entry's call puts the answer in if it can still take one. -/
theorem answer_eq (h : s.TableSound) {entry : Pending} (he : entry ∈ s.pending) (answer : Answer) :
    ∃ call, s.calls[entry.call]? = some call ∧ s.answer entry answer =
      if call.awaited?.isSome then
        (((s.removePending entry.id).disarm entry.id).setCall entry.call (·.hear answer)).record
          (.settled entry.id answer)
      else ((s.removePending entry.id).disarm entry.id).setCall entry.call (·.hear answer) := by
  obtain ⟨call, k, hc, hf, -⟩ := h.pending_flies entry he
  refine ⟨call, hc, ?_⟩
  have hcalls : ((s.removePending entry.id).disarm entry.id).calls[entry.call]? = some call := hc
  cases ha : call.awaited? with
  | none =>
    have htakes : ¬ call.takesAnswer entry.id := by
      rw [Call.takesAnswer_iff, ha]
      simp
    rw [State.answer, settle, hcalls]
    dsimp only
    rw [if_neg htakes, if_neg (by decide), setCall_of_unchanged]
    intro other hother
    obtain rfl := Option.some.inj (hcalls.symm.trans hother)
    exact Call.hear_of_awaited?_eq_none ha answer
  | some id =>
    obtain ⟨j, hj⟩ := Call.flight?_of_awaited? ha
    obtain rfl : entry.id = id := congrArg Flight.id (Option.some.inj (hf.symm.trans hj))
    have htakes : call.takesAnswer entry.id := (call.takesAnswer_iff entry.id).mpr ha
    have hhear : ∀ other, ((s.removePending entry.id).disarm entry.id).calls[entry.call]? =
        some other → other.hear answer = other.putAnswer answer := by
      intro other hother
      obtain rfl := Option.some.inj (hcalls.symm.trans hother)
      rw [Call.hear, ha]
      rfl
    rw [State.answer, settle, hcalls]
    dsimp only
    rw [if_pos htakes, if_pos (by rfl), setCall_congr hhear]

theorem calls_answer (h : s.TableSound) {entry : Pending} (he : entry ∈ s.pending) (answer : Answer)
    (d : CallId) : (s.answer entry answer).calls[d]? =
      if entry.call = d then s.calls[d]?.map (·.hear answer) else s.calls[d]? := by
  obtain ⟨call, -, heq⟩ := answer_eq h he answer
  rw [heq]
  have hcalls := calls_setCall ((s.removePending entry.id).disarm entry.id) entry.call d
    (·.hear answer)
  split <;> exact hcalls

theorem pending_answer (entry : Pending) (answer : Answer) :
    (s.answer entry answer).pending = s.pending.filter (·.id != entry.id) := by
  rw [State.answer, settle]
  split
  · split <;> rfl
  · rfl

theorem tableSound_answer (h : s.TableSound) {entry : Pending} (he : entry ∈ s.pending)
    (answer : Answer) : (s.answer entry answer).TableSound := by
  obtain ⟨call, k, hc, hf, -⟩ := h.pending_flies entry he
  obtain ⟨other, hother, heq⟩ := answer_eq h he answer
  obtain rfl := Option.some.inj (hc.symm.trans hother)
  have hsame : ∀ flight, (call.hear answer).flight? = some flight → flight.id = entry.id := by
    intro flight hfl
    rw [Call.flight?_hear, hf] at hfl
    split at hfl <;> cases hfl <;> rfl
  have hreleased := h.release hc hf (·.hear answer) (call.awaited?_hear answer) hsame
  rw [heq]
  split
  · next ha =>
    obtain ⟨id, ha⟩ := Option.isSome_iff_exists.mp ha
    obtain ⟨j, hj⟩ := Call.flight?_of_awaited? ha
    obtain rfl : entry.id = id := congrArg Flight.id (Option.some.inj (hf.symm.trans hj))
    have hfl : (call.hear answer).flight? = some ⟨entry.id, k, some answer⟩ := by
      rw [Call.flight?_hear, ha, hf]
      rfl
    have hc' : (((s.removePending entry.id).disarm entry.id).setCall entry.call
        (·.hear answer)).calls[entry.call]? = some (call.hear answer) := by
      rw [calls_setCall_self, show ((s.removePending entry.id).disarm entry.id).calls[entry.call]? =
        some call from hc]
      rfl
    refine hreleased.complete hc' hfl (call.awaited?_hear answer)
      (h.completions_awaited _ call _ hc ha) ?_ (by simp)
    intro id hid
    exact (beq_iff_eq.mp hid).symm
  · exact hreleased

/-- The rejection of all pending commands is the rejection of the first and then of the rest. -/
theorem failPending_cons (h : s.TableSound) {entry : Pending} {rest : List Pending}
    (hp : s.pending = entry :: rest) (byPeer : Bool) :
    (s.answer entry (.closed byPeer)).pending = rest ∧
      s.failPending byPeer = (s.answer entry (.closed byPeer)).failPending byPeer := by
  have hrest : (s.answer entry (.closed byPeer)).pending = rest := by
    have hnodup := h.pending_nodup
    rw [hp, List.map_cons, List.nodup_cons] at hnodup
    rw [pending_answer, hp, List.filter_cons, if_neg (by simp), List.filter_eq_self]
    intro other hother
    simp only [bne_iff_ne, ne_eq]
    intro hid
    exact hnodup.1 (hid ▸ List.mem_map_of_mem hother)
  refine ⟨hrest, ?_⟩
  rw [failPending, hp, List.foldl_cons, failPending, hrest]

theorem tableSound_failPending (h : s.TableSound) (byPeer : Bool) :
    (s.failPending byPeer).TableSound ∧ (s.failPending byPeer).pending = [] := by
  generalize hp : s.pending = entries
  induction entries generalizing s with
  | nil =>
    rw [failPending, hp]
    exact ⟨h, hp⟩
  | cons entry rest ih =>
    obtain ⟨hrest, heq⟩ := failPending_cons h hp byPeer
    rw [heq]
    exact ih (tableSound_answer h (hp ▸ List.mem_cons_self) _) hrest

/-- Every call that can still take an answer learns that the connection is closed. -/
theorem calls_failPending (h : s.TableSound) (byPeer : Bool) (d : CallId) :
    (s.failPending byPeer).calls[d]? = s.calls[d]?.map (·.hear (.closed byPeer)) := by
  generalize hp : s.pending = entries
  induction entries generalizing s with
  | nil =>
    rw [failPending, hp, List.foldl_nil]
    cases hd : s.calls[d]? with
    | none => rfl
    | some call =>
      have ha : call.awaited? = none := by
        cases ha : call.awaited? with
        | none => rfl
        | some id =>
          obtain ⟨entry, he, -⟩ := h.awaited_pending d call id hd ha
          rw [hp] at he
          cases he
      rw [Option.map_some, Call.hear_of_awaited?_eq_none ha]
  | cons entry rest ih =>
    have he : entry ∈ s.pending := hp ▸ List.mem_cons_self
    obtain ⟨hrest, heq⟩ := failPending_cons h hp byPeer
    rw [heq, ih (tableSound_answer h he _) hrest, calls_answer h he]
    split
    · cases s.calls[d]? with
      | none => rfl
      | some call =>
        rw [Option.map_some, Option.map_some,
          Call.hear_of_awaited?_eq_none (call.awaited?_hear _)]
    · rfl

/-! ## Commands -/

theorem filter_pending (hno : ∀ entry ∈ s.pending, entry.id ≠ id) :
    s.pending.filter (·.id != id) = s.pending := by
  rw [List.filter_eq_self]
  intro entry he
  simpa using hno entry he

theorem filter_timers (h : s.TableSound) (hno : ∀ entry ∈ s.pending, entry.id ≠ id) :
    s.timers.filter (·.id != id) = s.timers := by
  rw [List.filter_eq_self]
  intro timer ht
  have hid : timer.id ∈ s.pending.map (·.id) := h.timers_eq ▸ List.mem_map_of_mem ht
  obtain ⟨entry, he, heq⟩ := List.mem_map.mp hid
  rw [← heq]
  simpa using hno entry he

theorem findPending?_eq_none (hnone : s.findPending? id = none) :
    ∀ entry ∈ s.pending, entry.id ≠ id := by
  intro entry he
  simpa using List.find?_eq_none.mp hnone entry he

theorem discard_eq (h : s.TableSound) (id : CommandId) :
    s.discard id = (s.removePending id).disarm id := by
  unfold discard
  split
  · rfl
  · next hnone =>
    have hno := findPending?_eq_none hnone
    rw [removePending, disarm, filter_pending hno, filter_timers h hno]

theorem tableSound_endCommand (h : s.TableSound) {flight : Flight} (hc : s.calls[c]? = some call)
    (hf : call.flight? = some flight) (result : CallResult) :
    (s.endCommand c flight.id result).TableSound := by
  rw [endCommand, discard_eq h, finishCall]
  refine (h.release hc hf (fun call => { call with stage := .finished result }) rfl ?_).quiet
    (Quiet.record rfl)
  intro new hnew
  cases hnew

/-- What a registered command leaves behind when it is given up at once. -/
theorem discard_enroll (h : s.TableSound) (c : CallId) (commandType : String) (due : Double) :
    (s.enroll c commandType due).discard s.nextId =
      { s with nextId := s.nextId + 1, history := .registered s.nextId c :: s.history } := by
  have hno : ∀ entry ∈ s.pending, entry.id ≠ s.nextId :=
    fun entry he => Nat.ne_of_lt (h.pending_lt he)
  unfold discard
  split
  · simp [enroll, removePending, disarm, filter_pending hno, filter_timers h hno]
  · next hnone => simp [findPending?, enroll] at hnone

/-- A command is given up at once, or it is in the table and its call writes it on the current
socket, which is open. -/
theorem sendCommand_cases (h : s.TableSound) (config : Config) (c : CallId) (commandType : String)
    (params : Value) :
    (∃ error, s.sendCommand config c commandType params = finishCall
      { s with nextId := s.nextId + 1, history := .registered s.nextId c :: s.history } c
      (.failed error)) ∨
    ∃ k socket, s.socket = some k ∧ s.sockets[k]? = some socket ∧ socket.state = .opened ∧
      s.sendCommand config c commandType params =
        ((s.enroll c commandType (s.now.add config.timeout.toDouble)).setStage c
          (.writing s.nextId k none none)).record (.wrote k s.nextId commandType params) := by
  rcases sendCommand_enrolled config s c commandType params with
    ⟨error, heq⟩ | ⟨k, socket, hk, hsocket, hopened, heq⟩
  · rw [heq, endCommand, discard_enroll h]
    exact .inl ⟨error, rfl⟩
  · exact .inr ⟨k, socket, hk, hsocket, hopened, heq⟩

/-- A call that has sent no command. -/
def Idle (s : State) (c : CallId) : Prop := ∀ call, s.calls[c]? = some call → call.flight? = none

theorem idle_of_getElem? (hc : s.calls[c]? = some call) (hf : call.flight? = none) : s.Idle c := by
  intro other hother
  obtain rfl := Option.some.inj (hc.symm.trans hother)
  exact hf

theorem Idle.quiet (hi : s.Idle c) (hq : s.Quiet t) : t.Idle c :=
  fun call hc => hi call (hq.calls ▸ hc)

theorem tableSound_setStage (h : s.TableSound) (hi : s.Idle c) {stage : CallStage}
    (hstage : ∀ kind asked, Call.flight? ⟨kind, stage, asked⟩ = none) :
    (s.setStage c stage).TableSound := by
  apply h.setCall
  intro call hc
  refine ⟨rfl, (hstage _ _).trans (hi call hc).symm, ?_⟩
  intro id ha
  rw [Call.awaited?_eq_none (hstage _ _)] at ha
  cases ha

theorem tableSound_finishCall (h : s.TableSound) (hi : s.Idle c) (result : CallResult) :
    (s.finishCall c result).TableSound :=
  (tableSound_setStage h hi fun _ _ => rfl).quiet (Quiet.record rfl)

theorem tableSound_sendCommand (h : s.TableSound) (config : Config) (hc : s.calls[c]? = some call)
    (hf : call.flight? = none) {commandType : String} {params : Value}
    (hkind : call.kind = .send commandType params) :
    (s.sendCommand config c commandType params).TableSound := by
  rcases sendCommand_cases h config c commandType params with
    ⟨error, heq⟩ | ⟨k, socket, hs, -, -, heq⟩
  · rw [heq]
    exact tableSound_finishCall (h.skip c) (idle_of_getElem? hc hf) _
  · rw [heq]
    exact (h.enroll hc hf hkind hs _).quiet (Quiet.record rfl)

theorem Quiet.joinAttempt (s : State) : s.Quiet s.joinAttempt.1 := by
  unfold State.joinAttempt
  split
  · exact Quiet.refl s
  · exact .of_eq rfl rfl rfl rfl rfl rfl

theorem Quiet.stopAttempt (s : State) (a : AttemptId) : s.Quiet (s.stopAttempt a) := by
  unfold State.stopAttempt
  split
  · exact Quiet.refl s
  · exact Quiet.setAttempt a _

/-! ## Disconnects and readers -/

theorem tableSound_awaitReader (h : s.TableSound) (hi : s.Idle c) (reader : Option SocketId) :
    (s.awaitReader c reader).TableSound := by
  rcases s.awaitReader_cases c reader with ⟨result, heq⟩ | ⟨k, socket, -, -, -, heq⟩
  · rw [heq]
    exact tableSound_finishCall h hi result
  · rw [heq]
    exact tableSound_setStage (h.quiet (Quiet.setSocket _ _)) hi fun _ _ => rfl

theorem idle_failPending (h : s.TableSound) (hi : s.Idle c) (byPeer : Bool) :
    (s.failPending byPeer).Idle c := by
  intro call hc
  rw [calls_failPending h] at hc
  obtain ⟨old, hold, rfl⟩ := Option.map_eq_some_iff.mp hc
  rw [Call.flight?_hear, hi old hold]
  split <;> rfl

/-- The connection ends: the pending commands are rejected and the link changes. -/
theorem tableSound_drop (h : s.TableSound) (byPeer : Bool) (l : Link) :
    ((s.withLink l).failPending byPeer).TableSound := by
  rw [failPending_withLink]
  obtain ⟨hsound, hempty⟩ := tableSound_failPending h byPeer
  exact hsound.withLink hempty l

theorem tableSound_detach (h : s.TableSound) (hi : s.Idle c) : (s.detach c).TableSound := by
  let l : Link := { s.link with socket := none, reader := none, phase := .disconnected }
  have hdrop : ((s.withLink l).failPending false).TableSound := tableSound_drop h false l
  have hidle : ((s.withLink l).failPending false).Idle c := by
    rw [failPending_withLink]
    exact idle_failPending h hi false
  unfold detach
  dsimp only
  split
  · exact tableSound_awaitReader hdrop hidle _
  · apply tableSound_setStage (hdrop.quiet ((Quiet.setSocket _ _).trans (Quiet.record rfl))) hidle
    exact fun _ _ => rfl

theorem tableSound_endReader (h : s.TableSound) (k : SocketId) (fault : Option FrameError) :
    (s.endReader k fault).TableSound := by
  have hended := h.quiet (Quiet.setSocket k fun socket => { socket with reader := .ended fault })
  unfold endReader
  dsimp only
  split
  · exact tableSound_drop hended true
      { (s.setSocket k fun socket => { socket with reader := .ended fault }).link with
        socket := none, reader := none, phase := .disconnected }
  · exact hended

/-- A disconnect whose attempt has ended forgets that it was to be cancelled. -/
theorem tableSound_clear (h : s.TableSound) (hi : s.Idle c) :
    (s.setCall c fun call => { call with cancelRequested := false }).TableSound := by
  apply h.setCall
  intro call hc
  refine ⟨rfl, rfl, fun id ha => ?_⟩
  have hf : ({ call with cancelRequested := false } : Call).flight? = none := hi call hc
  rw [Call.awaited?_eq_none hf] at ha
  cases ha

/-- A command whose write has ended is waited for. -/
theorem tableSound_await (h : s.TableSound) (hc : s.calls[c]? = some call) {k : SocketId}
    {written : Option Bool} {answer : Option Answer}
    (hstage : call.stage = .writing id k written answer) :
    (s.setStage c (.awaiting id k answer)).TableSound := by
  apply h.setCall
  intro other hother
  obtain rfl := Option.some.inj (hc.symm.trans hother)
  refine ⟨rfl, by rw [Call.flight?, Call.flight?, hstage], ?_⟩
  intro own ha
  rw [Call.awaited?, hstage]
  cases answer with
  | some answer => cases ha
  | none =>
    rw [Call.awaited?] at ha
    dsimp only at ha
    split at ha
    · cases ha
    · exact ha

theorem Call.awaited?_asked {call : Call} {id : CommandId}
    (h : ({ call with cancelRequested := true } : Call).awaited? = some id) :
    call.awaited? = some id := by
  obtain ⟨kind, stage, asked⟩ := call
  cases stage with
  | writing own k written answer =>
    cases answer with
    | none => exact h
    | some answer => cases h
  | awaiting own k answer => cases answer <;> cases h
  | _ => cases h

theorem Turn.tableSound {config : Config} {detached : Bool} (ht : s.Turn config c detached t)
    (h : s.TableSound) : t.TableSound := by
  cases ht with
  | stays => exact h
  | finishes hc hf result => exact tableSound_finishCall h (idle_of_getElem? hc hf) result
  | sends hc hstart _ hkind =>
    exact tableSound_sendCommand h config hc (Call.flight?_of_starting hstart) hkind
  | awaits hc hstage => exact tableSound_await h hc hstage
  | ends hc hf result => exact tableSound_endCommand h hc hf result
  | joins hc hstage _ =>
    have hi : s.Idle c := idle_of_getElem? hc (by rw [Call.flight?, hstage])
    have hq := Quiet.joinAttempt s
    exact tableSound_setStage (h.quiet hq) (hi.quiet hq) fun _ _ => rfl
  | stops a hc hstage _ _ _ =>
    have hi : s.Idle c := idle_of_getElem? hc (by rw [Call.flight?, hstage])
    have hq := Quiet.stopAttempt s a
    exact tableSound_setStage (h.quiet hq) (hi.quiet hq) fun _ _ => rfl
  | detaches current hc hf _ =>
    have hi : s.Idle c := idle_of_getElem? hc hf
    have hq : s.Quiet { s with current } := .of_eq rfl rfl rfl rfl rfl rfl
    refine tableSound_detach (tableSound_clear (h.quiet hq) (hi.quiet hq)) fun call hcleared => ?_
    rw [calls_setCall_self] at hcleared
    obtain ⟨old, hold, rfl⟩ := Option.map_eq_some_iff.mp hcleared
    exact hi old hold
  | closes hc hstage =>
    exact tableSound_awaitReader h (idle_of_getElem? hc (by rw [Call.flight?, hstage])) _

theorem Cancels.tableSound (ht : s.Cancels c t) (h : s.TableSound) : t.TableSound := by
  have hasked : (s.setCall c fun call => { call with cancelRequested := true }).TableSound :=
    h.setCall _ fun call _ => ⟨rfl, rfl, fun id => Call.awaited?_asked⟩
  cases ht with
  | stays => exact h
  | asks => exact hasked
  | passes => exact h.quiet (Quiet.stopAttempt s _)
  | @withdraws call id k hc hstage hnot =>
    have hf : call.flight? = some ⟨id, k, none⟩ := by rw [Call.flight?, hstage]
    have ha : call.awaited? = some id := by
      rw [Call.awaited?, hstage]
      dsimp only
      rw [hnot]
      rfl
    have hnew : (s.setCall c fun call => { call with cancelRequested := true }).calls[c]? =
        some { call with cancelRequested := true } := by
      rw [calls_setCall_self, hc]
      rfl
    refine hasked.complete hnew hf ?_ (h.completions_awaited c call id hc ha) ?_ (by simp)
    · rw [Call.awaited?, hstage]
      rfl
    · intro own hown
      exact (beq_iff_eq.mp hown).symm

theorem tableSound_expire (h : s.TableSound) (id : CommandId) : (s.expire id).TableSound := by
  unfold expire
  split
  · next entry he => exact tableSound_answer h (List.mem_of_find?_eq_some he) _
  · next hnone =>
    rw [disarm, filter_timers h (findPending?_eq_none hnone)]
    exact h

theorem Receives.tableSound {config : Config} {k : SocketId} {frame : Frame}
    (ht : s.Receives config k frame t)
    (h : s.TableSound) : t.TableSound := by
  cases ht with
  | ignores => exact h
  | answers _ he => exact tableSound_answer h he _
  | breaks error => exact tableSound_endReader h k error

/-! ## Attempts -/

theorem Quiet.finishAttempt (s : State) (a : AttemptId) (result : AttemptResult) :
    s.Quiet (s.finishAttempt a result) :=
  ⟨rfl, rfl, rfl, rfl, rfl, [_], rfl, by simp [Effect.silent]⟩

theorem Wakes.quiet {a : AttemptId} {attempt : Attempt} (hu : s.Wakes a attempt u) :
    s.Quiet u := by
  cases hu with
  | goesOn => exact Quiet.refl s
  | starts => exact .of_eq rfl rfl rfl rfl rfl rfl
  | aborts => exact Quiet.record rfl
  | hears => exact Quiet.setAttempt a _

theorem AttemptTurn.tableSound {a : AttemptId} (ht : s.AttemptTurn a t) (hl : s.link.Sound)
    (h : s.TableSound) : t.TableSound := by
  cases ht with
  | stays => exact h
  | drops => exact h.quiet ((Quiet.setAttempt a _).trans (Quiet.record rfl))
  | proceeds _ _ hu _ effects heffects =>
    refine h.quiet (hu.quiet.trans ⟨rfl, rfl, rfl, rfl, rfl, effects, rfl, fun effect he => ?_⟩)
    exact Effect.silent_of_isOfAttempt (heffects effect he)
  | finishes _ _ hu => exact h.quiet (hu.quiet.trans (Quiet.finishAttempt _ a _))
  | @connects attempt ha ho =>
    have hbusy : s.link.Busy a := hl.busy ha (Attempt.result?_of_outcome? ho)
    have hempty : s.pending = [] := h.pending_eq_nil hbusy.socket_eq.2
    refine (h.withLink hempty (s.setAttempt a fun attempt =>
      { attempt with cancelRequested := false }).install.link).quiet ?_
    exact ⟨rfl, rfl, rfl, rfl, rfl, [_, _], rfl, by simp [Effect.silent]⟩

/-! ## Steps and runs -/

theorem tableSound_act (h : s.TableSound) (hl : s.link.Sound) (config : Config) (event : Event) :
    (s.act config event).TableSound := by
  cases event with
  | arrive kind => exact h.arrive kind
  | resume c => exact (turn_runCall config s c).tableSound h
  | cancel c => exact (cancels_cancelCall s c).tableSound h
  | attemptRuns a => exact (attemptTurn_runAttempt config s a).tableSound hl h
  | attemptNoticed a => exact h.quiet (.of_eq rfl rfl rfl rfl rfl rfl)
  | handshakeEnds a _ | handshakeExpires a | restElapses a =>
    exact h.quiet (Quiet.setAttempt a _)
  | message k frame => exact (receives_receive config s k frame).tableSound h
  | readerEnds k => exact tableSound_endReader h k none
  | socketTurns k _ | socketRefuses k => exact h.quiet (Quiet.setSocket k _)
  | writeEnds c written =>
    refine h.setCall _ fun call _ => ?_
    obtain ⟨kind, stage, asked⟩ := call
    cases stage with
    | writing id k written answer => cases answer <;> exact ⟨rfl, rfl, fun _ ha => ha⟩
    | _ => exact ⟨rfl, rfl, fun _ ha => ha⟩
  | closeEnds c =>
    dsimp only [act]
    split
    · refine (h.setCall _ fun call _ => ?_).quiet (Quiet.setSocket _ _)
      obtain ⟨kind, stage, asked⟩ := call
      cases stage <;> exact ⟨rfl, rfl, fun _ ha => ha⟩
    · refine h.setCall _ fun call _ => ?_
      obtain ⟨kind, stage, asked⟩ := call
      cases stage <;> exact ⟨rfl, rfl, fun _ ha => ha⟩
  | timerFires id => exact tableSound_expire h id
  | clock now => exact h.quiet (.of_eq rfl rfl rfl rfl rfl rfl)

theorem tableSound_init : ({} : State).TableSound where
  timers_eq := rfl
  pending_nodup := List.nodup_nil
  pending_flies := fun _ he => by cases he
  awaited_pending := fun _ _ _ hc => by cases hc
  flight_registered := fun _ _ _ hc => by cases hc
  registered_lt := fun _ _ hr => by cases hr
  registered_unique := fun _ _ _ hr => by cases hr
  completions_le := fun _ => Nat.zero_le _
  completions_awaited := fun _ _ _ hc => by cases hc
  completions_new := fun _ _ => rfl

theorem tableSound_step (h : s.TableSound) (hl : s.link.Sound) (config : Config) (event : Event) :
    (s.step config event).TableSound := by
  unfold step
  split
  · exact tableSound_act h hl config event
  · exact h

/-- What holds of a session in every run. -/
structure Sound (s : State) : Prop where
  link : s.link.Sound
  table : s.TableSound

theorem Sound.step (h : s.Sound) (config : Config) (event : Event) : (s.step config event).Sound :=
  ⟨sound_step config h.link event, tableSound_step h.table h.link config event⟩

theorem Sound.run (h : s.Sound) (config : Config) (events : List Event) :
    (s.run config events).Sound :=
  run_keeps config (fun _ event hs => hs.step config event) h events

theorem Sound.init : ({} : State).Sound := ⟨sound_init, tableSound_init⟩

/-! ## Commands of finished calls -/

/-- A call that has finished has no entry in the table. -/
theorem Sound.not_pending (h : s.Sound) (hr : .registered id c ∈ s.history)
    (hc : s.calls[c]? = some call) (hf : call.isFinished) : id ∉ s.pending.map (·.id) := by
  intro hid
  obtain ⟨entry, he, rfl⟩ := List.mem_map.mp hid
  obtain ⟨other, k, hother, hflight, -⟩ := h.table.pending_flies entry he
  have hentry := h.table.flight_registered entry.call other _ hother hflight
  obtain rfl := h.table.registered_unique entry.id c entry.call hr hentry
  obtain rfl := Option.some.inj (hc.symm.trans hother)
  rw [Call.flight?_eq_none hf] at hflight
  cases hflight

/-- Without a call that sends, the table is empty. -/
theorem Sound.pending_eq_nil (h : s.Sound)
    (hdone : ∀ call ∈ s.calls, call.kind.isSend → call.isFinished) : s.pending = [] := by
  apply List.eq_nil_iff_forall_not_mem.mpr
  intro entry he
  obtain ⟨call, k, hc, hflight, -, params, hkind⟩ := h.table.pending_flies entry he
  have hf := hdone call (List.mem_of_getElem? hc) (by rw [hkind]; rfl)
  rw [Call.flight?_eq_none hf] at hflight
  cases hflight

/-- In every run no answer is completed twice, and the armed timers are those of the pending
commands, one for each. However a call finishes, its command is not pending and its timer is not
armed; once no call sends, nothing is pending or armed. -/
theorem answers_completed_once_and_commands_cleared (config : Config) (events : List Event) :
    let s := run config {} events
    (∀ id, s.completions id ≤ 1) ∧
      s.timers.map (·.id) = s.pending.map (·.id) ∧ (s.pending.map (·.id)).Nodup ∧
      (∀ (id : CommandId) (c : CallId) (call : Call), .registered id c ∈ s.history →
        s.calls[c]? = some call → call.isFinished →
        id ∉ s.pending.map (·.id) ∧ id ∉ s.timers.map (·.id)) ∧
      ((∀ call ∈ s.calls, call.kind.isSend → call.isFinished) → s.pending = [] ∧ s.timers = []) := by
  intro s
  have h : s.Sound := Sound.init.run config events
  have htimers := h.table.timers_eq
  refine ⟨h.table.completions_le, htimers, h.table.pending_nodup, ?_, ?_⟩
  · intro id c call hr hc hf
    have hid := h.not_pending hr hc hf
    exact ⟨hid, htimers ▸ hid⟩
  · intro hdone
    have hempty := h.pending_eq_nil hdone
    rw [hempty] at htimers
    exact ⟨hempty, List.map_eq_nil_iff.mp htimers⟩

/-- A command is sent, its timer fires before the caller waits for the answer, and then the caller
is told; the connection stays. -/
theorem answers_completed_once_and_commands_cleared_expired :
    let s := run {} {} [.arrive (.send "ping" .null), .resume 0, .attemptRuns 0,
      .handshakeEnds 0 .opened, .attemptRuns 0, .resume 0, .timerFires 0, .writeEnds 0 true,
      .resume 0]
    s.completions 0 = 1 ∧ 0 ∉ s.pending.map (·.id) ∧ 0 ∉ s.timers.map (·.id) ∧
      s.pending = [] ∧ s.timers = [] := by
  intro s
  obtain ⟨-, -, -, hfinished, hidle⟩ := answers_completed_once_and_commands_cleared {}
    [.arrive (.send "ping" .null), .resume 0, .attemptRuns 0, .handshakeEnds 0 .opened,
      .attemptRuns 0, .resume 0, .timerFires 0, .writeEnds 0 true, .resume 0]
  obtain ⟨call, hc, hf⟩ := (Option.any_eq_true _ s.calls[0]?).mp (by decide :
    s.calls[0]?.any (·.isFinished) = true)
  have hr : .registered 0 0 ∈ s.history := List.mem_of_getElem? (show s.history[3]? = _ from rfl)
  have hdone : s.calls.all (·.isFinished) = true := by decide
  refine ⟨by decide, (hfinished 0 0 call hr hc hf).1, (hfinished 0 0 call hr hc hf).2, ?_⟩
  exact hidle fun call hmem _ => List.all_eq_true.mp hdone call hmem

end State

end EditorLink.Session
