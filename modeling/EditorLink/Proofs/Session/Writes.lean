import Mathlib.Data.List.Nodup
import EditorLink.Session.Scenario
import EditorLink.Proofs.Session.Decision

/-!
# What is written to sockets

A session numbers its commands in the order in which they are registered, one for each call that
comes to send. A command is written in the step that registers it or never: so nothing is written
twice, and a new connection finds nothing to repeat. What holds of the calls is that one that has
registered a command writes it, waits for it or has ended, and that none of them begins again.
-/

namespace EditorLink.Session

/-- A command that was written to a socket. -/
structure Write where
  socket : SocketId
  id : CommandId
  commandType : String
  params : Value

def Write.envelope (write : Write) : Value :=
  Session.envelope write.id write.commandType write.params

/-- The command that an effect registers, with the call that sends it. -/
def Effect.registration? : Effect → Option (CommandId × CallId)
  | .registered id c => some (id, c)
  | _ => none

def Effect.write? : Effect → Option Write
  | .wrote socket id commandType params => some ⟨socket, id, commandType, params⟩
  | _ => none

/-- Whether an error says that a command was not sent: there was no connection, or its socket was
missing or not open. -/
def CallError.unsent : CallError → Bool
  | .attempt _ => true
  | .attemptCancelled => true
  | .autoConnectOff => true
  | .socketNotOpen => true
  | _ => false

def CallResult.unsent : CallResult → Bool
  | .failed error => error.unsent
  | _ => false

theorem Answer.unsent_toResult (answer : Answer) (commandType : String) :
    (answer.toResult commandType).unsent = false := by
  cases answer <;> rfl

namespace Call

/-- Whether a call stands where a call can stand that has written its command. -/
def written (call : Call) : Bool :=
  match call.stage with
  | .writing _ _ _ _ => true
  | .awaiting _ _ _ => true
  | .finished result => !result.unsent
  | _ => false

theorem not_starting_of_written {call : Call} (h : call.written) : call.starting = false := by
  obtain ⟨kind, stage, asked⟩ := call
  cases stage with
  | arrived => cases h
  | joining a => cases h
  | _ => rfl

theorem not_starting_of_finished {call : Call} (h : call.isFinished) : call.starting = false := by
  obtain ⟨kind, stage, asked⟩ := call
  cases stage with
  | finished result => rfl
  | _ => cases h

theorem written_hear {call : Call} (h : call.written) (answer : Answer) :
    (call.hear answer).written := by
  obtain ⟨kind, stage, asked⟩ := call
  unfold hear
  split
  · cases stage with
    | writing id k ended taken => cases taken <;> exact h
    | awaiting id k taken => cases taken <;> exact h
    | _ => exact h
  · exact h

theorem written_told {call : Call} (h : call.written) (decides : CommandId → Option Answer) :
    (call.told decides).written := by
  unfold told
  split
  · exact written_hear h _
  · exact h

theorem kind_told (call : Call) (decides : CommandId → Option Answer) :
    (call.told decides).kind = call.kind := by
  unfold told
  split
  · exact kind_hear call _
  · rfl

end Call

namespace State

/-- The commands of a session with the calls that send them, oldest first. -/
def registrations (s : State) : List (CommandId × CallId) :=
  (s.history.filterMap Effect.registration?).reverse

/-- What a session has written to its sockets, oldest first. -/
def writes (s : State) : List Write := (s.history.filterMap Effect.write?).reverse

variable (config : Config) {s t : State} {c : CallId} {call : Call}

/-! ## Calls that have sent -/

/-- A call that has sent its command goes on to its end. -/
theorem written_resume (hc : s.calls[c]? = some call) (hw : call.written) :
    ∃ stage, (s.step config (.resume c)).calls[c]? = some { call with stage } ∧
      ({ call with stage } : Call).written := by
  have hend : ∀ (id : CommandId) (result : CallResult), result.unsent = false →
      ∃ stage, (s.endCommand c id result).calls[c]? = some { call with stage } ∧
        ({ call with stage } : Call).written := by
    intro id result hresult
    refine ⟨.finished result, calls_endCommand_self hc id result, ?_⟩
    exact Bool.not_eq_true' _ ▸ hresult
  unfold step
  split
  · rw [act, runCall, hc]
    dsimp only
    split
    · next hstage => rw [Call.written, hstage] at hw; cases hw
    · next a hstage => rw [Call.written, hstage] at hw; cases hw
    · next id k ended answer hstage =>
      split
      · exact hend id _ rfl
      · split
        · exact hend id _ (Answer.unsent_toResult _ _)
        · exact ⟨_, (calls_setStage_self s c _).trans (congrArg (Option.map _) hc), rfl⟩
        · exact hend id _ rfl
        · exact ⟨call.stage, hc, hw⟩
    · next id k answer hstage =>
      split
      · exact hend id _ rfl
      · split
        · exact hend id _ (Answer.unsent_toResult _ _)
        · exact ⟨call.stage, hc, hw⟩
    · next a hstage => rw [Call.written, hstage] at hw; cases hw
    · next k reader closed hstage => rw [Call.written, hstage] at hw; cases hw
    · next k hstage => rw [Call.written, hstage] at hw; cases hw
    · exact ⟨call.stage, hc, hw⟩
  · exact ⟨call.stage, hc, hw⟩

/-- No step takes a call back from where it stands after it has sent its command. -/
theorem written_step (h : s.TableSound) (hc : s.calls[c]? = some call) (hw : call.written)
    (event : Event) :
    ∃ new, (s.step config event).calls[c]? = some new ∧ new.kind = call.kind ∧ new.written := by
  have hself : ∀ f : Call → Call, (s.setCall c f).calls[c]? = some (f call) := fun f =>
    (calls_setCall_self s c f).trans (congrArg (Option.map f) hc)
  cases hown : event.isOf c with
  | false => exact ⟨_, calls_step config h hc hown, call.kind_told _, call.written_told hw _⟩
  | true =>
    cases event with
    | resume d =>
      obtain rfl : d = c := beq_iff_eq.mp hown
      obtain ⟨stage, hstep, hnew⟩ := written_resume config hc hw
      exact ⟨_, hstep, rfl, hnew⟩
    | cancel d =>
      obtain rfl : d = c := beq_iff_eq.mp hown
      have hasked := hself fun call => { call with cancelRequested := true }
      rw [step, admits, if_pos rfl, act, cancelCall, hc]
      dsimp only
      split
      · exact ⟨call, hc, rfl, hw⟩
      · exact ⟨call, hc, rfl, hw⟩
      · next a hstage => rw [Call.written, hstage] at hw; cases hw
      · split
        · exact ⟨_, hasked, rfl, hw⟩
        · exact ⟨_, hasked, rfl, hw⟩
    | writeEnds d ended =>
      obtain rfl : d = c := beq_iff_eq.mp hown
      unfold step
      split
      · refine ⟨_, hself _, ?_⟩
        obtain ⟨kind, stage, asked⟩ := call
        cases stage <;> exact ⟨rfl, hw⟩
      · exact ⟨call, hc, rfl, hw⟩
    | closeEnds d =>
      obtain rfl : d = c := beq_iff_eq.mp hown
      have hnot : s.admits (.closeEnds d) = false := by
        rw [admits, hc]
        obtain ⟨kind, stage, asked⟩ := call
        cases stage with
        | closing k reader closed => cases hw
        | _ => rfl
      rw [step, hnot]
      exact ⟨call, hc, rfl, hw⟩
    | _ => cases hown

/-! ## What a step sends -/

theorem registrations_of_keeps (h : s.Keeps Effect.sends t) :
    t.registrations = s.registrations := by
  refine congrArg List.reverse (h.filterMap_eq fun effect he => ?_)
  cases effect with
  | registered id c => cases he
  | _ => rfl

theorem writes_of_keeps (h : s.Keeps Effect.sends t) : t.writes = s.writes := by
  refine congrArg List.reverse (h.filterMap_eq fun effect he => ?_)
  cases effect with
  | wrote socket id commandType params => cases he
  | _ => rfl

/-- A call that sends its command takes the next number. It writes the command on the current
socket, which is open, or it fails at once and writes nothing. -/
theorem Dispatches.spec (h : Dispatches config s c t) (hs : s.TableSound) :
    ∃ call commandType params, s.calls[c]? = some call ∧ call.starting ∧
      call.kind = .send commandType params ∧ t.nextId = s.nextId + 1 ∧
      t.registrations = s.registrations ++ [(s.nextId, c)] ∧
      (∀ d, c ≠ d → t.calls[d]? = s.calls[d]?) ∧
      ((t.writes = s.writes ∧
          ∃ error, t.calls[c]? = some { call with stage := .finished (.failed error) }) ∨
        ∃ k socket, s.socket = some k ∧ s.sockets[k]? = some socket ∧ socket.state = .opened ∧
          t.writes = s.writes ++ [⟨k, s.nextId, commandType, params⟩] ∧
          t.calls[c]? = some { call with stage := .writing s.nextId k none none }) := by
  obtain ⟨call, commandType, params, hc, hstart, hkind, -, rfl⟩ := h
  have hcalls := fun d => calls_sendCommand_of_ne (c := d) config s commandType params (d := c)
  refine ⟨call, commandType, params, hc, hstart, hkind, ?_⟩
  rcases sendCommand_cases hs config c commandType params with
    ⟨error, heq⟩ | ⟨k, socket, hk, hsocket, hopened, heq⟩
  · refine ⟨by rw [heq]; rfl, ?_, hcalls, .inl ⟨?_, error, ?_⟩⟩
    · rw [heq]
      exact List.reverse_cons
    · rw [heq]
      rfl
    · rw [heq, calls_finishCall_self]
      exact congrArg (Option.map _) hc
  · refine ⟨by rw [heq]; rfl, ?_, hcalls, .inr ⟨k, socket, hk, hsocket, hopened, ?_, ?_⟩⟩
    · rw [heq]
      exact List.reverse_cons
    · rw [heq]
      exact List.reverse_cons
    · rw [heq]
      exact (calls_setStage_self _ c _).trans (congrArg (Option.map _) hc)

/-! ## The order of commands -/

/-- What holds of the commands that a session has sent: they are numbered in order, each has a call
of its own that does not begin again, and what was written is among them, in order. -/
structure Ordered (s : State) : Prop where
  ids : s.registrations.map Prod.fst = List.range s.nextId
  calls_nodup : (s.registrations.map Prod.snd).Nodup
  sent : ∀ r ∈ s.registrations, ∃ call, s.calls[r.2]? = some call ∧ call.kind.isSend ∧
    (call.written ∨ call.isFinished)
  writes_sublist : (s.writes.map (·.id)).Sublist (List.range s.nextId)
  written : ∀ w ∈ s.writes, ∃ c call, (w.id, c) ∈ s.registrations ∧ s.calls[c]? = some call ∧
    call.kind = .send w.commandType w.params ∧ call.written

namespace Ordered

theorem init : ({} : State).Ordered where
  ids := rfl
  calls_nodup := List.nodup_nil
  sent := fun _ hr => by cases hr
  writes_sublist := .refl []
  written := fun _ hw => by cases hw

/-- A call that has registered a command has come to send it. -/
theorem not_starting (h : s.Ordered) {id : CommandId} (hr : (id, c) ∈ s.registrations)
    (hc : s.calls[c]? = some call) : call.starting = false := by
  obtain ⟨other, hother, -, hstage⟩ := h.sent (id, c) hr
  obtain rfl := Option.some.inj (hc.symm.trans hother)
  exact hstage.elim Call.not_starting_of_written Call.not_starting_of_finished

/-- A step that sends nothing keeps the order. -/
theorem keeps (h : s.Ordered) (hs : s.TableSound) {event : Event}
    (hsame : s.Keeps Effect.sends (s.step config event)) : (s.step config event).Ordered where
  ids := by rw [registrations_of_keeps hsame, hsame.nextId]; exact h.ids
  calls_nodup := by rw [registrations_of_keeps hsame]; exact h.calls_nodup
  sent := by
    intro r hr
    rw [registrations_of_keeps hsame] at hr
    obtain ⟨call, hc, hsend, hstage⟩ := h.sent r hr
    rcases hstage with hw | hf
    · obtain ⟨new, hnew, hkind, hwritten⟩ := written_step config hs hc hw event
      exact ⟨new, hnew, hkind ▸ hsend, .inl hwritten⟩
    · exact ⟨call, calls_step_of_finished config hs hc hf event, hsend, .inr hf⟩
  writes_sublist := by rw [writes_of_keeps hsame, hsame.nextId]; exact h.writes_sublist
  written := by
    intro w hw
    rw [writes_of_keeps hsame] at hw
    obtain ⟨c, call, hr, hc, hkind, hwritten⟩ := h.written w hw
    obtain ⟨new, hnew, hk, hnewWritten⟩ := written_step config hs hc hwritten event
    exact ⟨c, new, registrations_of_keeps hsame ▸ hr, hnew, hk.trans hkind, hnewWritten⟩

/-- A call that sends its command keeps the order: it has registered none before. -/
theorem dispatches (h : s.Ordered) (hs : s.TableSound) (hd : Dispatches config s c t) :
    t.Ordered := by
  obtain ⟨call, commandType, params, hc, hstart, hkind, hnext, hregistrations, hcalls, hcase⟩ :=
    hd.spec config hs
  have hother : ∀ r ∈ s.registrations, c ≠ r.2 := by
    rintro ⟨id, d⟩ hr rfl
    rw [h.not_starting hr hc] at hstart
    cases hstart
  have hwrites : t.writes = s.writes ∨
      ∃ k, t.writes = s.writes ++ [⟨k, s.nextId, commandType, params⟩] := by
    rcases hcase with ⟨hw, -⟩ | ⟨k, -, -, -, -, hw, -⟩
    · exact .inl hw
    · exact .inr ⟨k, hw⟩
  have hnew : ∃ new, t.calls[c]? = some new ∧ new.kind = .send commandType params ∧
      (new.written ∨ new.isFinished) ∧ (new.written ∨ t.writes = s.writes) := by
    rcases hcase with ⟨hw, error, hnew⟩ | ⟨k, -, -, -, -, -, hnew⟩
    · exact ⟨_, hnew, hkind, .inr rfl, .inr hw⟩
    · exact ⟨_, hnew, hkind, .inl rfl, .inl rfl⟩
  obtain ⟨new, hnewc, hnewk, hnewstage, hnewwrites⟩ := hnew
  constructor
  · rw [hregistrations, hnext, List.map_append, h.ids, List.range_succ]
    rfl
  · rw [hregistrations, List.map_append, List.nodup_append]
    refine ⟨h.calls_nodup, List.nodup_singleton c, ?_⟩
    intro d hd e he
    obtain ⟨r, hr, rfl⟩ := List.mem_map.mp hd
    obtain rfl := List.mem_singleton.mp he
    exact (hother r hr).symm
  · intro r hr
    rw [hregistrations] at hr
    rcases List.mem_append.mp hr with hr | hr
    · obtain ⟨call, hcall, hrest⟩ := h.sent r hr
      exact ⟨call, (hcalls r.2 (hother r hr)).trans hcall, hrest⟩
    · obtain rfl := List.mem_singleton.mp hr
      exact ⟨new, hnewc, by rw [hnewk]; rfl, hnewstage⟩
  · rw [hnext, List.range_succ]
    rcases hwrites with hw | ⟨k, hw⟩
    · rw [hw]
      exact h.writes_sublist.trans (List.sublist_append_left _ _)
    · rw [hw, List.map_append]
      exact h.writes_sublist.append (.refl _)
  · intro w hw
    have hold : ∀ w ∈ s.writes, ∃ c call, (w.id, c) ∈ t.registrations ∧
        t.calls[c]? = some call ∧ call.kind = .send w.commandType w.params ∧ call.written := by
      intro w hw
      obtain ⟨d, call, hr, hcall, hrest⟩ := h.written w hw
      refine ⟨d, call, ?_, (hcalls d (hother _ hr)).trans hcall, hrest⟩
      rw [hregistrations]
      exact List.mem_append_left _ hr
    rcases hwrites with hsame | ⟨k, happend⟩
    · exact hold w (hsame ▸ hw)
    · rw [happend] at hw
      rcases List.mem_append.mp hw with hw | hw
      · exact hold w hw
      · obtain rfl := List.mem_singleton.mp hw
        have hwritten : new.written := by
          refine hnewwrites.resolve_right fun hsame => ?_
          rw [hsame] at happend
          exact absurd (congrArg List.length happend) (by simp)
        refine ⟨c, new, ?_, hnewc, hnewk, hwritten⟩
        rw [hregistrations]
        exact List.mem_append_right _ (List.mem_singleton.mpr rfl)

theorem step (h : s.Ordered) (hs : s.TableSound) (event : Event) :
    (s.step config event).Ordered := by
  rcases step_sends config s event with hsame | ⟨c, -, hdispatches⟩
  · exact h.keeps config hs hsame
  · exact h.dispatches config hs hdispatches

theorem run (h : s.Ordered) (hs : s.Sound) (events : List Event) :
    (s.run config events).Ordered := by
  induction events generalizing s with
  | nil => exact h
  | cons event events ih => exact ih (h.step config hs.table event) (hs.step config event)

theorem call_unique (h : s.Ordered) {id : CommandId} {d : CallId} (hr : (id, c) ∈ s.registrations)
    (hr' : (id, d) ∈ s.registrations) : c = d := by
  have hnodup : (s.registrations.map Prod.fst).Nodup := h.ids ▸ List.nodup_range
  exact congrArg Prod.snd (List.inj_on_of_nodup_map hnodup hr hr' rfl)

theorem id_unique (h : s.Ordered) {id own : CommandId} (hr : (id, c) ∈ s.registrations)
    (hr' : (own, c) ∈ s.registrations) : id = own :=
  congrArg Prod.fst (List.inj_on_of_nodup_map h.calls_nodup hr hr' rfl)

theorem writes_nodup (h : s.Ordered) : (s.writes.map (·.id)).Nodup :=
  h.writes_sublist.nodup List.nodup_range

/-- A call has written at most once. -/
theorem writes_of_call_le (h : s.Ordered) (c : CallId) :
    s.writes.countP (fun w => (w.id, c) ∈ s.registrations) ≤ 1 := by
  by_cases hnone : ∀ w ∈ s.writes, (w.id, c) ∉ s.registrations
  · rw [List.countP_eq_zero.mpr fun w hw => by simpa using hnone w hw]
    exact Nat.zero_le 1
  · obtain ⟨own, -, hown⟩ : ∃ w ∈ s.writes, (w.id, c) ∈ s.registrations := by
      simpa using hnone
    have hcount : (s.writes.map (·.id)).count own.id ≤ 1 :=
      List.nodup_iff_count_le_one.mp h.writes_nodup own.id
    rw [List.count, List.countP_map] at hcount
    refine Nat.le_trans (List.countP_mono_left fun w _ hw => ?_) hcount
    exact beq_iff_eq.mpr (h.id_unique (of_decide_eq_true hw) hown)

/-- A call that ended without a connection, or without an open socket, has written nothing. -/
theorem not_written (h : s.Ordered) (hc : s.calls[c]? = some call) {error : CallError}
    (hstage : call.stage = .finished (.failed error)) (hunsent : error.unsent) {w : Write}
    (hw : w ∈ s.writes) : (w.id, c) ∉ s.registrations := by
  intro hr
  obtain ⟨d, other, hother, hd, -, hwritten⟩ := h.written w hw
  obtain rfl := h.call_unique hr hother
  obtain rfl := Option.some.inj (hc.symm.trans hd)
  rw [Call.written, hstage] at hwritten
  dsimp only [CallResult.unsent] at hwritten
  rw [hunsent] at hwritten
  cases hwritten

end Ordered

/-- In every run the commands are named in order and each belongs to one sending call. No command is
written twice and no call writes twice; what was written is the command of a call, under its own
name and with its own type and parameters. A call that ended without a connection, or because the
socket was missing or not open, has written nothing. A step writes at most one command: that of the
call which goes on and registers it in this step, on the current socket, which is open. So nothing
that was registered before a reconnect is written after it. -/
theorem commands_written_at_most_once (config : Config) (events : List Event) :
    let s := run config {} events
    (s.registrations.map fun r => commandName r.1) =
        ((List.range s.nextId).map fun n => "cmd_" ++ toString n) ∧
      (s.registrations.map Prod.snd).Nodup ∧
      (∀ r ∈ s.registrations, ∃ call, s.calls[r.2]? = some call ∧ call.kind.isSend) ∧
      (s.writes.map (·.id)).Nodup ∧
      (∀ c, s.writes.countP (fun w => (w.id, c) ∈ s.registrations) ≤ 1) ∧
      (∀ w ∈ s.writes, ∃ c call, (w.id, c) ∈ s.registrations ∧ s.calls[c]? = some call ∧
        call.kind = .send w.commandType w.params ∧
        w.envelope = .obj [("type", .str w.commandType),
          ("params", if w.params.isTruthy then w.params else .obj []),
          ("commandId", .str (commandName w.id))]) ∧
      (∀ (c : CallId) (call : Call) (error : CallError), s.calls[c]? = some call →
        call.stage = .finished (.failed error) → error.unsent →
        ∀ w ∈ s.writes, (w.id, c) ∉ s.registrations) ∧
      ∀ event, let t := s.step config event
        (t.registrations = s.registrations ∧ t.writes = s.writes) ∨
          ∃ c call commandType params, event = .resume c ∧ s.calls[c]? = some call ∧
            call.kind = .send commandType params ∧
            t.registrations = s.registrations ++ [(s.nextId, c)] ∧
            (t.writes = s.writes ∨ ∃ k socket, s.socket = some k ∧ s.sockets[k]? = some socket ∧
              socket.state = .opened ∧
              t.writes = s.writes ++ [⟨k, s.nextId, commandType, params⟩]) := by
  intro s
  have hs : s.Sound := Sound.init.run config events
  have h : s.Ordered := Ordered.init.run config Sound.init events
  refine ⟨?_, h.calls_nodup, ?_, h.writes_nodup, h.writes_of_call_le, ?_, ?_, ?_⟩
  · rw [← h.ids, List.map_map]
    rfl
  · intro r hr
    obtain ⟨call, hc, hsend, -⟩ := h.sent r hr
    exact ⟨call, hc, hsend⟩
  · intro w hw
    obtain ⟨c, call, hr, hc, hkind, -⟩ := h.written w hw
    exact ⟨c, call, hr, hc, hkind, rfl⟩
  · exact fun c call error hc hstage hunsent w hw => h.not_written hc hstage hunsent hw
  · intro event t
    rcases step_sends config s event with hsame | ⟨c, hevent, hdispatches⟩
    · exact .inl ⟨registrations_of_keeps hsame, writes_of_keeps hsame⟩
    · obtain ⟨call, commandType, params, hc, -, hkind, -, hregistrations, -, hcase⟩ :=
        hdispatches.spec config hs.table
      refine .inr ⟨c, call, commandType, params, hevent, hc, hkind, hregistrations, ?_⟩
      rcases hcase with ⟨hw, -⟩ | ⟨k, socket, hk, hsocket, hopened, hw, -⟩
      · exact .inl hw
      · exact .inr ⟨k, socket, hk, hsocket, hopened, hw⟩

/-- The second command finds the socket closing. -/
theorem commands_written_at_most_once_closing :
    let s := run {} {} [.arrive (.send "ping" .null), .resume 0, .attemptRuns 0,
      .handshakeEnds 0 .opened, .attemptRuns 0, .resume 0, .socketTurns 0 .closing,
      .arrive (.send "pong" .null), .resume 1]
    s.registrations = [(0, 0), (1, 1)] ∧ s.writes.map (·.id) = [0] ∧
      ∀ w ∈ s.writes, (w.id, 1) ∉ s.registrations := by
  intro s
  obtain ⟨-, -, -, -, -, -, hunsent, -⟩ := commands_written_at_most_once {}
    [.arrive (.send "ping" .null), .resume 0, .attemptRuns 0, .handshakeEnds 0 .opened,
      .attemptRuns 0, .resume 0, .socketTurns 0 .closing, .arrive (.send "pong" .null), .resume 1]
  have hc : s.calls[1]? =
      some ⟨.send "pong" .null, .finished (.failed .socketNotOpen), false⟩ := rfl
  exact ⟨by decide, by decide, hunsent 1 _ .socketNotOpen hc rfl rfl⟩

end State

end EditorLink.Session
