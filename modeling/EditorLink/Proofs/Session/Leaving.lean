import EditorLink.Proofs.Session.Decision
import EditorLink.Proofs.Session.Sockets

/-!
# The course of a disconnect

A disconnect that is not cancelled stops the attempt that is unfinished when it begins, detaches the
socket, closes it and stops its reader. `Leaving` says where it stands and what is over by then: while
it waits for an attempt, all others that there were when the call was made; after that, all of them.
From the detachment on, its steps touch nothing but its own call and the socket that it closes.
-/

namespace EditorLink.Session

/-- The socket that a disconnect has detached and still closes. -/
def Call.closes? (call : Call) : Option SocketId :=
  match call.stage with
  | .closing k _ _ => some k
  | .stoppingReader k => some k
  | _ => none

/-- Whether a disconnect waits for no attempt any more. -/
def Call.proceeded (call : Call) : Bool :=
  match call.stage with
  | .closing _ _ _ => true
  | .stoppingReader _ => true
  | .finished _ => true
  | _ => false

namespace State

/-- Whether a state differs from another in one call, one socket and the record at most. -/
structure SameBut (s t : State) (c : CallId) (k : SocketId) : Prop where
  session : { t with calls := s.calls, sockets := s.sockets, history := s.history } = s
  calls : ∀ d, c ≠ d → t.calls[d]? = s.calls[d]?
  sockets : ∀ j, k ≠ j → t.sockets[j]? = s.sockets[j]?

/-- What a disconnect has before it when it detaches the socket. -/
structure Detaching (s u : State) (c : CallId) : Prop where
  table : u.TableSound
  socket : u.socket = s.socket
  reader : u.reader = s.reader
  sockets : u.sockets = s.sockets
  call : ∃ kind stage, u.calls[c]? = some ⟨kind, stage, false⟩ ∧
    Call.flight? ⟨kind, stage, false⟩ = none

variable (config : Config) {s t u : State} {a b : AttemptId} {c : CallId} {call : Call}
  {kind : CallKind} {stage : CallStage} {asked : Bool} {k : SocketId} {events later : List Event}
  {event : Event} {n : Nat}

/-! ## Detachments -/

theorem step_of_not_admits (hadmits : s.admits event = false) : s.step config event = s :=
  if_neg (Bool.not_eq_true _ ▸ hadmits)

theorem attempts_step_length (s : State) (event : Event) :
    s.attempts.length ≤ (s.step config event).attempts.length := by
  rcases advances_step config s event with ⟨a, f, heq, -⟩ | heq
  · rw [heq, List.length_modify]
  · rw [heq, List.length_append]
    exact Nat.le_add_right _ _

theorem afterStop_of_escapes {result : AttemptResult} (hescapes : result.escapes) :
    ∃ message, result = .failed (.unexpected message) ∧
      s.afterStop c a result = s.finishCall c (.failed (.attempt (.unexpected message))) := by
  unfold AttemptResult.escapes at hescapes
  split at hescapes
  · exact ⟨_, rfl, rfl⟩
  · cases hescapes

theorem callCanRun_stopping {asked : Bool}
    (hc : s.calls[c]? = some ⟨kind, .stoppingAttempt a, asked⟩) :
    s.callCanRun c = (s.attemptResult? a).isSome := by
  rw [callCanRun, hc]

theorem step_of_isDisconnect (hc : s.calls[c]? = some ⟨kind, .arrived, false⟩)
    (hkind : kind.isDisconnect) : s.step config (.resume c) = s.disconnect c := by
  rw [step_resume_arrived config hc]
  cases kind with
  | disconnect | leave => rfl
  | _ => cases hkind

theorem callCanRun_of_detaches (hd : s.detaches c) : s.callCanRun c := by
  cases hc : s.calls[c]? with
  | none =>
    rw [detaches, hc] at hd
    cases hd
  | some call =>
    rw [detaches_eq hc] at hd
    obtain ⟨kind, stage, asked⟩ := call
    rw [callCanRun, hc]
    cases stage with
    | arrived => rfl
    | stoppingAttempt a =>
      obtain ⟨result, hr, -⟩ := (Option.any_eq_true _ _).mp hd
      dsimp only
      rw [hr]
      rfl
    | _ => cases hd

/-- A disconnect that detaches does so in its next step. -/
theorem step_of_detaches (h : s.TableSound) (hd : s.detaches c) :
    ∃ u, s.Detaching u c ∧ s.step config (.resume c) = u.detach c := by
  have hturn := turn_runCall config s c
  rw [step_resume config (callCanRun_of_detaches hd)]
  rw [hd] at hturn
  generalize s.runCall config c = t at hturn ⊢
  cases hturn with
  | @detaches call current hc hf hcurrent =>
    have hforgotten : TableSound { s with current } := h.quiet (.of_eq rfl rfl rfl rfl rfl rfl)
    have hcleared : ({ s with current }.setCall c fun call =>
        { call with cancelRequested := false }).calls[c]? =
          some { call with cancelRequested := false } := by
      rw [calls_setCall_self]
      exact congrArg (Option.map _) hc
    exact ⟨_, ⟨tableSound_clear hforgotten (idle_of_getElem? hc hf), rfl, rfl, rfl, call.kind,
      call.stage, hcleared, hf⟩, rfl⟩

/-- Where the disconnect stands when it has detached the socket: it waits for the close, or there was
no socket and it is done. -/
theorem Detaching.calls_detach (hu : s.Detaching u c) (hreader : s.reader = s.socket) :
    ∃ kind, (u.detach c).calls[c]? = some ⟨kind,
      match s.socket with
      | none => .finished .done
      | some k => .closing k (some k) false, false⟩ := by
  obtain ⟨kind, stage, hc, hf⟩ := hu.call
  have hdrop := calls_drop (c := c) hu.table false
    { u.link with socket := none, reader := none, phase := .disconnected }
  rw [hc, Option.map_some, Call.hear_of_awaited?_eq_none (Call.awaited?_eq_none hf)] at hdrop
  refine ⟨kind, ?_⟩
  unfold detach
  dsimp only
  rw [hu.reader, hu.socket, hreader]
  cases s.socket with
  | none => exact (calls_finishCall_self _ c _).trans (congrArg (Option.map _) hdrop)
  | some k => exact (calls_setStage_self _ c _).trans (congrArg (Option.map _) hdrop)

/-- The socket that is detached is closed. -/
theorem Detaching.closeCalled (hu : s.Detaching u c) (hs : s.socket = some k)
    (hlt : k < s.sockets.length) :
    ∃ socket, (u.detach c).sockets[k]? = some socket ∧ socket.closeCalled := by
  have hdrop := congrArg Link.sockets (link_failPending
    { u with socket := none, reader := none, phase := .disconnected } false)
  have hk : ({ u with socket := none, reader := none, phase := .disconnected }.failPending
      false).sockets[k]? = some s.sockets[k] := by
    rw [← List.getElem?_eq_getElem hlt, ← hu.sockets]
    exact congrArg (·[k]?) hdrop
  unfold detach
  dsimp only
  rw [hu.socket, hs]
  dsimp only
  refine ⟨{ s.sockets[k] with closeCalled := true }, ?_, rfl⟩
  refine (sockets_setSocket _ k k _).trans ?_
  rw [if_pos rfl, hk]
  rfl

/-- A disconnect that begins and detaches has no unfinished attempt before it. -/
theorem finished_of_detachesAtOnce (h : s.link.Sound) (hat : s.detachesAtOnce)
    (hlt : a < s.attempts.length) : (s.attemptResult? a).isSome := by
  have ha : s.attempts[a]? = some s.attempts[a] := List.getElem?_eq_getElem hlt
  rw [attemptResult?_of_getElem? ha]
  cases hr : s.attempts[a].result? with
  | some result => rfl
  | none =>
    have hcur : s.current = some a := (h.unfinished a _ ha hr).1
    rw [detachesAtOnce, hcur] at hat
    dsimp only at hat
    rw [attemptResult?_of_getElem? ha, hr] at hat
    cases hat

/-- There is no socket while the current attempt is unfinished, or as long as its end without a
connection is unnoticed. -/
theorem socket_eq_none_of_current (h : s.link.Sound) (hcur : s.current = some a)
    (hne : s.attemptResult? a ≠ some .connected) : s.socket = none := by
  obtain ⟨attempt, ha⟩ : ∃ attempt, s.attempts[a]? = some attempt :=
    ⟨_, List.getElem?_eq_getElem (h.current_lt a hcur)⟩
  rw [attemptResult?_of_getElem? ha] at hne
  cases hr : attempt.result? with
  | none => exact (h.unfinished a attempt ha hr).2
  | some result => exact h.failed a attempt result hcur ha hr fun heq => hne (heq ▸ hr)

/-- A disconnect that begins and does not detach stops the attempt that is unfinished, or fails as
the attempt did. -/
theorem step_arrived_cases (hc : s.calls[c]? = some ⟨kind, .arrived, false⟩)
    (hkind : kind.isDisconnect) (hd : s.detaches c = false) : ∃ a, s.current = some a ∧
      ((s.attemptResult? a = none ∧
          s.step config (.resume c) = (s.stopAttempt a).setStage c (.stoppingAttempt a)) ∨
        ∃ message, s.attemptResult? a = some (.failed (.unexpected message)) ∧
          s.step config (.resume c) =
            s.finishCall c (.failed (.attempt (.unexpected message)))) := by
  have hat : s.detachesAtOnce = false := by
    rw [detaches_eq hc] at hd
    dsimp only at hd
    rwa [hkind] at hd
  rw [step_of_isDisconnect config hc hkind, disconnect]
  cases hcur : s.current with
  | none =>
    rw [detachesAtOnce, hcur] at hat
    cases hat
  | some a =>
    rw [detachesAtOnce, hcur] at hat
    dsimp only at hat ⊢
    refine ⟨a, rfl, ?_⟩
    cases hr : s.attemptResult? a with
    | none => exact .inl ⟨rfl, rfl⟩
    | some result =>
      rw [hr, Option.any_some] at hat
      obtain ⟨message, rfl, heq⟩ := afterStop_of_escapes (c := c) (a := a) (s := s)
        (by simpa using hat)
      exact .inr ⟨message, rfl, heq⟩

/-- A disconnect that waits for an attempt and does not detach waits on, or fails as the attempt
did. -/
theorem step_stopping_cases (hc : s.calls[c]? = some ⟨kind, .stoppingAttempt a, false⟩)
    (hd : s.detaches c = false) : s.step config (.resume c) = s ∨
      ∃ message, s.attemptResult? a = some (.failed (.unexpected message)) ∧
        s.step config (.resume c) = s.finishCall c (.failed (.attempt (.unexpected message))) := by
  have hcan := callCanRun_stopping hc
  cases hr : s.attemptResult? a with
  | none =>
    rw [hr] at hcan
    exact .inl (step_resume_of_not config hcan)
  | some result =>
    rw [hr] at hcan
    rw [detaches_eq hc] at hd
    dsimp only at hd
    rw [hr, Option.any_some] at hd
    obtain ⟨message, rfl, heq⟩ := afterStop_of_escapes (c := c) (a := a) (s := s) (by simpa using hd)
    refine .inr ⟨message, rfl, ?_⟩
    rw [step_resume config hcan, runCall, hc]
    dsimp only
    rw [hr]
    exact heq

theorem step_closeEnds {reader : Option SocketId}
    (hc : s.calls[c]? = some ⟨kind, .closing k reader false, asked⟩) :
    s.step config (.closeEnds c) = (s.setStage c (.closing k reader true)).setSocket k
      fun socket => { socket with state := .closed } := by
  have hcloses : (s.setCall c fun call =>
      { call with stage := .closing k reader true }).closingSocket? c = some k := by
    rw [closingSocket?, calls_setCall_self, hc]
    rfl
  rw [step, admits, hc, if_pos rfl, act,
    setCall_congr (g := fun call => { call with stage := .closing k reader true }) ?_]
  · rw [hcloses]
    rfl
  · intro call hcall
    obtain rfl := Option.some.inj (hc.symm.trans hcall)
    rfl

/-! ## The course -/

/-- In a run, a call detached the socket. -/
def Detaches (events : List Event) (c : CallId) : Prop :=
  ∃ before after, events = before ++ .resume c :: after ∧ (run config {} before).detaches c

/-- Where a disconnect can stand after a run, when there were `n` attempts as the call was made. -/
inductive Leaving (events : List Event) (c : CallId) (n : Nat) : Call → Prop
  | arrived {kind : CallKind} (hkind : kind.isDisconnect)
      (hn : n ≤ (run config {} events).attempts.length) :
      Leaving events c n ⟨kind, .arrived, false⟩
  | stopping {kind : CallKind} {a : AttemptId} (hover : ∀ b < n, b ≠ a → Over config events b) :
      Leaving events c n ⟨kind, .stoppingAttempt a, false⟩
  | closing {kind : CallKind} {k : SocketId} {closed : Bool} (hdetached : Detaches config events c)
      (hover : ∀ b < n, Over config events b) (hk : (run config {} events).Former k) :
      Leaving events c n ⟨kind, .closing k (some k) closed, false⟩
  | stoppingReader {kind : CallKind} {k : SocketId} (hdetached : Detaches config events c)
      (hover : ∀ b < n, Over config events b) (hk : (run config {} events).Former k) :
      Leaving events c n ⟨kind, .stoppingReader k, false⟩
  | finished {kind : CallKind} {result : CallResult} (hover : ∀ b < n, Over config events b)
      (hresult : Detaches config events c ∨
        ∃ message, result = .failed (.attempt (.unexpected message))) :
      Leaving events c n ⟨kind, .finished result, false⟩

variable {config}

theorem Detaches.append (h : Detaches config events c) (later : List Event) :
    Detaches config (events ++ later) c := by
  obtain ⟨before, after, rfl, hd⟩ := h
  exact ⟨before, after ++ later, by simp, hd⟩

namespace Leaving

theorem flight?_eq_none (h : Leaving config events c n call) : call.flight? = none := by
  cases h <;> rfl

/-- As long as a disconnect stands where it is, the course goes on. -/
theorem append_singleton (h : Leaving config events c n call) (event : Event) :
    Leaving config (events ++ [event]) c n call := by
  have hformer : ∀ k, (run config {} events).Former k →
      (run config {} (events ++ [event])).Former k := by
    intro k hk
    rw [run_append_singleton]
    exact hk.step config event
  cases h with
  | arrived hkind hn =>
    refine .arrived hkind (Nat.le_trans hn ?_)
    rw [run_append_singleton]
    exact attempts_step_length config _ event
  | stopping hover => exact .stopping fun b hb hne => (hover b hb hne).append_singleton event
  | closing hdetached hover hk =>
    exact .closing (hdetached.append _) (fun b hb => (hover b hb).append_singleton event)
      (hformer _ hk)
  | stoppingReader hdetached hover hk =>
    exact .stoppingReader (hdetached.append _) (fun b hb => (hover b hb).append_singleton event)
      (hformer _ hk)
  | finished hover hresult =>
    exact .finished (fun b hb => (hover b hb).append_singleton event)
      (hresult.imp_left (·.append _))

/-- An event that leaves the session as it is leaves a disconnect where it stands. -/
theorem stays (hc : (run config {} events).calls[c]? = some call)
    (hl : Leaving config events c n call)
    (hsame : (run config {} events).step config event = run config {} events) :
    ∃ new, (run config {} (events ++ [event])).calls[c]? = some new ∧
      Leaving config (events ++ [event]) c n new := by
  refine ⟨call, ?_, hl.append_singleton event⟩
  rw [run_append_singleton, hsame, hc]

/-- An attempt that has finished is over after a step that leaves no current socket. -/
theorem over_of_step (hr : ((run config {} events).attemptResult? a).isSome)
    (hs : ((run config {} events).step config event).socket = none) :
    Over config (events ++ [event]) a := by
  obtain ⟨result, hr⟩ := Option.isSome_iff_exists.mp hr
  refine .of_socket_eq_none ?_ ?_
  · rw [run_append_singleton]
    exact hs
  · rw [run_append_singleton, attemptResult?_step config hr event]
    rfl

/-- A disconnect does not detach before the attempts that there were as it was called have
finished. -/
theorem finished_of_detaches (hc : (run config {} events).calls[c]? = some call)
    (hl : Leaving config events c n call) (hd : (run config {} events).detaches c) (hb : b < n) :
    ((run config {} events).attemptResult? b).isSome := by
  rw [detaches_eq hc] at hd
  cases hl with
  | arrived hkind hn =>
    exact finished_of_detachesAtOnce (Sound.init.run config events).link
      (Bool.and_eq_true_iff.mp hd).2 (Nat.lt_of_lt_of_le hb hn)
  | @stopping kind a hover =>
    by_cases hba : b = a
    · obtain ⟨result, hr, -⟩ := (Option.any_eq_true _ _).mp hd
      rw [hba, hr]
      rfl
    · exact (hover b hb hba).finished
  | _ => cases hd

/-- The step of a disconnect that detaches. -/
theorem resume_of_detaches (hc : (run config {} events).calls[c]? = some call)
    (hl : Leaving config events c n call) (hd : (run config {} events).detaches c) :
    ∃ new, (run config {} (events ++ [.resume c])).calls[c]? = some new ∧
      Leaving config (events ++ [.resume c]) c n new := by
  have h : (run config {} events).Sound := Sound.init.run config events
  obtain ⟨u, hu, hstep⟩ := step_of_detaches config h.table hd
  have hnone : ((run config {} events).step config (.resume c)).socket = none := by
    rw [hstep]
    exact socket_detach u c
  have hover : ∀ b < n, Over config (events ++ [.resume c]) b :=
    fun b hb => over_of_step (hl.finished_of_detaches hc hd hb) hnone
  have hdetached : Detaches config (events ++ [.resume c]) c := ⟨events, [], rfl, hd⟩
  obtain ⟨kind, hnew⟩ := hu.calls_detach h.link.reader_eq
  rw [run_append_singleton, hstep]
  refine ⟨_, hnew, ?_⟩
  cases hs : (run config {} events).socket with
  | none => exact .finished hover (.inl hdetached)
  | some k =>
    refine .closing hdetached hover ?_
    rw [run_append_singleton]
    exact former_of_socket_eq_none hnone
      (Nat.lt_of_lt_of_le (socket_lt config events hs) (sockets_step config _ _))

/-- The step of a disconnect that begins. -/
theorem resume_arrived (hc : (run config {} events).calls[c]? = some ⟨kind, .arrived, false⟩)
    (hkind : kind.isDisconnect) (hn : n ≤ (run config {} events).attempts.length) :
    ∃ new, (run config {} (events ++ [.resume c])).calls[c]? = some new ∧
      Leaving config (events ++ [.resume c]) c n new := by
  have h : (run config {} events).Sound := Sound.init.run config events
  -- An unfinished attempt is the current one.
  have hcurrent : ∀ b < n, ∀ a, (run config {} events).current = some a → b ≠ a →
      ((run config {} events).attemptResult? b).isSome := by
    intro b hb a hcur hne
    obtain ⟨attempt, hattempt⟩ : ∃ attempt, (run config {} events).attempts[b]? = some attempt :=
      ⟨_, List.getElem?_eq_getElem (Nat.lt_of_lt_of_le hb hn)⟩
    rw [attemptResult?_of_getElem? hattempt]
    cases hr : attempt.result? with
    | some result => rfl
    | none =>
      have hcurb := (h.link.unfinished b attempt hattempt hr).1
      exact absurd (Option.some.inj (hcurb.symm.trans hcur)) hne
  cases hd : (run config {} events).detaches c with
  | true => exact (arrived hkind hn).resume_of_detaches hc hd
  | false =>
    obtain ⟨a, hcur, ⟨hr, hstep⟩ | ⟨message, hr, hstep⟩⟩ :=
      step_arrived_cases config hc hkind hd
    · have hnone : (run config {} events).socket = none :=
        socket_eq_none_of_current h.link hcur (by simp [hr])
      have hsocket : ((run config {} events).step config (.resume c)).socket = none := by
        rw [hstep]
        exact (Quiet.stopAttempt _ a).socket.trans hnone
      refine ⟨⟨kind, .stoppingAttempt a, false⟩, ?_, .stopping fun b hb hne =>
        over_of_step (hcurrent b hb a hcur hne) hsocket⟩
      rw [run_append_singleton, hstep, calls_setStage_self, calls_stopAttempt, hc]
      rfl
    · have hnone : (run config {} events).socket = none :=
        socket_eq_none_of_current h.link hcur (by simp [hr])
      have hsocket : ((run config {} events).step config (.resume c)).socket = none := by
        rw [hstep]
        exact hnone
      refine ⟨⟨kind, .finished _, false⟩, ?_, .finished (fun b hb => over_of_step ?_ hsocket)
        (.inr ⟨message, rfl⟩)⟩
      · rw [run_append_singleton, hstep, calls_finishCall_self, hc]
        rfl
      · by_cases hba : b = a
        · rw [hba, hr]
          rfl
        · exact hcurrent b hb a hcur hba

/-- The step of a disconnect that waits for an attempt. -/
theorem resume_stopping
    (hc : (run config {} events).calls[c]? = some ⟨kind, .stoppingAttempt a, false⟩)
    (hover : ∀ b < n, b ≠ a → Over config events b) :
    ∃ new, (run config {} (events ++ [.resume c])).calls[c]? = some new ∧
      Leaving config (events ++ [.resume c]) c n new := by
  cases hd : (run config {} events).detaches c with
  | true => exact (stopping hover).resume_of_detaches hc hd
  | false =>
    rcases step_stopping_cases config hc hd with hsame | ⟨message, hr, hstep⟩
    · exact (stopping hover).stays hc hsame
    · have hlast : ∀ b < n, Over config events b := by
        intro b hb
        by_cases hba : b = a
        · exact .of_not_connected (hba ▸ hr) (by simp)
        · exact hover b hb hba
      refine ⟨⟨kind, .finished _, false⟩, ?_,
        .finished (fun b hb => (hlast b hb).append_singleton _) (.inr ⟨message, rfl⟩)⟩
      rw [run_append_singleton, hstep, calls_finishCall_self, hc]
      rfl

theorem calls_awaitReader_self (hc : s.calls[c]? = some ⟨kind, stage, asked⟩) (k : SocketId) :
    ∃ stage, (s.awaitReader c (some k)).calls[c]? = some ⟨kind, stage, asked⟩ ∧
      ((∃ result, stage = .finished result) ∨ stage = .stoppingReader k) := by
  rcases s.awaitReader_cases c (some k) with ⟨result, heq⟩ | ⟨j, socket, hj, -, -, heq⟩
  · refine ⟨.finished result, ?_, .inl ⟨result, rfl⟩⟩
    rw [heq, calls_finishCall_self, hc]
    rfl
  · obtain rfl := Option.some.inj hj
    refine ⟨.stoppingReader k, ?_, .inr rfl⟩
    rw [heq, calls_setStage_self]
    exact congrArg (Option.map _) hc

/-- The step of a disconnect that closes its socket. -/
theorem resume_closing {closed : Bool}
    (hc : (run config {} events).calls[c]? = some ⟨kind, .closing k (some k) closed, false⟩)
    (hcan : (run config {} events).callCanRun c) (hdetached : Detaches config events c)
    (hover : ∀ b < n, Over config events b) (hk : (run config {} events).Former k) :
    ∃ new, (run config {} (events ++ [.resume c])).calls[c]? = some new ∧
      Leaving config (events ++ [.resume c]) c n new := by
  have hover' : ∀ b < n, Over config (events ++ [.resume c]) b :=
    fun b hb => (hover b hb).append_singleton _
  have hk' : (run config {} (events ++ [.resume c])).Former k := by
    rw [run_append_singleton]
    exact hk.step config _
  have hstep : (run config {} events).step config (.resume c) =
      (run config {} events).awaitReader c (some k) := by
    rw [step_resume config hcan, runCall, hc]
    rfl
  obtain ⟨stage, hnew, ⟨result, rfl⟩ | rfl⟩ := calls_awaitReader_self hc k
  · refine ⟨⟨kind, .finished result, false⟩, ?_, .finished hover' (.inl (hdetached.append _))⟩
    rw [run_append_singleton, hstep]
    exact hnew
  · refine ⟨⟨kind, .stoppingReader k, false⟩, ?_,
      .stoppingReader (hdetached.append _) hover' hk'⟩
    rw [run_append_singleton, hstep]
    exact hnew

theorem resume (hc : (run config {} events).calls[c]? = some call)
    (hl : Leaving config events c n call) :
    ∃ new, (run config {} (events ++ [.resume c])).calls[c]? = some new ∧
      Leaving config (events ++ [.resume c]) c n new := by
  cases hcan : (run config {} events).callCanRun c with
  | false => exact hl.stays hc (step_resume_of_not config hcan)
  | true =>
    cases hl with
    | arrived hkind hn => exact resume_arrived hc hkind hn
    | stopping hover => exact resume_stopping hc hover
    | closing hdetached hover hk => exact resume_closing hc hcan hdetached hover hk
    | @stoppingReader kind k hdetached hover hk =>
      refine ⟨⟨kind, .finished .done, false⟩, ?_,
        .finished (fun b hb => (hover b hb).append_singleton _) (.inl (hdetached.append _))⟩
      rw [run_append_singleton, step_resume config hcan, runCall, hc]
      exact (calls_finishCall_self _ c _).trans (congrArg (Option.map _) hc)
    | finished hover hresult =>
      rw [callCanRun, hc] at hcan
      cases hcan

/-- The close that a disconnect waits for ends, or the event cannot happen. -/
theorem closeEnds (hc : (run config {} events).calls[c]? = some call)
    (hl : Leaving config events c n call) :
    ∃ new, (run config {} (events ++ [.closeEnds c])).calls[c]? = some new ∧
      Leaving config (events ++ [.closeEnds c]) c n new := by
  cases hadmits : (run config {} events).admits (.closeEnds c) with
  | false => exact hl.stays hc (step_of_not_admits config hadmits)
  | true =>
    rw [admits, hc] at hadmits
    cases hl with
    | @closing kind k closed hdetached hover hk =>
      have hstays : Leaving config events c n ⟨kind, .closing k (some k) true, false⟩ :=
        .closing hdetached hover hk
      cases closed with
      | true => cases hadmits
      | false =>
        refine ⟨_, ?_, hstays.append_singleton _⟩
        rw [run_append_singleton, step_closeEnds config hc]
        exact (calls_setStage_self _ c _).trans (congrArg (Option.map _) hc)
    | _ => cases hadmits

/-- Every event but its cancellation keeps a disconnect on its course. -/
theorem step (hc : (run config {} events).calls[c]? = some call)
    (hl : Leaving config events c n call) (hne : event ≠ .cancel c) :
    ∃ new, (run config {} (events ++ [event])).calls[c]? = some new ∧
      Leaving config (events ++ [event]) c n new := by
  have h : (run config {} events).Sound := Sound.init.run config events
  cases hown : event.isOf c with
  | false =>
    -- Other events reach a call by an answer only, and a disconnect waits for none.
    have hcalls := calls_step config h.table hc hown
    rw [Call.told_of_awaited?_eq_none (Call.awaited?_eq_none hl.flight?_eq_none)] at hcalls
    refine ⟨call, ?_, hl.append_singleton event⟩
    rw [run_append_singleton]
    exact hcalls
  | true =>
    cases event with
    | resume d =>
      obtain rfl : d = c := beq_iff_eq.mp hown
      exact resume hc hl
    | cancel d => exact absurd (congrArg Event.cancel (beq_iff_eq.mp hown)) hne
    | writeEnds d written =>
      obtain rfl : d = c := beq_iff_eq.mp hown
      have hnot : (run config {} events).admits (.writeEnds d written) = false := by
        rw [admits, hc]
        cases hl <;> rfl
      exact hl.stays hc (step_of_not_admits config hnot)
    | closeEnds d =>
      obtain rfl : d = c := beq_iff_eq.mp hown
      exact closeEnds hc hl
    | _ => cases hown

theorem run (hc : (run config {} events).calls[c]? = some call)
    (hl : Leaving config events c n call) (hcancel : .cancel c ∉ later) :
    ∃ new, (State.run config {} (events ++ later)).calls[c]? = some new ∧
      Leaving config (events ++ later) c n new := by
  induction later generalizing events call with
  | nil =>
    rw [List.append_nil]
    exact ⟨call, hc, hl⟩
  | cons event later ih =>
    obtain ⟨hne, hrest⟩ := not_or.mp (mt List.mem_cons.mpr hcancel)
    obtain ⟨mid, hmid, hlmid⟩ := hl.step hc (Ne.symm hne)
    rw [List.append_cons]
    exact ih hmid hlmid hrest

end Leaving

end State

end EditorLink.Session
