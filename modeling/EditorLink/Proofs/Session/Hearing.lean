import Mathlib.Logic.Basic
import EditorLink.Proofs.Session.Agreement

/-!
# What calls hear of each other's steps

A call changes by its own steps: when it runs, is cancelled, or the write or the close it waits for
ends. All other events reach it in one way only: they may decide the answer that it waits for. An
answer is decided by a message that names the command, by its timer, by the end of the reading of
the current socket, or by a disconnect that takes the socket away.
-/

namespace EditorLink.Session

/-- Whether an event is a step of a call, or the end of the write or the close it waits for. -/
def Event.isOf (event : Event) (c : CallId) : Bool :=
  match event with
  | .resume d => d == c
  | .cancel d => d == c
  | .writeEnds d _ => d == c
  | .closeEnds d => d == c
  | _ => false

/-- A call after an event that is not its own, which decides some answers. -/
def Call.told (call : Call) (decides : CommandId → Option Answer) : Call :=
  match call.awaited?.bind decides with
  | some answer => call.hear answer
  | none => call

namespace State

/-- The answer that an event decides for a command whose answer is open. -/
def decision? (config : Config) (s : State) (id : CommandId) : Event → Option Answer
  | .message k frame =>
    if frame.breaks config then if s.socket = some k then some (.closed true) else none
    else frame.answerTo? config id
  | .timerFires own => if own = id then some .timedOut else none
  | .readerEnds k => if s.socket = some k then some (.closed true) else none
  | .resume c => if s.detaches c then some (.closed false) else none
  | _ => none

end State

theorem commandName_injective {m n : CommandId} (h : commandName m = commandName n) : m = n := by
  have hrepr : m.repr = n.repr := (String.append_right_inj "cmd_").mp h
  have hdigits : Nat.toDigits 10 m = Nat.toDigits 10 n := by
    rw [← Nat.toList_repr, ← Nat.toList_repr, hrepr]
  rw [← Nat.ofDigitChars_ten_toDigits (n := m), hdigits, Nat.ofDigitChars_ten_toDigits]

namespace Call

theorem told_of_awaited?_eq_none {call : Call} (h : call.awaited? = none)
    (decides : CommandId → Option Answer) : call.told decides = call := by
  rw [told, h]
  rfl

theorem told_of_awaited?_eq_some {call : Call} {id : CommandId} (h : call.awaited? = some id)
    (decides : CommandId → Option Answer) :
    call.told decides = match decides id with
      | some answer => call.hear answer
      | none => call := by
  rw [told, h]
  rfl

@[simp] theorem told_none (call : Call) : call.told (fun _ => none) = call := by
  cases h : call.awaited? with
  | none => exact told_of_awaited?_eq_none h _
  | some id => exact told_of_awaited?_eq_some h _

@[simp] theorem told_some (call : Call) (answer : Answer) :
    call.told (fun _ => some answer) = call.hear answer := by
  cases h : call.awaited? with
  | none => rw [told_of_awaited?_eq_none h, hear_of_awaited?_eq_none h]
  | some id => exact told_of_awaited?_eq_some h _

theorem told_ite (call : Call) (p : Prop) [Decidable p] (answer : Answer) :
    call.told (fun _ => if p then some answer else none) =
      if p then call.hear answer else call := by
  split <;> simp

end Call

namespace State

variable (config : Config) {s : State} {c d : CallId} {call : Call}

/-! ## Steps of other calls -/

theorem calls_discard (s : State) (id : CommandId) : (s.discard id).calls = s.calls := by
  unfold discard
  split <;> rfl

theorem calls_endCommand_of_ne (s : State) (id : CommandId) (result : CallResult) (h : d ≠ c) :
    (s.endCommand d id result).calls[c]? = s.calls[c]? := by
  rw [endCommand, calls_finishCall_of_ne _ _ h, calls_discard]

theorem calls_sendCommand_of_ne (s : State) (commandType : String) (params : Value) (h : d ≠ c) :
    (s.sendCommand config d commandType params).calls[c]? = s.calls[c]? := by
  rcases sendCommand_enrolled config s d commandType params with
    ⟨error, heq⟩ | ⟨k, socket, -, -, -, heq⟩
  · rw [heq]
    exact calls_endCommand_of_ne _ _ _ h
  · rw [heq]
    exact calls_setStage_of_ne _ _ h

theorem calls_joinAttempt (s : State) : s.joinAttempt.1.calls = s.calls :=
  (Quiet.joinAttempt s).calls

theorem calls_awaitReader_of_ne (s : State) (reader : Option SocketId) (h : d ≠ c) :
    (s.awaitReader d reader).calls[c]? = s.calls[c]? := by
  rcases s.awaitReader_cases d reader with ⟨result, heq⟩ | ⟨k, socket, -, -, -, heq⟩
  · rw [heq]
    exact calls_finishCall_of_ne s result h
  · rw [heq]
    exact calls_setStage_of_ne _ _ h

/-- The connection ends: every call that waits for an answer hears of it. -/
theorem calls_drop (h : s.TableSound) (byPeer : Bool) (l : Link) :
    ((s.withLink l).failPending byPeer).calls[c]? =
      s.calls[c]?.map (·.hear (.closed byPeer)) := by
  rw [failPending_withLink]
  exact calls_failPending h byPeer c

theorem calls_detach_of_ne (h : s.TableSound) (hne : d ≠ c) :
    (s.detach d).calls[c]? = s.calls[c]?.map (·.hear (.closed false)) := by
  have hdrop := calls_drop (c := c) h false
    { s.link with socket := none, reader := none, phase := .disconnected }
  unfold detach
  dsimp only
  split
  · exact (calls_awaitReader_of_ne _ _ hne).trans hdrop
  · exact (calls_setStage_of_ne _ _ hne).trans hdrop

theorem calls_stopAttempt (s : State) (a : AttemptId) : (s.stopAttempt a).calls = s.calls :=
  (Quiet.stopAttempt s a).calls

/-- Another call that goes on is heard only when it takes the socket away. -/
theorem Turn.calls_of_ne {config : Config} {detached : Bool} {t : State}
    (ht : s.Turn config d detached t) (h : s.TableSound) (hne : d ≠ c)
    (hc : s.calls[c]? = some call) :
    t.calls[c]? = some (if detached then call.hear (.closed false) else call) := by
  cases ht with
  | stays => exact hc
  | finishes _ _ result => exact (calls_finishCall_of_ne s result hne).trans hc
  | sends => exact (calls_sendCommand_of_ne config s _ _ hne).trans hc
  | awaits => exact (calls_setStage_of_ne s _ hne).trans hc
  | ends _ _ result => exact (calls_endCommand_of_ne s _ result hne).trans hc
  | joins =>
    rw [calls_setStage_of_ne _ _ hne, calls_joinAttempt]
    exact hc
  | stops =>
    rw [calls_setStage_of_ne _ _ hne, calls_stopAttempt]
    exact hc
  | detaches current hd hf _ =>
    have hforgotten : ({ s with current } : State).TableSound :=
      h.quiet (.of_eq rfl rfl rfl rfl rfl rfl)
    rw [calls_detach_of_ne (tableSound_clear hforgotten (idle_of_getElem? hd hf)) hne,
      calls_setCall_of_ne _ _ hne]
    exact congrArg (Option.map _) hc
  | closes => exact (calls_awaitReader_of_ne s _ hne).trans hc

theorem Cancels.calls_of_ne {t : State} (ht : s.Cancels d t) (h : d ≠ c) :
    t.calls[c]? = s.calls[c]? := by
  cases ht with
  | stays => rfl
  | asks | withdraws => exact calls_setCall_of_ne s _ h
  | passes => rw [calls_stopAttempt]

/-! ## Attempts -/

theorem AttemptTurn.calls {a : AttemptId} {t : State} (ht : s.AttemptTurn a t) :
    t.calls = s.calls := by
  cases ht with
  | stays | drops | connects => rfl
  | proceeds _ _ hu => exact hu.quiet.calls
  | finishes _ _ hu => exact hu.quiet.calls

/-! ## Answers -/

/-- The answer to the entry that a test finds is heard by the call that waits for it. -/
theorem calls_find (h : s.TableSound) (hc : s.calls[c]? = some call) {p : CommandId → Bool}
    (hp : ∀ m n, p m → p n → m = n) (answer : Answer) {decides : CommandId → Option Answer}
    (hdecides : ∀ id, decides id = if p id then some answer else none) :
    (match s.pending.find? fun entry : Pending => p entry.id with
      | some entry => s.answer entry answer
      | none => s).calls[c]? = some (call.told decides) := by
  cases ha : call.awaited? with
  | none =>
    rw [Call.told_of_awaited?_eq_none ha]
    split
    · next entry hfind =>
      rw [calls_answer h (List.mem_of_find?_eq_some hfind), hc]
      split
      · rw [Option.map_some, Call.hear_of_awaited?_eq_none ha]
      · rfl
    · exact hc
  | some id =>
    obtain ⟨own, hown, hid, hcall⟩ := h.awaited_pending c call id hc ha
    rw [Call.told_of_awaited?_eq_some ha, hdecides]
    split
    · next entry hfind =>
      have hmem := List.mem_of_find?_eq_some hfind
      have hentry : p entry.id := List.find?_some (p := fun entry : Pending => p entry.id) hfind
      rw [calls_answer h hmem, hc]
      by_cases hpid : p id
      · have hsame : entry.id = own.id := (hp _ _ hentry hpid).trans hid.symm
        have heq : entry = own := h.entry_unique_of_id hmem hown hsame
        rw [heq, hcall, if_pos rfl, if_pos hpid]
        rfl
      · rw [if_neg hpid]
        split
        · next hec =>
          have heq : entry = own := h.entry_unique hmem hown (hec.trans hcall.symm)
          exact absurd (hid ▸ heq ▸ hentry) hpid
        · rfl
    · next hfind =>
      have hnot : ¬ p id := by
        rw [← hid]
        exact List.find?_eq_none.mp hfind own hown
      rw [if_neg hnot]
      exact hc

theorem calls_deliver (h : s.TableSound) (hc : s.calls[c]? = some call) (reply : Reply) :
    (s.deliver reply).calls[c]? = some (call.told fun id =>
      if reply.commandName = commandName id then some reply.answer else none) :=
  calls_find h hc (p := fun id => commandName id == reply.commandName)
    (fun _ _ hm hn => commandName_injective ((beq_iff_eq.mp hm).trans (beq_iff_eq.mp hn).symm))
    reply.answer fun _ => if_congr (eq_comm.trans beq_iff_eq.symm) rfl rfl

theorem calls_expire (h : s.TableSound) (hc : s.calls[c]? = some call) (own : CommandId) :
    (s.expire own).calls[c]? =
      some (call.told fun id => if own = id then some .timedOut else none) := by
  have hfind := calls_find h hc (p := fun id => id == own)
    (fun _ _ hm hn => (beq_iff_eq.mp hm).trans (beq_iff_eq.mp hn).symm) .timedOut
    fun _ => if_congr (eq_comm.trans beq_iff_eq.symm) rfl rfl
  unfold expire findPending?
  cases hfound : s.pending.find? fun entry => entry.id == own with
  | some entry =>
    rw [hfound] at hfind
    exact hfind
  | none =>
    rw [hfound] at hfind
    exact hfind

theorem calls_endReader (h : s.TableSound) (hc : s.calls[c]? = some call) (k : SocketId)
    (fault : Option FrameError) : (s.endReader k fault).calls[c]? =
      some (if s.socket = some k then call.hear (.closed true) else call) := by
  have hended := h.quiet (Quiet.setSocket k fun socket => { socket with reader := .ended fault })
  unfold endReader
  dsimp only
  split
  · next hs =>
    have hdrop := calls_drop (c := c) hended true
      { (s.setSocket k fun socket => { socket with reader := .ended fault }).link with
        socket := none, reader := none, phase := .disconnected }
    rw [show (s.setSocket k fun socket => { socket with reader := .ended fault }).calls[c]? =
      some call from hc] at hdrop
    rw [if_pos (show s.socket = some k from hs)]
    exact hdrop
  · next hs =>
    rw [if_neg (show s.socket ≠ some k from hs)]
    exact hc

theorem calls_receive (h : s.TableSound) (hc : s.calls[c]? = some call) (config : Config)
    (k : SocketId) (frame : Frame) : (s.receive config k frame).calls[c]? = some (call.told fun id =>
      if frame.breaks config then if s.socket = some k then some (.closed true) else none
      else frame.answerTo? config id) := by
  unfold receive
  split
  · next fields hd =>
    have hnot : frame.breaks config = false := by rw [Frame.breaks, hd]
    simp only [hnot, Frame.answerTo?_eq hd]
    cases hreply : replyOf? fields with
    | none => simpa using hc
    | some reply => exact calls_deliver h hc reply
  · next error hd =>
    have hbreaks : frame.breaks config = error.breaksReader := by rw [Frame.breaks, hd]
    split
    · next he =>
      simp only [hbreaks, he]
      rw [calls_endReader h hc]
      exact congrArg some (call.told_ite _ _).symm
    · next he =>
      have hanswer : ∀ id, frame.answerTo? config id = none := fun id => by
        rw [Frame.answerTo?, hd]
      simp only [hbreaks, he, hanswer]
      simpa using hc

/-! ## Steps -/

/-- An event that is not a call's own reaches the call only by the answers it decides. -/
theorem calls_act (h : s.TableSound) (hc : s.calls[c]? = some call) {event : Event}
    (hown : event.isOf c = false) : (s.act config event).calls[c]? =
      some (call.told fun id => s.decision? config id event) := by
  cases event with
  | resume d =>
    have hne : d ≠ c := by simpa [Event.isOf] using hown
    exact ((turn_runCall config s d).calls_of_ne h hne hc).trans (congrArg some (call.told_ite _ _).symm)
  | message k frame => exact calls_receive h hc config k frame
  | readerEnds k =>
    exact (calls_endReader h hc k none).trans (congrArg some (call.told_ite _ _).symm)
  | timerFires id => exact calls_expire h hc id
  | arrive kind =>
    obtain ⟨hlt, -⟩ := List.getElem?_eq_some_iff.mp hc
    exact ((List.getElem?_append_left hlt).trans hc).trans (congrArg some call.told_none.symm)
  | cancel d =>
    have hne : d ≠ c := by simpa [Event.isOf] using hown
    exact ((cancels_cancelCall s d).calls_of_ne hne).trans (hc.trans (congrArg some call.told_none.symm))
  | attemptRuns a =>
    rw [act, (attemptTurn_runAttempt config s a).calls]
    exact hc.trans (congrArg some call.told_none.symm)
  | writeEnds d written =>
    have hne : d ≠ c := by simpa [Event.isOf] using hown
    exact (calls_setCall_of_ne s _ hne).trans (hc.trans (congrArg some call.told_none.symm))
  | closeEnds d =>
    have hne : d ≠ c := by simpa [Event.isOf] using hown
    have hstays := hc.trans (congrArg some call.told_none.symm)
    dsimp only [act]
    split
    · exact (calls_setCall_of_ne s _ hne).trans hstays
    · exact (calls_setCall_of_ne s _ hne).trans hstays
  | _ => exact hc.trans (congrArg some call.told_none.symm)

theorem calls_step (h : s.TableSound) (hc : s.calls[c]? = some call) {event : Event}
    (hown : event.isOf c = false) : (s.step config event).calls[c]? =
      some (call.told fun id => if s.admits event then s.decision? config id event else none) := by
  unfold step
  split
  · exact calls_act config h hc hown
  · exact hc.trans (congrArg some call.told_none.symm)

end State

end EditorLink.Session
