import Mathlib.Logic.ExistsUnique
import EditorLink.Proofs.Session.Commands

/-!
# Phase, socket and table agree

The phase, the current socket and its reader tell the same story at every moment of a run, and the
pending commands are those that were sent on the current socket. A socket that is no longer current
cannot spoil this: the end of its reader only shows in the socket itself.
-/

namespace EditorLink.Session

/-- Whether an event ends the reading of a socket: by itself, or by a message that breaks it. -/
def Event.endsReading (config : Config) (event : Event) (k : SocketId) : Bool :=
  match event with
  | .readerEnds j => j == k
  | .message j frame => j == k && frame.breaks config
  | _ => false

namespace State

variable {s : State} {c : CallId} {call : Call} {id : CommandId} {k : SocketId}

/-- A message that breaks the reader is read as an error, and ends the reading of its socket. -/
theorem receive_of_breaks {config : Config} {frame : Frame} (h : frame.breaks config) :
    ∃ error, frame.decode config.nesting = .error error ∧
      s.receive config k frame = s.endReader k (some error) := by
  rw [Frame.breaks] at h
  rw [receive]
  cases hd : frame.decode config.nesting with
  | ok fields =>
    rw [hd] at h
    cases h
  | error error =>
    rw [hd] at h
    exact ⟨error, rfl, if_pos h⟩

theorem endReader_of_ne (h : s.socket ≠ some k) (fault : Option FrameError) :
    s.endReader k fault = s.setSocket k fun socket => { socket with reader := .ended fault } :=
  if_neg h

/-- The end of the reading of a socket that is not current changes nothing but this socket. -/
theorem step_of_endsReading (config : Config) {event : Event} (he : event.endsReading config k)
    (hk : s.socket ≠ some k) : s.step config event = s ∨
      ∃ fault, s.step config event =
        s.setSocket k fun socket => { socket with reader := .ended fault } := by
  have hact : ∃ fault, s.act config event = s.endReader k fault := by
    cases event with
    | readerEnds j =>
      obtain rfl : j = k := beq_iff_eq.mp he
      exact ⟨none, rfl⟩
    | message j frame =>
      obtain ⟨hj, hbreaks⟩ := Bool.and_eq_true_iff.mp he
      obtain rfl : j = k := beq_iff_eq.mp hj
      obtain ⟨error, -, heq⟩ := receive_of_breaks hbreaks
      exact ⟨some error, heq⟩
    | _ => cases he
  obtain ⟨fault, hfault⟩ := hact
  unfold step
  split
  · exact .inr ⟨fault, hfault.trans (endReader_of_ne hk fault)⟩
  · exact .inl rfl

namespace Sound

/-- An attempt that runs while the session says that it connects is the only one. -/
theorem connecting (h : s.Sound) (hp : s.phase = .connecting) : s.socket = none ∧
    ∃! a : AttemptId, ∃ attempt : Attempt, s.attempts[a]? = some attempt ∧ attempt.Running := by
  obtain ⟨a, attempt, ha, hrun⟩ := h.link.connecting hp
  obtain ⟨hcur, hs⟩ := h.link.unfinished a attempt ha hrun.1
  refine ⟨hs, a, ⟨attempt, ha, hrun⟩, ?_⟩
  rintro b ⟨other, hb, hrunb⟩
  have hcurb := (h.link.unfinished b other hb hrunb.1).1
  exact Option.some.inj (hcurb.symm.trans hcur)

/-- A command whose answer can still come was sent on the current socket. -/
theorem awaited_socket (h : s.Sound) (hc : s.calls[c]? = some call)
    (ha : call.awaited? = some id) : ∃ k, call.flight? = some ⟨id, k, none⟩ ∧ s.socket = some k := by
  obtain ⟨entry, he, hid, hcall⟩ := h.table.awaited_pending c call id hc ha
  obtain ⟨other, k, hother, hflight, hs, -⟩ := h.table.pending_flies entry he
  rw [hcall] at hother
  obtain rfl := Option.some.inj (hc.symm.trans hother)
  exact ⟨k, hid ▸ hflight, hs⟩

theorem pending_of_not_connected (h : s.Sound) (hp : s.phase ≠ .connected) : s.pending = [] := by
  apply h.table.pending_eq_nil
  cases hs : s.socket with
  | none => rfl
  | some k => exact absurd (h.link.connected_iff.mpr (show s.socket.isSome by rw [hs]; rfl)) hp

end Sound

/-- In every run the session is connected just when it has a socket and just when it has a reader.
While it connects there is no socket, and one attempt runs. Every pending command was sent on the
current socket, so nothing is pending without a connection, and no caller waits for an answer on a
socket that is gone. When the reading of another socket ends, nothing changes but that socket. -/
theorem phase_socket_and_pending_agree (config : Config) (events : List Event) :
    let s := run config {} events
    (s.phase = .connected ↔ s.socket.isSome) ∧ (s.socket.isSome ↔ s.reader.isSome) ∧
      (s.phase = .connecting → s.socket = none ∧
        ∃! a : AttemptId, ∃ attempt : Attempt, s.attempts[a]? = some attempt ∧ attempt.Running) ∧
      (∀ entry ∈ s.pending, ∃ call k, s.calls[entry.call]? = some call ∧
        call.flight? = some ⟨entry.id, k, none⟩ ∧ s.socket = some k) ∧
      (s.phase ≠ .connected → s.pending = []) ∧
      (∀ (c : CallId) (call : Call) (id : CommandId), s.calls[c]? = some call →
        call.awaited? = some id → ∃ k, call.flight? = some ⟨id, k, none⟩ ∧ s.socket = some k) ∧
      ∀ (k : SocketId) (event : Event), event.endsReading config k → s.socket ≠ some k →
        { s.step config event with sockets := s.sockets } = s ∧
          ∀ j, j ≠ k → (s.step config event).sockets[j]? = s.sockets[j]? := by
  intro s
  have h : s.Sound := Sound.init.run config events
  refine ⟨h.link.connected_iff, ?_, h.connecting, ?_, h.pending_of_not_connected, ?_, ?_⟩
  · rw [show s.reader = s.socket from h.link.reader_eq]
  · intro entry he
    obtain ⟨call, k, hc, hflight, hs, -⟩ := h.table.pending_flies entry he
    exact ⟨call, k, hc, hflight, hs⟩
  · exact fun c call id hc ha => h.awaited_socket hc ha
  · intro k event he hk
    rcases step_of_endsReading config he hk with heq | ⟨fault, heq⟩
    · rw [heq]
      exact ⟨rfl, fun _ _ => rfl⟩
    · rw [heq]
      refine ⟨rfl, fun j hj => ?_⟩
      rw [sockets_setSocket, if_neg (Ne.symm hj)]

/-- A disconnect has taken socket 0, and a command waits on socket 1, when the reading of socket 0
ends. -/
theorem phase_socket_and_pending_agree_late :
    let s := run {} {} [.arrive .connect, .resume 0, .attemptRuns 0, .handshakeEnds 0 .opened,
      .attemptRuns 0, .attemptNoticed 0, .arrive .disconnect, .resume 1,
      .arrive (.send "ping" .null), .resume 2, .attemptRuns 1, .handshakeEnds 1 .opened,
      .attemptRuns 1, .resume 2, .socketTurns 0 .closed]
    s.pending.length = 1 ∧ s.admits (.readerEnds 0) ∧
      { s.step {} (.readerEnds 0) with sockets := s.sockets } = s := by
  intro s
  obtain ⟨-, -, -, -, -, -, hlate⟩ := phase_socket_and_pending_agree {} [.arrive .connect,
    .resume 0, .attemptRuns 0, .handshakeEnds 0 .opened, .attemptRuns 0, .attemptNoticed 0,
    .arrive .disconnect, .resume 1, .arrive (.send "ping" .null), .resume 2, .attemptRuns 1,
    .handshakeEnds 1 .opened, .attemptRuns 1, .resume 2, .socketTurns 0 .closed]
  have hsocket : s.socket ≠ some 0 := by decide
  exact ⟨by decide, by decide, (hlate 0 (.readerEnds 0) rfl hsocket).1⟩

end State

end EditorLink.Session
