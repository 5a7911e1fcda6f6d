import EditorLink.Proofs.Session.Decision

/-!
# What a message can do

A message can answer a command by its name; every other message is dropped, and the reading of its
socket goes on. There is one way out: the reading of a message stops at a limit, for the digits of a
whole number or for lists and objects inside each other, and this is not among the errors that are
expected of a bad text. Such a message ends the reading of its socket, and with the current socket
the connection ends.
-/

namespace EditorLink.Session

/-- Whether a message is an object that names a command by a string. -/
def Frame.Names (config : Config) (frame : Frame) (name : String) : Prop :=
  ∃ fields, frame.decode config.nesting = .ok fields ∧ fields.get? "commandId" = some (.str name)

theorem Frame.names_of_answerTo? {config : Config} {frame : Frame} {id : CommandId}
    {answer : Answer} (h : frame.answerTo? config id = some answer) :
    frame.Names config (commandName id) := by
  unfold Frame.answerTo? at h
  split at h
  · cases h
  · next fields hd =>
    split at h
    · next name hname =>
      split at h
      · next heq => exact ⟨fields, hd, heq ▸ hname⟩
      · cases h
    · cases h

namespace State

variable {config : Config} {s : State} {k : SocketId} {frame : Frame}

/-! ## Messages that are dropped -/

/-- A message that does not break the reader and names no pending command changes nothing. -/
theorem receive_of_unnamed (hb : frame.breaks config = false)
    (hnot : ∀ entry ∈ s.pending, ¬ frame.Names config (commandName entry.id)) :
    s.receive config k frame = s := by
  rcases receive_of_breaks_eq_false s k hb with ⟨heq, -⟩ | ⟨entry, he, answer, hsome, -⟩
  · exact heq
  · exact absurd (Frame.names_of_answerTo? hsome) (hnot entry he)

/-- A message that does not break the reader leaves the link alone, whatever it answers. -/
theorem link_receive (hb : frame.breaks config = false) :
    (s.receive config k frame).link = s.link := by
  rcases receive_of_breaks_eq_false s k hb with ⟨heq, -⟩ | ⟨entry, -, answer, -, heq⟩
  · rw [heq]
  · rw [heq, link_answer]

theorem link_message (hb : frame.breaks config = false) :
    (s.step config (.message k frame)).link = s.link := by
  unfold step
  split
  · exact link_receive hb
  · rfl

/-! ## Messages that break the reader -/

/-- The reading of a socket ends, whether or not the socket is current. -/
theorem sockets_endReader_eq (s : State) (k : SocketId) (fault : Option FrameError) :
    (s.endReader k fault).sockets =
      s.sockets.modify k fun socket => { socket with reader := .ended fault } := by
  unfold endReader
  dsimp only
  split
  · exact congrArg Link.sockets (link_failPending _ true)
  · rfl

/-- No message is taken from a socket whose reading has ended. -/
theorem admits_message_endReader (s : State) (k : SocketId) (fault : Option FrameError)
    (next : Frame) : (s.endReader k fault).admits (.message k next) = false := by
  rw [admits, sockets_endReader_eq, List.getElem?_modify_eq]
  cases s.sockets[k]? with
  | none => rfl
  | some socket => rfl

/-- With the reading of the current socket the connection ends. -/
theorem link_endReader_of_eq (h : s.socket = some k) (fault : Option FrameError) :
    (s.endReader k fault).phase = .disconnected ∧ (s.endReader k fault).socket = none ∧
      (s.endReader k fault).reader = none := by
  have hlink : (s.endReader k fault).link = { s.link with
      socket := none, reader := none, phase := .disconnected
      sockets := s.sockets.modify k fun socket => { socket with reader := .ended fault } } := by
    rw [endReader]
    dsimp only
    rw [if_pos (show (s.setSocket k _).socket = some k from h), link_failPending]
    rfl
  exact ⟨congrArg Link.phase hlink, congrArg Link.socket hlink, congrArg Link.reader hlink⟩

/-- With the reading of the current socket no command stays pending. -/
theorem table_endReader_of_eq (hs : s.TableSound) (h : s.socket = some k)
    (fault : Option FrameError) :
    (s.endReader k fault).pending = [] ∧ (s.endReader k fault).timers = [] := by
  have hsound : (s.endReader k fault).TableSound := tableSound_endReader hs k fault
  have hempty : (s.endReader k fault).pending = [] :=
    hsound.pending_eq_nil (link_endReader_of_eq h fault).2.1
  have htimers := hsound.timers_eq
  rw [hempty] at htimers
  exact ⟨hempty, List.map_eq_nil_iff.mp htimers⟩

/-- In every state, a message that does not break the reader changes nothing unless it names a
pending command, and the reading of the sockets goes on in any case. A message breaks the reader
just when its own reading stops at a limit: at a whole number with too many digits, or at a list or
an object inside too many of them. In every run such a message ends the reading of its socket; if the
socket is current, the session is disconnected, nothing is pending or armed, and every caller that
waits for an answer is told that the connection is closed. -/
theorem message_dropped_unless_named_or_beyond_limit (config : Config) :
    (∀ (s : State) (k : SocketId) (frame : Frame), frame.breaks config = false →
      let t := s.step config (.message k frame)
      ((∀ entry ∈ s.pending, ¬ frame.Names config (commandName entry.id)) → t = s) ∧
        t.link = s.link ∧
        ∀ (j : SocketId) (next : Frame), t.admits (.message j next) = s.admits (.message j next)) ∧
    (∀ frame : Frame, frame.breaks config ↔
      (∃ digits, Json.maxIntegerDigits < digits ∧
        Json.read config.nesting frame.chars = .error (.oversizedInteger digits)) ∨
      ∃ container, config.nesting < frame.chars.countP Json.isOpening ∧
        Json.read config.nesting frame.chars = .error (.tooDeep container)) ∧
    ∀ (events : List Event) (k : SocketId) (frame : Frame), frame.breaks config →
      let s := run config {} events
      s.admits (.message k frame) →
      let t := s.step config (.message k frame)
      ∃ error, frame.decode config.nesting = .error error ∧
        t.sockets = s.sockets.modify k (fun socket =>
          { socket with reader := .ended (some error) }) ∧
        (∀ next, t.admits (.message k next) = false) ∧
        (s.socket = some k → t.phase = .disconnected ∧ t.socket = none ∧ t.reader = none ∧
          t.pending = [] ∧ t.timers = [] ∧ ∀ (c : CallId) (call : Call), s.calls[c]? = some call →
            t.calls[c]? = some (call.hear (.closed true))) ∧
        (s.socket ≠ some k → { t with sockets := s.sockets } = s) := by
  refine ⟨?_, breaks_iff config, ?_⟩
  · intro s k frame hb t
    have hlink : t.link = s.link := link_message hb
    refine ⟨fun hnot => ?_, hlink, fun j next => ?_⟩
    · by_cases hadmits : s.admits (.message k frame)
      · exact (if_pos hadmits).trans (receive_of_unnamed hb hnot)
      · exact if_neg hadmits
    · rw [admits, admits, show t.sockets = s.sockets from congrArg Link.sockets hlink]
  · intro events k frame hb s hadmits t
    have h : s.Sound := Sound.init.run config events
    obtain ⟨error, hd, hreceive⟩ := receive_of_breaks (s := s) (k := k) hb
    have ht : t = s.endReader k (some error) := (if_pos hadmits).trans hreceive
    rw [ht]
    refine ⟨error, hd, sockets_endReader_eq s k _, admits_message_endReader s k _, ?_, ?_⟩
    · intro hs
      obtain ⟨hphase, hsocket, hreader⟩ := link_endReader_of_eq hs (some error)
      obtain ⟨hpending, htimers⟩ := table_endReader_of_eq h.table hs (some error)
      refine ⟨hphase, hsocket, hreader, hpending, htimers, fun c call hc => ?_⟩
      rw [calls_endReader h.table hc, if_pos hs]
    · intro hs
      rw [endReader_of_ne hs]
      rfl

/-- A whole number of 4301 digits comes while a command waits, or more lists are opened than may
stand inside each other: the connection ends, and the command with it. Before that, octets that are
no text change nothing. -/
theorem message_dropped_unless_named_or_beyond_limit_long :
    let s := run {} {} [.arrive (.send "ping" .null), .resume 0, .attemptRuns 0,
      .handshakeEnds 0 .opened, .attemptRuns 0, .resume 0]
    let long : Frame := .text ('1' :: List.replicate Json.maxIntegerDigits '1')
    let deep : Frame := .text (List.replicate 991 '[' ++ [])
    s.pending.length = 1 ∧ s.step {} (.message 0 (.binary [255])) = s ∧
      ∀ frame ∈ [long, deep], (s.step {} (.message 0 frame)).phase = .disconnected ∧
        (s.step {} (.message 0 frame)).pending = [] := by
  intro s long deep
  obtain ⟨hdropped, -, hbroken⟩ := message_dropped_unless_named_or_beyond_limit {}
  have hbinary : ((Frame.binary [255]).decode 990).isOk = false := by decide +kernel
  have hnot : ∀ entry ∈ s.pending, ¬ (Frame.binary [255]).Names {} (commandName entry.id) := by
    rintro entry - ⟨fields, hd, -⟩
    rw [show (Frame.binary [255]).decode 990 = .ok fields from hd] at hbinary
    cases hbinary
  have hlong : long.breaks {} :=
    breaks_of_long_number (by decide) (by decide)
      (fun digit hd => (List.eq_of_mem_replicate hd).symm ▸ (by decide))
      (by rw [List.length_replicate]; exact Nat.lt_succ_self _) {}
  have hdeep : deep.breaks {} := breaks_of_deep (Nat.lt_succ_self _) []
  refine ⟨by decide, (hdropped s 0 (.binary [255]) (by decide +kernel)).1 hnot, ?_⟩
  intro frame hframe
  have hbreaks : frame.breaks {} := by
    rcases List.mem_pair.mp hframe with rfl | rfl
    · exact hlong
    · exact hdeep
  have hadmits : s.admits (.message 0 frame) := by
    show (s.sockets[0]?.any fun socket => socket.reader == .reading) = true
    decide
  obtain ⟨error, -, -, -, hcurrent, -⟩ := hbroken [.arrive (.send "ping" .null), .resume 0,
    .attemptRuns 0, .handshakeEnds 0 .opened, .attemptRuns 0, .resume 0] 0 frame hbreaks hadmits
  obtain ⟨hphase, -, -, hpending, -⟩ := hcurrent (by decide)
  exact ⟨hphase, hpending⟩

end State

end EditorLink.Session
