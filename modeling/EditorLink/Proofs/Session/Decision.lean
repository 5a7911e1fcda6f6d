import EditorLink.Proofs.Json.Limits
import EditorLink.Proofs.Session.Registration

/-!
# The first decision settles a command

From its registration on, a command that is not given up by its caller takes the course that two
things determine: how its write ends, and the first decision about its answer. Later decisions find
the answer taken, and events that decide nothing about the command do not touch it. A message
decides about the command that it names, and about no other; a message that breaks the reader of the
current socket closes all.
-/

namespace EditorLink.Session

/-- How the write of a call ends. -/
def Event.writeEnd? (event : Event) (c : CallId) : Option Bool :=
  match event with
  | .writeEnds d written => if d = c then some written else none
  | _ => none

theorem Event.writeEnd?_eq_none {event : Event} {c : CallId} (h : event.isOf c = false) :
    event.writeEnd? c = none := by
  cases event with
  | writeEnds d written => exact if_neg (beq_eq_false_iff_ne.mp h)
  | _ => rfl

/-- Where the call of a command can stand, by how its write ended and what was decided. -/
inductive Course (id : CommandId) (k : SocketId) (commandType : String) :
    Option Bool → Option Answer → CallStage → Prop
  | writing (written : Option Bool) (answer : Option Answer) :
      Course id k commandType written answer (.writing id k written answer)
  | awaiting (answer : Option Answer) :
      Course id k commandType (some true) answer (.awaiting id k answer)
  | returned (answer : Answer) :
      Course id k commandType (some true) (some answer) (.finished (answer.toResult commandType))
  | failed (answer : Option Answer) :
      Course id k commandType (some false) answer
        (.finished (.failed (.closedWhileSending commandType)))

theorem Course.isFinished_eq {id : CommandId} {k : SocketId} {commandType : String} {call : Call}
    (h : Course id k commandType (some true) none call.stage) : call.isFinished = false := by
  obtain ⟨kind, stage, asked⟩ := call
  cases h <;> rfl

theorem Course.stage_eq {id : CommandId} {k : SocketId} {commandType : String} {call : Call}
    {answer : Answer} (h : Course id k commandType (some true) (some answer) call.stage)
    (hf : call.isFinished) : call.stage = .finished (answer.toResult commandType) := by
  obtain ⟨kind, stage, asked⟩ := call
  cases h with
  | writing => cases hf
  | awaiting => cases hf
  | returned => rfl

namespace State

/-- The first thing that the events of a run tell, of those that happen. -/
def first? {α : Type} (config : Config) (tells : State → Event → Option α) (s : State) :
    List Event → Option α
  | [] => none
  | event :: events =>
    (if s.admits event then tells s event else none).or
      (first? config tells (s.step config event) events)

variable (config : Config) {s : State} {c : CallId} {call : Call} {id : CommandId} {k : SocketId}
  {written : Option Bool} {answer : Option Answer}

/-! ## The course of a command -/

/-- A decision is heard when none came before. -/
theorem course_told (hasked : call.cancelRequested = false) {commandType : String}
    (hcourse : Course id k commandType written answer call.stage)
    (decides : CommandId → Option Answer) : (call.told decides).kind = call.kind ∧
      (call.told decides).cancelRequested = false ∧
      Course id k commandType written (answer.or (decides id)) (call.told decides).stage := by
  obtain ⟨kind, stage, asked⟩ := call
  obtain rfl : asked = false := hasked
  cases hcourse with
  | writing written answer =>
    cases answer with
    | none =>
      have ha : Call.awaited? ⟨kind, .writing id k written none, false⟩ = some id := rfl
      rw [Call.told_of_awaited?_eq_some ha]
      cases decides id with
      | none => exact ⟨rfl, rfl, .writing written none⟩
      | some answer => exact ⟨rfl, rfl, .writing written (some answer)⟩
    | some answer => exact ⟨rfl, rfl, .writing written (some answer)⟩
  | awaiting answer =>
    cases answer with
    | none =>
      have ha : Call.awaited? ⟨kind, .awaiting id k none, false⟩ = some id := rfl
      rw [Call.told_of_awaited?_eq_some ha]
      cases decides id with
      | none => exact ⟨rfl, rfl, .awaiting none⟩
      | some answer => exact ⟨rfl, rfl, .awaiting (some answer)⟩
    | some answer => exact ⟨rfl, rfl, .awaiting (some answer)⟩
  | returned answer => exact ⟨rfl, rfl, .returned answer⟩
  | failed answer => exact ⟨rfl, rfl, .failed _⟩

theorem calls_endCommand_self (hc : s.calls[c]? = some call) (id : CommandId)
    (result : CallResult) :
    (s.endCommand c id result).calls[c]? = some { call with stage := .finished result } := by
  rw [endCommand, calls_finishCall_self, calls_discard, hc]
  rfl

theorem step_resume (h : s.callCanRun c = true) : s.step config (.resume c) = s.runCall config c :=
  if_pos h

theorem step_resume_of_not (h : s.callCanRun c = false) : s.step config (.resume c) = s :=
  if_neg (Bool.not_eq_true _ ▸ h)

/-- The call of a command goes on along its course. -/
theorem course_resume (hc : s.calls[c]? = some call) (hasked : call.cancelRequested = false)
    (hcourse : Course id k call.kind.commandType written answer call.stage) :
    ∃ stage, (s.step config (.resume c)).calls[c]? = some { call with stage } ∧
      Course id k call.kind.commandType written answer stage := by
  obtain ⟨kind, stage, asked⟩ := call
  obtain rfl : asked = false := hasked
  dsimp only at hcourse ⊢
  generalize hkind : kind.commandType = commandType at hcourse ⊢
  cases hcourse with
  | writing written answer =>
    cases written with
    | none =>
      rw [step_resume_of_not config (by rw [callCanRun, hc]; rfl)]
      exact ⟨_, hc, .writing none answer⟩
    | some written =>
      rw [step_resume config (by rw [callCanRun, hc]; rfl), runCall, hc]
      cases written with
      | false => exact ⟨_, calls_endCommand_self hc id _, hkind ▸ .failed answer⟩
      | true =>
        cases answer with
        | none =>
          refine ⟨.awaiting id k none, ?_, .awaiting none⟩
          exact (calls_setStage_self s c _).trans (congrArg (Option.map _) hc)
        | some answer => exact ⟨_, calls_endCommand_self hc id _, hkind ▸ .returned answer⟩
  | awaiting answer =>
    cases answer with
    | none =>
      rw [step_resume_of_not config (by rw [callCanRun, hc]; rfl)]
      exact ⟨_, hc, .awaiting none⟩
    | some answer =>
      rw [step_resume config (by rw [callCanRun, hc]; rfl), runCall, hc]
      exact ⟨_, calls_endCommand_self hc id _, hkind ▸ .returned answer⟩
  | returned answer =>
    rw [step_resume_of_not config (by rw [callCanRun, hc])]
    exact ⟨_, hc, .returned answer⟩
  | failed answer =>
    rw [step_resume_of_not config (by rw [callCanRun, hc])]
    exact ⟨_, hc, .failed answer⟩

/-- With its command written and answered, a call that goes on returns. -/
theorem returned_of_resume (hc : s.calls[c]? = some call) (hasked : call.cancelRequested = false)
    {answer : Answer}
    (hcourse : Course id k call.kind.commandType (some true) (some answer) call.stage) :
    (s.step config (.resume c)).calls[c]? =
      some { call with stage := .finished (answer.toResult call.kind.commandType) } := by
  obtain ⟨kind, stage, asked⟩ := call
  obtain rfl : asked = false := hasked
  dsimp only at hcourse ⊢
  generalize hkind : kind.commandType = commandType at hcourse ⊢
  cases hcourse with
  | writing =>
    rw [step_resume config (by rw [callCanRun, hc]; rfl), runCall, hc, ← hkind]
    exact calls_endCommand_self hc id _
  | awaiting =>
    rw [step_resume config (by rw [callCanRun, hc]; rfl), runCall, hc, ← hkind]
    exact calls_endCommand_self hc id _
  | returned => rw [step_resume_of_not config (by rw [callCanRun, hc]), hc]

/-- The write of a command ends once. -/
theorem course_writeEnds (hc : s.calls[c]? = some call) {commandType : String}
    (hcourse : Course id k commandType written answer call.stage) (ended : Bool) :
    ∃ stage, (s.step config (.writeEnds c ended)).calls[c]? = some { call with stage } ∧
      Course id k commandType
        (written.or (if s.admits (.writeEnds c ended) then some ended else none)) answer stage := by
  unfold step
  cases hadmits : s.admits (.writeEnds c ended) with
  | false =>
    rw [if_neg (by decide), if_neg (by decide), Option.or_none]
    exact ⟨call.stage, hc, hcourse⟩
  | true =>
    obtain ⟨kind, stage, asked⟩ := call
    rw [admits, hc] at hadmits
    rw [if_pos rfl, if_pos rfl]
    cases hcourse with
    | writing written answer =>
      cases written with
      | none =>
        refine ⟨_, ?_, .writing (some ended) answer⟩
        exact (calls_setCall_self s c _).trans (congrArg (Option.map _) hc)
      | some written => cases hadmits
    | _ => cases hadmits

theorem detaches_of_course (hc : s.calls[c]? = some call) {commandType : String}
    (hcourse : Course id k commandType written answer call.stage) : s.detaches c = false := by
  have hdetaches := detaches_eq hc
  obtain ⟨kind, stage, asked⟩ := call
  cases hcourse <;> exact hdetaches

/-- Every event but the cancellation of its caller keeps a command on its course. -/
theorem course_step (h : s.TableSound) (hc : s.calls[c]? = some call)
    (hasked : call.cancelRequested = false) {commandType : String}
    (hkind : call.kind.commandType = commandType)
    (hcourse : Course id k commandType written answer call.stage) {event : Event}
    (hcancel : event ≠ .cancel c) :
    ∃ new, (s.step config event).calls[c]? = some new ∧ new.kind = call.kind ∧
      new.cancelRequested = false ∧
      Course id k commandType
        (written.or (if s.admits event then event.writeEnd? c else none))
        (answer.or (if s.admits event then s.decision? config id event else none)) new.stage := by
  cases hown : event.isOf c with
  | false =>
    obtain ⟨hk, hask, hnew⟩ := course_told hasked hcourse
      fun id => if s.admits event then s.decision? config id event else none
    refine ⟨_, calls_step config h hc hown, hk, hask, ?_⟩
    rw [Event.writeEnd?_eq_none hown, ite_self, Option.or_none]
    exact hnew
  | true =>
    cases event with
    | resume d =>
      obtain rfl : d = c := beq_iff_eq.mp hown
      obtain ⟨stage, hstep, hnew⟩ := course_resume config hc hasked (hkind ▸ hcourse)
      refine ⟨_, hstep, rfl, hasked, ?_⟩
      have hnot : s.decision? config id (.resume d) = none := by
        rw [decision?, detaches_of_course hc hcourse, if_neg (by decide)]
      rw [hnot, ite_self, show Event.writeEnd? (.resume d) d = none from rfl, ite_self,
        Option.or_none, Option.or_none, ← hkind]
      exact hnew
    | cancel d => exact absurd (congrArg Event.cancel (beq_iff_eq.mp hown)) hcancel
    | writeEnds d ended =>
      obtain rfl : d = c := beq_iff_eq.mp hown
      obtain ⟨stage, hstep, hnew⟩ := course_writeEnds config hc hcourse ended
      refine ⟨_, hstep, rfl, hasked, ?_⟩
      rw [show s.decision? config id (.writeEnds d ended) = none from rfl, ite_self, Option.or_none,
        show Event.writeEnd? (.writeEnds d ended) d = some ended from if_pos rfl]
      exact hnew
    | closeEnds d =>
      obtain rfl : d = c := beq_iff_eq.mp hown
      have hnot : s.admits (.closeEnds d) = false := by
        rw [admits, hc]
        obtain ⟨kind, stage, asked⟩ := call
        cases hcourse <;> rfl
      rw [step, hnot, if_neg (by decide), if_neg (by decide), if_neg (by decide), Option.or_none,
        Option.or_none]
      exact ⟨_, hc, rfl, hasked, hcourse⟩
    | _ => cases hown

/-- Over any further run a command takes the course that the first end of its write and the first
decision about its answer give. -/
theorem course_run (h : s.Sound) (hc : s.calls[c]? = some call)
    (hasked : call.cancelRequested = false) {commandType : String}
    (hkind : call.kind.commandType = commandType)
    (hcourse : Course id k commandType written answer call.stage) {events : List Event}
    (hcancel : .cancel c ∉ events) :
    ∃ new, (s.run config events).calls[c]? = some new ∧ new.kind = call.kind ∧
      new.cancelRequested = false ∧
      Course id k commandType
        (written.or (s.first? config (fun _ event => event.writeEnd? c) events))
        (answer.or (s.first? config (fun s => s.decision? config id) events)) new.stage := by
  induction events generalizing s call written answer with
  | nil =>
    rw [first?, first?, Option.or_none, Option.or_none]
    exact ⟨call, hc, rfl, hasked, hcourse⟩
  | cons event events ih =>
    obtain ⟨hne, hrest⟩ := not_or.mp (mt List.mem_cons.mpr hcancel)
    obtain ⟨mid, hmid, hmk, hma, hmc⟩ :=
      course_step config h.table hc hasked hkind hcourse (Ne.symm hne)
    obtain ⟨new, hnew, hk, ha, hlast⟩ :=
      ih (h.step config event) hmid hma ((congrArg _ hmk).trans hkind) hmc hrest
    rw [Option.or_assoc, Option.or_assoc] at hlast
    exact ⟨new, hnew, hk.trans hmk, ha, hlast⟩

/-! ## Messages -/

theorem breaks_iff_isBeyondLimit (config : Config) (frame : Frame) : frame.breaks config ↔
    ∃ error, Json.read config.nesting frame.chars = .error error ∧ error.isBeyondLimit := by
  rw [Frame.breaks, Frame.decode]
  cases Json.read config.nesting frame.chars with
  | ok value => cases value <;> simp [FrameError.breaksReader]
  | error error => simp [FrameError.breaksReader]

/-- A message breaks the reader just when its reading stops at a whole number beyond the size limit,
or at a list or an object inside too many of them. -/
theorem breaks_iff (config : Config) (frame : Frame) : frame.breaks config ↔
    (∃ digits, Json.maxIntegerDigits < digits ∧
      Json.read config.nesting frame.chars = .error (.oversizedInteger digits)) ∨
    ∃ container, config.nesting < frame.chars.countP Json.isOpening ∧
      Json.read config.nesting frame.chars = .error (.tooDeep container) := by
  rw [breaks_iff_isBeyondLimit]
  constructor
  · rintro ⟨error, hread, hbeyond⟩
    rcases Json.passed_of_isBeyondLimit hread hbeyond with
      ⟨digits, rfl, hlong⟩ | ⟨container, rfl, hdeep⟩
    · exact .inl ⟨digits, hlong, hread⟩
    · exact .inr ⟨container, hdeep, hread⟩
  · rintro (⟨digits, -, hread⟩ | ⟨container, -, hread⟩)
    · exact ⟨_, hread, rfl⟩
    · exact ⟨_, hread, rfl⟩

/-- A message that is a whole number beyond the size limit breaks the reader. -/
theorem breaks_of_long_number {first : Char} {rest : List Char} (hfirst : first.isDigit)
    (hzero : first ≠ '0') (hrest : ∀ digit ∈ rest, digit.isDigit)
    (hlong : Json.maxIntegerDigits < rest.length + 1) (config : Config) :
    (Frame.text (first :: rest)).breaks config :=
  (breaks_iff_isBeyondLimit config _).mpr
    ⟨_, Json.read_of_long_number hfirst hzero hrest hlong config.nesting, rfl⟩

/-- A message that opens more lists than may stand inside each other breaks the reader. -/
theorem breaks_of_deep {config : Config} {n : Nat} (h : config.nesting < n) (rest : List Char) :
    (Frame.text (List.replicate n '[' ++ rest)).breaks config :=
  (breaks_iff_isBeyondLimit config _).mpr ⟨_, Json.read_of_deep h rest, rfl⟩

theorem timers_answer (s : State) (entry : Pending) (answer : Answer) :
    (s.answer entry answer).timers = s.timers.filter (·.id != entry.id) := by
  rw [State.answer, settle]
  split
  · split <;> rfl
  · rfl

/-- A message that does not break the reader answers the entry it names, if there is one. -/
theorem receive_of_breaks_eq_false {config : Config} (s : State) (k : SocketId) {frame : Frame}
    (hb : frame.breaks config = false) :
    (s.receive config k frame = s ∧ ∀ entry ∈ s.pending, frame.answerTo? config entry.id = none) ∨
      ∃ entry ∈ s.pending, ∃ answer, frame.answerTo? config entry.id = some answer ∧
        s.receive config k frame = s.answer entry answer := by
  have hreceives := receives_receive config s k frame
  generalize s.receive config k frame = t at hreceives ⊢
  cases hreceives with
  | ignores _ hnot => exact .inl ⟨rfl, hnot⟩
  | answers _ he hanswer => exact .inr ⟨_, he, _, hanswer, rfl⟩
  | breaks _ hbreaks =>
    rw [hb] at hbreaks
    cases hbreaks

/-- A message that does not break the reader leaves alone the commands that it does not name. -/
theorem receive_keeps {config : Config} (h : s.TableSound) (k : SocketId) {frame : Frame}
    (hb : frame.breaks config = false) {entry : Pending} (he : entry ∈ s.pending)
    (hnot : frame.answerTo? config entry.id = none) :
    entry ∈ (s.receive config k frame).pending ∧
      (∀ timer ∈ s.timers, timer.id = entry.id → timer ∈ (s.receive config k frame).timers) ∧
      (s.receive config k frame).calls[entry.call]? = s.calls[entry.call]? := by
  rcases receive_of_breaks_eq_false s k hb with ⟨heq, -⟩ | ⟨other, hother, answer, hsome, heq⟩
  · rw [heq]
    exact ⟨he, fun _ ht _ => ht, rfl⟩
  · have hid : entry.id ≠ other.id := by
      intro hid
      rw [hid, hsome] at hnot
      cases hnot
    have hcall : other.call ≠ entry.call := by
      intro hcall
      exact hid (congrArg Pending.id (h.entry_unique hother he hcall)).symm
    rw [heq, pending_answer, timers_answer, calls_answer h hother, if_neg hcall]
    refine ⟨List.mem_filter.mpr ⟨he, by simpa using hid⟩, fun timer ht htid => ?_, rfl⟩
    exact List.mem_filter.mpr ⟨ht, by simpa [htid] using hid⟩

/-! ## Registration and disconnects -/

/-- While there is a socket, a disconnect that begins takes it away at once. -/
theorem Sound.detaches_of_socket (h : s.Sound) (hs : s.socket = some k)
    (hc : s.calls[c]? = some call) (hstage : call.stage = .arrived)
    (hasked : call.cancelRequested = false) (hkind : call.kind.isDisconnect) : s.detaches c := by
  have hat : s.detachesAtOnce := by
    unfold detachesAtOnce
    split
    · rfl
    · next a hcur =>
      obtain ⟨attempt, ha⟩ : ∃ attempt, s.attempts[a]? = some attempt :=
        ⟨_, List.getElem?_eq_getElem (h.link.current_lt a hcur)⟩
      rw [attemptResult?_of_getElem? ha]
      cases hr : attempt.result? with
      | none =>
        have hnone : s.socket = none := (h.link.unfinished a _ ha hr).2
        rw [hs] at hnone
        cases hnone
      | some result =>
        by_cases hconnected : result = .connected
        · rw [hconnected]
          rfl
        · have hnone : s.socket = none := h.link.failed a _ result hcur ha hr hconnected
          rw [hs] at hnone
          cases hnone
  rw [detaches_eq hc, hstage]
  dsimp only
  rw [hasked, hkind, hat]
  rfl

theorem writeEnd_of_finished (h : s.Sound) (hc : s.calls[c]? = some call) (hf : call.isFinished)
    (events : List Event) : s.first? config (fun _ event => event.writeEnd? c) events = none := by
  induction events generalizing s with
  | nil => rfl
  | cons event events ih =>
    have hnone : (if s.admits event then event.writeEnd? c else none) = none := by
      cases event with
      | writeEnds d written =>
        by_cases hdc : d = c
        · subst hdc
          obtain ⟨kind, stage, asked⟩ := call
          cases stage with
          | finished result =>
            have hnot : s.admits (.writeEnds d written) = false := by rw [admits, hc]
            rw [hnot, if_neg (by decide)]
          | _ => cases hf
        · rw [Event.writeEnd?, if_neg hdc, ite_self]
      | _ => exact ite_self _
    rw [first?, hnone, Option.none_or]
    exact ih (h.step config event) (calls_step_of_finished config h.table hc hf event)

/-- A call that registers a command and whose write ends well writes it, and nothing is decided
when it begins to. -/
theorem course_of_registered (h : s.Sound) {event : Event} (hnew : .registered id c ∉ s.history)
    (hregistered : .registered id c ∈ (s.step config event).history) {events : List Event}
    (hwritten : (s.step config event).first? config (fun _ event => event.writeEnd? c) events =
      some true) :
    ∃ call k commandType params, (s.step config event).calls[c]? = some call ∧
      call.kind = .send commandType params ∧ call.cancelRequested = false ∧
      Course id k commandType none none call.stage := by
  rcases step_registers config s event with hsame | ⟨d, -, hsends⟩
  · exact absurd ((hsame id c).mp hregistered) hnew
  · obtain ⟨hhistory, call, commandType, params, hc, hkind, hstage⟩ := hsends.spec config h.table
    obtain ⟨rfl, rfl⟩ := ((hhistory id c).mp hregistered).resolve_left hnew
    rcases hstage with ⟨k, -, hasked, hstage⟩ | ⟨error, hstage⟩
    · exact ⟨call, k, commandType, params, hc, hkind, hasked, hstage ▸ .writing none none⟩
    · have hf : call.isFinished := by rw [Call.isFinished, hstage]
      rw [writeEnd_of_finished config (h.step config event) hc hf] at hwritten
      cases hwritten

/-- A command that is registered and written is settled by the first decision about it. -/
theorem settled_of_registered (h : s.Sound) {event : Event} (hnew : .registered id c ∉ s.history)
    (hregistered : .registered id c ∈ (s.step config event).history) {events : List Event}
    (hcancel : .cancel c ∉ events)
    (hwritten : (s.step config event).first? config (fun _ event => event.writeEnd? c) events =
      some true) :
    ∃ call commandType params, ((s.step config event).run config events).calls[c]? = some call ∧
      call.kind = .send commandType params ∧
      match (s.step config event).first? config (fun s => s.decision? config id) events with
      | none => call.isFinished = false
      | some answer =>
        (call.isFinished → call.stage = .finished (answer.toResult commandType)) ∧
          (((s.step config event).run config events).step config (.resume c)).calls[c]? =
            some { call with stage := .finished (answer.toResult commandType) } := by
  obtain ⟨call, k, commandType, params, hc, hkind, hasked, hcourse⟩ :=
    course_of_registered config h hnew hregistered hwritten
  have htype : call.kind.commandType = commandType := by rw [hkind]; rfl
  obtain ⟨new, hnewc, hnewk, hnewa, hlast⟩ :=
    course_run config (h.step config event) hc hasked htype hcourse hcancel
  rw [hwritten, Option.none_or, Option.none_or] at hlast
  refine ⟨new, commandType, params, hnewc, hnewk.trans hkind, ?_⟩
  split
  · next hnone =>
    rw [hnone] at hlast
    exact hlast.isFinished_eq
  · next answer hsome =>
    rw [hsome] at hlast
    have hnewt : new.kind.commandType = commandType := (congrArg _ hnewk).trans htype
    have hreturn := returned_of_resume config hnewc hnewa (hnewt ▸ hlast)
    rw [hnewt] at hreturn
    exact ⟨hlast.stage_eq, hreturn⟩

/-- In every run, a command that was registered and written and whose caller was not cancelled is
settled by the first decision about it: a message that names it, its timer, the end of the reading
of the current socket, or a disconnect that takes the socket. Until then its call waits; after it
the call returns what was decided, or does so as soon as it goes on. A disconnect that begins while
there is a socket takes it. A message leaves alone every command that it does not name, and the
whole session if it names none, unless its reading goes beyond a limit, for the digits of a whole
number or for lists and objects inside each other: only such a message ends the reading of its
socket. -/
theorem first_decision_settles_command (config : Config) :
    (∀ (before events : List Event) (event : Event) (id : CommandId) (c : CallId),
      .registered id c ∉ (run config {} before).history →
      let s := run config {} (before ++ [event])
      .registered id c ∈ s.history → .cancel c ∉ events →
      s.first? config (fun _ event => event.writeEnd? c) events = some true →
      let t := s.run config events
      ∃ call commandType params, t.calls[c]? = some call ∧ call.kind = .send commandType params ∧
        match s.first? config (fun s => s.decision? config id) events with
        | none => call.isFinished = false
        | some answer =>
          (call.isFinished → call.stage = .finished (answer.toResult commandType)) ∧
            (t.step config (.resume c)).calls[c]? =
              some { call with stage := .finished (answer.toResult commandType) }) ∧
    (∀ (events : List Event) (c : CallId) (call : Call),
      let s := run config {} events
      s.socket.isSome → s.calls[c]? = some call → call.stage = .arrived →
      call.cancelRequested = false → call.kind.isDisconnect → s.detaches c) ∧
    (∀ (events : List Event) (k : SocketId) (frame : Frame), frame.breaks config = false →
      let s := run config {} events
      let t := s.step config (.message k frame)
      ((∀ entry ∈ s.pending, frame.answerTo? config entry.id = none) → t = s) ∧
        ∀ entry ∈ s.pending, frame.answerTo? config entry.id = none → entry ∈ t.pending ∧
          (∀ timer ∈ s.timers, timer.id = entry.id → timer ∈ t.timers) ∧
          t.calls[entry.call]? = s.calls[entry.call]?) ∧
    ∀ frame : Frame, frame.breaks config ↔
      (∃ digits, Json.maxIntegerDigits < digits ∧
        Json.read config.nesting frame.chars = .error (.oversizedInteger digits)) ∨
      ∃ container, config.nesting < frame.chars.countP Json.isOpening ∧
        Json.read config.nesting frame.chars = .error (.tooDeep container) := by
  refine ⟨?_, ?_, ?_, breaks_iff config⟩
  · intro before events event id c hnew s hregistered hcancel hwritten t
    have hs : s = (run config {} before).step config event := List.foldl_append
    rw [hs] at hregistered hwritten
    have hsettled := settled_of_registered config (Sound.init.run config before) hnew hregistered
      hcancel hwritten
    rw [← hs] at hsettled
    exact hsettled
  · intro events c call s hs hc hstage hasked hkind
    obtain ⟨k, hk⟩ := Option.isSome_iff_exists.mp hs
    exact (Sound.init.run config events).detaches_of_socket hk hc hstage hasked hkind
  · intro events k frame hb s t
    have h : s.Sound := Sound.init.run config events
    by_cases hadmits : s.admits (.message k frame)
    · have ht : t = s.receive config k frame := if_pos hadmits
      rw [ht]
      refine ⟨fun hnone => ?_, fun entry he hnot => receive_keeps h.table k hb he hnot⟩
      rcases receive_of_breaks_eq_false s k hb with ⟨heq, -⟩ | ⟨entry, he, answer, hsome, -⟩
      · exact heq
      · rw [hnone entry he] at hsome
        cases hsome
    · have ht : t = s := if_neg hadmits
      rw [ht]
      exact ⟨fun _ => rfl, fun entry he _ => ⟨he, fun _ htimer _ => htimer, rfl⟩⟩

/-- The timer fires while the command is still being written; a late reply changes nothing. -/
theorem first_decision_settles_command_expired :
    let before := [.arrive (.send "ping" .null), .resume 0, .attemptRuns 0, .handshakeEnds 0 .opened,
      .attemptRuns 0]
    let events := [.timerFires 0, .message 0 (.text "\x7b\"commandId\": \"cmd_0\"\x7d".toList),
      .writeEnds 0 true]
    let t := run {} (run {} {} (before ++ [.resume 0])) events
    ∃ call commandType, (t.step {} (.resume 0)).calls[0]? = some call ∧
      call.stage = .finished (.failed (.timedOut commandType)) := by
  intro before events t
  have hnew : .registered 0 0 ∉ (run {} {} before).history := by
    intro hmem
    have hsilent : (run {} {} before).history.all Effect.silent = true := by decide
    cases List.all_eq_true.mp hsilent _ hmem
  have hregistered : .registered 0 0 ∈ (run {} {} (before ++ [.resume 0])).history :=
    List.mem_of_getElem? (show (run {} {} [.arrive (.send "ping" .null), .resume 0, .attemptRuns 0,
      .handshakeEnds 0 .opened, .attemptRuns 0, .resume 0]).history[1]? = _ from rfl)
  have hcancel : .cancel 0 ∉ events := by simp [events]
  have hwritten : (run {} {} (before ++ [.resume 0])).first? {} (fun _ event => event.writeEnd? 0)
      events = some true := by decide +kernel
  obtain ⟨call, commandType, params, -, -, hsettled⟩ :=
    (first_decision_settles_command {}).1 before events (.resume 0) 0 0 hnew hregistered hcancel
      hwritten
  have hfirst : (run {} {} (before ++ [.resume 0])).first? {} (fun s => s.decision? {} 0) events =
      some .timedOut := by
    rw [show events = .timerFires 0 :: events.tail from rfl, first?, if_pos (by decide), decision?,
      if_pos rfl, Option.some_or]
  rw [hfirst] at hsettled
  exact ⟨_, commandType, hsettled.2, rfl⟩

end State

end EditorLink.Session
