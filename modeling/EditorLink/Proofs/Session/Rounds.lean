import EditorLink.Proofs.Session.Sockets

/-!
# The rounds of an attempt

An attempt makes one handshake in a round and rests between two rounds. What becomes of it is told
by how its rounds ended: it goes on as long as they fail in a way that may be tried again, and
rounds are left. `Ran` sums up what an attempt does when it runs; `Stands` says where it stands,
with the ends of its rounds so far and what it has done in them.
-/

namespace EditorLink.Session

/-- Whether another handshake may be tried after one that ended so. -/
def HandshakeOutcome.retryable : HandshakeOutcome → Bool
  | .refused _ => true
  | .timedOut => true
  | _ => false

/-- What an attempt comes to, if it ends with a handshake that ended so. -/
def HandshakeOutcome.result : HandshakeOutcome → AttemptResult
  | .opened => .connected
  | .refused message => .failed (.gaveUp (some message))
  | .timedOut => .failed .timedOut
  | .unexpected message => .failed (.unexpected message)

def HandshakeFailure.outcome : HandshakeFailure → HandshakeOutcome
  | .timedOut => .timedOut
  | .refused message => .refused message

namespace HandshakeFailure

theorem retryable_outcome (failure : HandshakeFailure) : failure.outcome.retryable := by
  cases failure <;> rfl

theorem result_outcome (failure : HandshakeFailure) :
    failure.outcome.result = .failed failure.toError := by
  cases failure <;> rfl

end HandshakeFailure

/-- What an attempt does: it begins a handshake, or a rest. -/
inductive Mark where
  | handshake
  | rest
deriving DecidableEq

def Effect.mark? (a : AttemptId) : Effect → Option Mark
  | .handshakeBegan b _ => if b = a then some .handshake else none
  | .restBegan b => if b = a then some .rest else none
  | _ => none

/-- What an attempt comes to when a round ends; nothing yet, if it tries again. -/
def Config.verdict? (config : Config) (round : Nat) (outcome : HandshakeOutcome) :
    Option AttemptResult :=
  if outcome.retryable ∧ (round : Int) ≤ config.maxRetries then none else some outcome.result

theorem again_of_verdict? {config : Config} {round : Nat} {outcome : HandshakeOutcome}
    (h : config.verdict? round outcome = none) :
    outcome.retryable ∧ (round : Int) ≤ config.maxRetries := by
  rw [Config.verdict?] at h
  split at h
  · assumption
  · cases h

theorem result_of_verdict? {config : Config} {round : Nat} {outcome : HandshakeOutcome}
    {result : AttemptResult} (h : config.verdict? round outcome = some result) :
    outcome.result = result := by
  rw [Config.verdict?] at h
  split at h
  · cases h
  · exact Option.some.inj h

/-- What an attempt does in one round. Without time for it there is no handshake. -/
def Config.roundMarks (config : Config) : List Mark :=
  if config.connectTimeout.isPositive then [.handshake] else []

/-- What an attempt does in a number of rounds: it rests once between two of them. -/
def Config.trail (config : Config) (rounds : Nat) : List Mark :=
  [Mark.rest].intercalate (List.replicate rounds config.roundMarks)

/-- The stage of an attempt that has just begun a round. -/
def Config.opening (config : Config) (now : Double) (round : Nat) : AttemptStage :=
  if config.connectTimeout.isPositive then
    .handshaking round (now.add config.connectTimeout.toDouble) none false
  else .lapsed round

/-- The stage of an attempt that has just begun to rest. -/
def Config.pause (config : Config) (now : Double) (round : Nat) (last : HandshakeFailure) :
    AttemptStage :=
  .resting round last (now.add config.retryDelay.toDouble) (!config.retryDelay.isPositive)

/-- The number of rounds that an attempt has begun. -/
def AttemptStage.round : AttemptStage → Nat
  | .handshaking round _ _ _ => round
  | .lapsed round => round
  | .resting round _ _ _ => round
  | _ => 0

/-- Whether an attempt has its next round before it. -/
def AttemptStage.beforeRound : AttemptStage → Bool
  | .created => true
  | .resting _ _ _ _ => true
  | _ => false

/-- How a round ends for an attempt that goes on: as its handshake did, or because time is up. -/
def Attempt.hears? (attempt : Attempt) : Option HandshakeOutcome :=
  match attempt.stage with
  | .handshaking _ _ (some outcome) _ => some outcome
  | .handshaking _ _ none _ => if attempt.cancelRequested then none else some .timedOut
  | .lapsed _ => if attempt.cancelRequested then none else some .timedOut
  | _ => none

/-- What an attempt that runs comes to, and what it does. -/
inductive Ran (config : Config) (now : Double) (attempt : Attempt) :
    AttemptStage → List Mark → Prop
  | began (hasked : attempt.cancelRequested = false)
      (hstage : attempt.stage = .created ∨
        ∃ last wakeAt, attempt.stage = .resting attempt.stage.round last wakeAt true) :
      Ran config now attempt (config.opening now (attempt.stage.round + 1)) config.roundMarks
  | rested {failure : HandshakeFailure} (hears : attempt.hears? = some failure.outcome)
      (hnone : config.verdict? attempt.stage.round failure.outcome = none) :
      Ran config now attempt (config.pause now attempt.stage.round failure) [.rest]
  | ended {outcome : HandshakeOutcome} {result : AttemptResult}
      (hears : attempt.hears? = some outcome)
      (hverdict : config.verdict? attempt.stage.round outcome = some result) :
      Ran config now attempt (.finished result) []
  | cancelled (hears : attempt.hears? = none) (hasked : attempt.cancelRequested) :
      Ran config now attempt (.finished .cancelled) []

namespace State

/-- What an attempt has done, first things first. -/
def trail (s : State) (a : AttemptId) : List Mark :=
  (s.history.filterMap (Effect.mark? a)).reverse

/-- How a round ends for an attempt in an event. -/
def heard? (s : State) (a : AttemptId) : Event → Option HandshakeOutcome
  | .attemptRuns b => if b = a then s.attempts[a]?.bind Attempt.hears? else none
  | _ => none

/-- All that the events of a run tell, of those that happen. -/
def each {α : Type} (config : Config) (tells : State → Event → Option α) (s : State) :
    List Event → List α
  | [] => []
  | event :: events =>
    (if s.admits event then tells s event else none).toList ++
      each config tells (s.step config event) events

/-- How the rounds of an attempt ended in a run. -/
def ends (config : Config) (a : AttemptId) (s : State) (events : List Event) :
    List HandshakeOutcome :=
  s.each config (fun s => s.heard? a) events

variable (config : Config) {s t : State} {a : AttemptId} {attempt : Attempt} {event : Event}

theorem each_append {α : Type} (tells : State → Event → Option α) (s : State)
    (events later : List Event) : s.each config tells (events ++ later) =
      s.each config tells events ++ (s.run config events).each config tells later := by
  induction events generalizing s with
  | nil => rfl
  | cons event events ih =>
    rw [List.cons_append, each, each, ih, List.append_assoc]
    rfl

/-! ## Attempts that run -/

theorem trail_record (s : State) (a : AttemptId) (effect : Effect) :
    (s.record effect).trail a = s.trail a ++ (effect.mark? a).toList := by
  rw [trail, record, List.filterMap_cons]
  cases effect.mark? a with
  | none => exact (List.append_nil _).symm
  | some mark => exact List.reverse_cons

/-- An attempt comes to a stage, and does something on its way. -/
def Comes (s : State) (a : AttemptId) (t : State) (stage : AttemptStage) (marks : List Mark) :
    Prop :=
  (∃ asked, t.attempts[a]? = some ⟨stage, asked⟩) ∧ t.trail a = s.trail a ++ marks

theorem Comes.of_start {u : State} {stage : AttemptStage} {marks : List Mark}
    (h : u.Comes a t stage marks) (htrail : u.trail a = s.trail a) : s.Comes a t stage marks :=
  ⟨h.1, htrail ▸ h.2⟩

theorem comes_finishAttempt (ha : s.attempts[a]? = some attempt) (result : AttemptResult) :
    s.Comes a (s.finishAttempt a result) (.finished result) [] :=
  ⟨⟨_, attempts_setAttempt ha _⟩, trail_record s a (.attemptFinished a result)⟩

theorem comes_beginRound (ha : s.attempts[a]? = some attempt) {round : Nat}
    (hround : (round : Int) ≤ config.rounds) :
    s.Comes a (s.beginRound config a round) (config.opening s.now round) config.roundMarks := by
  unfold beginRound Config.opening Config.roundMarks
  rw [if_neg (Int.not_lt.mpr hround)]
  split
  · refine ⟨⟨_, attempts_setAttempt ha _⟩, (trail_record _ a _).trans ?_⟩
    rw [Effect.mark?, if_pos rfl]
    rfl
  · exact ⟨⟨_, attempts_setAttempt ha _⟩, (List.append_nil _).symm⟩

/-- A round that failed in a way that may be tried again. -/
theorem comes_afterFailure (ha : s.attempts[a]? = some attempt) (round : Nat)
    (failure : HandshakeFailure) :
    match config.verdict? round failure.outcome with
    | some result => s.Comes a (s.afterFailure config a round failure) (.finished result) []
    | none => s.Comes a (s.afterFailure config a round failure)
        (config.pause s.now round failure) [.rest] := by
  have hverdict : config.verdict? round failure.outcome =
      if (round : Int) ≤ config.maxRetries then none else some (.failed failure.toError) := by
    rw [Config.verdict?, failure.result_outcome]
    exact if_congr (and_iff_right failure.retryable_outcome) rfl rfl
  have hiff : (round : Int) < config.rounds ↔ (round : Int) ≤ config.maxRetries :=
    Int.lt_add_one_iff
  rw [hverdict, afterFailure]
  simp only [hiff]
  split
  · next h =>
    split at h
    · cases h
    · next hlast =>
      obtain rfl := Option.some.inj h
      rw [if_neg hlast]
      exact comes_finishAttempt ha _
  · next h =>
    split at h
    · next hmore =>
      rw [if_pos hmore]
      refine ⟨⟨_, attempts_setAttempt ha _⟩, (trail_record _ a _).trans ?_⟩
      rw [Effect.mark?, if_pos rfl]
      rfl
    · cases h

/-- A round that ended, with the attempt to be told. -/
theorem ran_afterHandshake {u : State} (hu : ∃ asked, u.attempts[a]? = some ⟨attempt.stage, asked⟩)
    (htrail : u.trail a = s.trail a) (hnow : u.now = s.now) {outcome : HandshakeOutcome}
    (hears : attempt.hears? = some outcome) :
    ∃ stage marks, s.Comes a (u.afterHandshake config a attempt.stage.round outcome) stage marks ∧
      Ran config s.now attempt stage marks := by
  obtain ⟨asked, hu⟩ := hu
  have hfailure : ∀ failure : HandshakeFailure, attempt.hears? = some failure.outcome →
      ∃ stage marks, s.Comes a (u.afterFailure config a attempt.stage.round failure) stage marks ∧
        Ran config s.now attempt stage marks := by
    intro failure hears
    have hcomes := comes_afterFailure config hu attempt.stage.round failure
    rw [hnow] at hcomes
    cases hverdict : config.verdict? attempt.stage.round failure.outcome with
    | some result =>
      rw [hverdict] at hcomes
      exact ⟨_, _, hcomes.of_start htrail, .ended hears hverdict⟩
    | none =>
      rw [hverdict] at hcomes
      exact ⟨_, _, hcomes.of_start htrail, .rested hears hverdict⟩
  cases outcome with
  | opened =>
    have hcomes := comes_finishAttempt (s := u.install) hu .connected
    exact ⟨_, _, hcomes.of_start htrail, .ended hears rfl⟩
  | refused message => exact hfailure (.refused message) hears
  | timedOut => exact hfailure .timedOut hears
  | unexpected message =>
    have hcomes := comes_finishAttempt hu (.failed (.unexpected message))
    exact ⟨_, _, hcomes.of_start htrail, .ended hears rfl⟩

/-- What an attempt does when it runs. It begins a round only if there is one left. -/
theorem ran_runAttempt (ha : s.attempts[a]? = some attempt) (hcan : s.attemptCanRun a)
    (hround : attempt.stage.beforeRound → (attempt.stage.round : Int) ≤ config.maxRetries) :
    ∃ stage marks, s.Comes a (s.runAttempt config a) stage marks ∧
      Ran config s.now attempt stage marks := by
  have hnext : attempt.stage.beforeRound →
      ((attempt.stage.round + 1 : Nat) : Int) ≤ config.rounds :=
    fun hbefore => Int.add_le_add_right (hround hbefore) 1
  have hfinish : attempt.hears? = none → attempt.cancelRequested →
      ∃ stage marks, s.Comes a (s.finishAttempt a .cancelled) stage marks ∧
        Ran config s.now attempt stage marks := fun hears hasked =>
    ⟨_, _, comes_finishAttempt ha .cancelled, .cancelled hears hasked⟩
  rw [attemptCanRun, ha] at hcan
  rw [runAttempt, ha]
  obtain ⟨stage, asked⟩ := attempt
  cases stage with
  | created =>
    cases asked with
    | true => exact hfinish rfl rfl
    | false =>
      exact ⟨_, _, comes_beginRound config (s := { s with phase := .connecting }) ha (hnext rfl),
        .began rfl (.inl rfl)⟩
  | handshaking round deadline outcome expired =>
    cases outcome with
    | some outcome =>
      have hears : Attempt.hears? ⟨.handshaking round deadline (some outcome) expired, asked⟩ =
        some outcome := rfl
      exact ran_afterHandshake config ⟨false, attempts_setAttempt ha _⟩ rfl rfl hears
    | none =>
      cases asked with
      | true => exact ⟨_, _, comes_finishAttempt ha .cancelled, .cancelled rfl rfl⟩
      | false =>
        have hears : Attempt.hears? ⟨.handshaking round deadline none expired, false⟩ =
          some .timedOut := rfl
        exact ran_afterHandshake config (u := s.record (.handshakeAborted a)) ⟨false, ha⟩ rfl rfl
          hears
  | lapsed round =>
    cases asked with
    | true => exact hfinish rfl rfl
    | false =>
      have hears : Attempt.hears? ⟨.lapsed round, false⟩ = some .timedOut := rfl
      exact ran_afterHandshake config ⟨false, ha⟩ rfl rfl hears
  | resting round last wakeAt elapsed =>
    cases asked with
    | true => exact hfinish rfl rfl
    | false =>
      obtain rfl : elapsed = true := by simpa using hcan
      exact ⟨_, _, comes_beginRound config ha (hnext rfl), .began rfl (.inr ⟨last, wakeAt, rfl⟩)⟩
  | finished result => cases hcan

/-! ## Events that are not the attempt's -/

/-- What an attempt has done only grows when it runs itself. -/
theorem trail_step (h : s.TableSound) (hne : event ≠ .attemptRuns a) :
    (s.step config event).trail a = s.trail a := by
  have hf : ∀ effect : Effect, (effect.mark? a).isSome = false → effect.mark? a = none := by simp
  have hcall : ∀ effect : Effect, effect.isOfCall → (effect.mark? a).isSome = false := by
    intro effect he
    cases effect <;> first | rfl | cases he
  have hattempt : ∀ b, event = .attemptRuns b → ∀ effect : Effect, effect.isOfAttempt b →
      (effect.mark? a).isSome = false := by
    rintro b rfl effect he
    have hba : b ≠ a := fun hba => hne (hba ▸ rfl)
    cases effect with
    | handshakeBegan d _ | restBegan d =>
      obtain rfl : d = b := beq_iff_eq.mp he
      rw [Effect.mark?, if_neg hba]
      rfl
    | _ => rfl
  rcases step_dispatches config hcall s hattempt with hkeeps | ⟨c, rfl, hdispatches⟩
  · exact congrArg List.reverse (hkeeps.filterMap_eq hf)
  · obtain ⟨call, commandType, params, -, -, -, -, ht⟩ := hdispatches
    rw [ht]
    rcases sendCommand_cases h config c commandType params with
      ⟨error, heq⟩ | ⟨k, socket, -, -, -, heq⟩
    · rw [heq]
      rfl
    · rw [heq]
      rfl

/-- Before an attempt runs it has nothing to tell, and hears nothing. -/
theorem heard?_of_ne (hne : event ≠ .attemptRuns a) (s : State) : s.heard? a event = none := by
  cases event with
  | attemptRuns b => exact if_neg fun hba : b = a => hne (hba ▸ rfl)
  | _ => rfl

end State

/-! ## Where an attempt stands -/

/-- Where an attempt stands, with the ends of its rounds and what it has done. An attempt that was
cancelled stands anywhere. -/
inductive Stands (config : Config) : AttemptStage → List HandshakeOutcome → List Mark → Prop
  | created : Stands config .created [] []
  | shaking {ends : List HandshakeOutcome} {deadline : Double} {outcome : Option HandshakeOutcome}
      {expired : Bool} (hfail : ∀ outcome ∈ ends, outcome.retryable)
      (hlen : (ends.length : Int) ≤ config.maxRetries) :
      Stands config (.handshaking (ends.length + 1) deadline outcome expired) ends
        (config.trail (ends.length + 1))
  | lapsed {ends : List HandshakeOutcome} (hfail : ∀ outcome ∈ ends, outcome.retryable)
      (hlen : (ends.length : Int) ≤ config.maxRetries) :
      Stands config (.lapsed (ends.length + 1)) ends (config.trail (ends.length + 1))
  | resting {ends : List HandshakeOutcome} {last : HandshakeFailure} {wakeAt : Double}
      {elapsed : Bool} (hfail : ∀ outcome ∈ ends, outcome.retryable)
      (hlen : ((ends.length + 1 : Nat) : Int) ≤ config.maxRetries) :
      Stands config (.resting (ends.length + 1) last wakeAt elapsed) (ends ++ [last.outcome])
        (config.trail (ends.length + 1) ++ [.rest])
  | finished {ends : List HandshakeOutcome} {last : HandshakeOutcome} {result : AttemptResult}
      (hfail : ∀ outcome ∈ ends, outcome.retryable)
      (hlen : (ends.length : Int) ≤ config.maxRetries)
      (hverdict : config.verdict? (ends.length + 1) last = some result) :
      Stands config (.finished result) (ends ++ [last]) (config.trail (ends.length + 1))
  | cancelled (ends : List HandshakeOutcome) (marks : List Mark) :
      Stands config (.finished .cancelled) ends marks

theorem Config.trail_one (config : Config) : config.trail 1 = config.roundMarks :=
  List.append_nil _

theorem Config.trail_succ (config : Config) (n : Nat) :
    config.trail (n + 2) = config.trail (n + 1) ++ .rest :: config.roundMarks := by
  have hcons : ∀ n, config.trail (n + 2) = config.roundMarks ++ .rest :: config.trail (n + 1) :=
    fun n => rfl
  induction n with
  | zero => rw [hcons, trail_one]
  | succ n ih =>
    calc config.trail (n + 3)
      _ = config.roundMarks ++ .rest :: (config.trail (n + 1) ++ .rest :: config.roundMarks) := by
        rw [hcons, ih]
      _ = config.trail (n + 2) ++ .rest :: config.roundMarks := by
        rw [hcons, List.append_assoc, List.cons_append]

namespace Stands

variable {config : Config} {stage : AttemptStage} {attempt : Attempt}
  {ends : List HandshakeOutcome} {marks : List Mark}

/-- What an attempt has yet to hear does not matter to where it stands. -/
theorem of_place (h : Stands config stage ends marks) {new : AttemptStage}
    (hplace : new.place = stage.place) : Stands config new ends marks := by
  cases h with
  | shaking hfail hlen =>
    cases new with
    | handshaking round deadline outcome expired =>
      cases hplace
      exact .shaking hfail hlen
    | _ => cases hplace
  | resting hfail hlen =>
    cases new with
    | resting round last wakeAt elapsed =>
      cases hplace
      exact .resting hfail hlen
    | _ => cases hplace
  | created =>
    cases new with
    | created => exact .created
    | _ => cases hplace
  | lapsed hfail hlen =>
    cases new with
    | lapsed round =>
      cases hplace
      exact .lapsed hfail hlen
    | _ => cases hplace
  | finished hfail hlen hverdict =>
    cases new with
    | finished result =>
      cases hplace
      exact .finished hfail hlen hverdict
    | _ => cases hplace
  | cancelled =>
    cases new with
    | finished result =>
      cases hplace
      exact .cancelled _ _
    | _ => cases hplace

/-- Another round is left for an attempt that stands before one. -/
theorem round_le (hretries : 0 ≤ config.maxRetries) (h : Stands config stage ends marks)
    (hbefore : stage.beforeRound) : (stage.round : Int) ≤ config.maxRetries := by
  cases h with
  | created => exact hretries
  | resting hfail hlen => exact hlen
  | _ => cases hbefore

theorem opening (hfail : ∀ outcome ∈ ends, outcome.retryable)
    (hlen : (ends.length : Int) ≤ config.maxRetries) (now : Double) :
    Stands config (config.opening now (ends.length + 1)) ends (config.trail (ends.length + 1)) := by
  unfold Config.opening
  split
  · exact .shaking hfail hlen
  · exact .lapsed hfail hlen

/-- An attempt that hears the end of a round stands in this round. -/
theorem of_hears (h : Stands config attempt.stage ends marks) {outcome : HandshakeOutcome}
    (hears : attempt.hears? = some outcome) : attempt.stage.round = ends.length + 1 ∧
      marks = config.trail (ends.length + 1) ∧ (∀ outcome ∈ ends, outcome.retryable) ∧
      (ends.length : Int) ≤ config.maxRetries := by
  obtain ⟨stage, asked⟩ := attempt
  cases h with
  | shaking hfail hlen => exact ⟨rfl, rfl, hfail, hlen⟩
  | lapsed hfail hlen => exact ⟨rfl, rfl, hfail, hlen⟩
  | _ => cases hears

/-- An attempt that begins a round stands in it. -/
theorem began (hretries : 0 ≤ config.maxRetries) (h : Stands config stage ends marks)
    (hbefore : stage.beforeRound) (now : Double) :
    Stands config (config.opening now (stage.round + 1)) ends (marks ++ config.roundMarks) := by
  cases h with
  | created =>
    have hnone : ∀ outcome ∈ ([] : List HandshakeOutcome), outcome.retryable :=
      List.forall_mem_nil _
    have hopening : Stands config (config.opening now 1) [] (config.trail 1) :=
      opening hnone hretries now
    rwa [config.trail_one] at hopening
  | @resting ends last wakeAt elapsed hfail hlen =>
    have hall : ∀ outcome ∈ ends ++ [last.outcome], outcome.retryable := by
      intro outcome he
      rcases List.mem_append.mp he with he | he
      · exact hfail outcome he
      · rw [List.mem_singleton.mp he]
        exact last.retryable_outcome
    have hcount : (ends ++ [last.outcome]).length = ends.length + 1 := List.length_append
    have hopening := opening hall (hcount ▸ hlen) now
    rw [hcount, config.trail_succ] at hopening
    rw [List.append_assoc]
    exact hopening
  | _ => cases hbefore

/-- An attempt that runs goes on to where it stands next. -/
theorem ran (hretries : 0 ≤ config.maxRetries) (h : Stands config attempt.stage ends marks)
    {now : Double} {new : List Mark} (hran : Ran config now attempt stage new) :
    Stands config stage (ends ++ attempt.hears?.toList) (marks ++ new) := by
  cases hran with
  | began hasked hstage =>
    have hbefore : attempt.stage.beforeRound ∧ attempt.hears? = none := by
      rw [Attempt.hears?]
      rcases hstage with hstage | ⟨last, wakeAt, hstage⟩ <;> rw [hstage] <;> exact ⟨rfl, rfl⟩
    rw [hbefore.2, Option.toList_none, List.append_nil]
    exact h.began hretries hbefore.1 now
  | rested hears hnone =>
    obtain ⟨hround, rfl, hfail, hlen⟩ := h.of_hears hears
    rw [hround] at hnone ⊢
    rw [hears]
    exact .resting hfail (again_of_verdict? hnone).2
  | ended hears hverdict =>
    obtain ⟨hround, rfl, hfail, hlen⟩ := h.of_hears hears
    rw [hround] at hverdict
    rw [hears, List.append_nil]
    exact .finished hfail hlen hverdict
  | cancelled => exact .cancelled _ _

end Stands

namespace State

variable {config : Config} {s : State} {a : AttemptId} {attempt : Attempt} {events : List Event}

/-- Where an attempt stands in a run, if there is one. -/
def Stood (config : Config) (s : State) (a : AttemptId) (ends : List HandshakeOutcome) : Prop :=
  match s.attempts[a]? with
  | none => ends = [] ∧ s.trail a = []
  | some attempt => Stands config attempt.stage ends (s.trail a)

theorem stood_of_getElem? (ha : s.attempts[a]? = some attempt) {ends : List HandshakeOutcome} :
    s.Stood config a ends ↔ Stands config attempt.stage ends (s.trail a) := by
  rw [Stood, ha]

/-- In a step of another, an attempt stays where it stands, and a new one stands at its start. -/
theorem Stood.step_of_ne (h : s.TableSound) {ends : List HandshakeOutcome}
    (hstood : s.Stood config a ends) {event : Event} (hne : event ≠ .attemptRuns a) :
    (s.step config event).Stood config a ends := by
  have htrail := trail_step config h hne
  cases ha : s.attempts[a]? with
  | some attempt =>
    obtain ⟨new, hnew, hmoves⟩ := attempt_step config ha event
    rw [stood_of_getElem? hnew, htrail]
    exact ((stood_of_getElem? ha).mp hstood).of_place (hmoves.place (Event.runs_eq_false hne))
  | none =>
    rw [Stood, ha] at hstood
    obtain ⟨rfl, hempty⟩ := hstood
    rw [Stood, htrail, hempty]
    split
    · exact ⟨rfl, rfl⟩
    · next new hnew =>
      rw [attempt_new config ha hnew]
      exact .created

/-- An attempt that can run is unfinished. -/
theorem unfinished_of_canRun (hcan : s.attemptCanRun a) :
    ∃ attempt, s.attempts[a]? = some attempt ∧ attempt.result? = none := by
  rw [attemptCanRun] at hcan
  cases ha : s.attempts[a]? with
  | none =>
    rw [ha] at hcan
    cases hcan
  | some attempt =>
    obtain ⟨stage, asked⟩ := attempt
    rw [ha] at hcan
    refine ⟨_, rfl, ?_⟩
    cases stage with
    | finished result => cases hcan
    | _ => rfl

/-- What an attempt that stands somewhere does when it runs. -/
theorem Stood.ran (hretries : 0 ≤ config.maxRetries) {ends : List HandshakeOutcome}
    (hstood : s.Stood config a ends) (hadmits : s.admits (.attemptRuns a)) :
    ∃ attempt stage marks, s.attempts[a]? = some attempt ∧
      s.Comes a (s.step config (.attemptRuns a)) stage marks ∧
      Ran config s.now attempt stage marks := by
  obtain ⟨attempt, ha, -⟩ := unfinished_of_canRun hadmits
  have hstands := (stood_of_getElem? ha).mp hstood
  obtain ⟨stage, marks, hcomes, hran⟩ :=
    ran_runAttempt config ha hadmits (hstands.round_le hretries)
  have hrun : s.step config (.attemptRuns a) = s.runAttempt config a := if_pos hadmits
  exact ⟨attempt, stage, marks, ha, hrun ▸ hcomes, hran⟩

/-- When it runs, an attempt goes on to where it stands next. -/
theorem Stood.step_attemptRuns (hretries : 0 ≤ config.maxRetries) {ends : List HandshakeOutcome}
    (hstood : s.Stood config a ends) (hadmits : s.admits (.attemptRuns a)) :
    (s.step config (.attemptRuns a)).Stood config a
      (ends ++ (s.heard? a (.attemptRuns a)).toList) := by
  obtain ⟨attempt, stage, marks, ha, ⟨⟨asked, hnew⟩, htrail⟩, hran⟩ := hstood.ran hretries hadmits
  rw [stood_of_getElem? hnew, htrail, heard?, if_pos rfl, ha]
  exact ((stood_of_getElem? ha).mp hstood).ran hretries hran

/-- In every run an attempt stands where the ends of its rounds have led it. -/
theorem stood_run (hretries : 0 ≤ config.maxRetries) (a : AttemptId) (events : List Event) :
    (run config {} events).Stood config a (ends config a {} events) := by
  induction events using List.reverseRecOn with
  | nil => exact ⟨rfl, rfl⟩
  | append_singleton events event ih =>
    have h : (run config {} events).Sound := Sound.init.run config events
    rw [run_append_singleton, ends, each_append, each, each, List.append_nil]
    by_cases hadmits : (run config {} events).admits event
    · rw [if_pos hadmits]
      by_cases hevent : event = .attemptRuns a
      · subst hevent
        exact ih.step_attemptRuns hretries hadmits
      · rw [heard?_of_ne hevent, Option.toList_none, List.append_nil]
        exact ih.step_of_ne h.table hevent
    · rw [if_neg hadmits, Option.toList_none, List.append_nil,
        show (run config {} events).step config event = run config {} events from if_neg hadmits]
      exact ih

end State

end EditorLink.Session
