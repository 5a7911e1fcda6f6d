import EditorLink.Session.Error
import EditorLink.Proofs.Session.Connecting

/-!
# How an attempt tries again

An attempt makes one handshake after the other until one opens a socket, one fails in an unexpected
way, or all rounds have failed. It rests once between two handshakes, and the last one alone decides
what it comes to. `Tries` says so of the ends of its handshakes in any run, and `heeded` says which
ones they are when the world goes on to end them.
-/

namespace EditorLink.Session

/-- Whether an error tells how the last handshake of an attempt ended: that it timed out, with which
message it was refused, or its own error as it is. -/
def AttemptError.Reports (config : Config) (error : AttemptError) : HandshakeOutcome → Prop
  | .opened => False
  | .timedOut => error.kind? = some .connectionTimeout ∧ error = .timedOut
  | .refused message => error.kind? = some .connectionFailed ∧
      message.toList <:+ (error.message config).toList
  | .unexpected message => error.kind? = none ∧ error.message config = message

/-- How a round ends whose handshake would end so: without time for it, it times out. -/
def Config.hears (config : Config) (outcome : HandshakeOutcome) : HandshakeOutcome :=
  if config.connectTimeout.isPositive then outcome else .timedOut

/-- Of handshakes to come, the ends that an attempt waits for with a number of rounds left: up to
the first one after which no other is tried. -/
def heeded : Nat → List HandshakeOutcome → List HandshakeOutcome
  | 0, _ => []
  | _ + 1, [] => []
  | left + 1, outcome :: later =>
    outcome :: if outcome.retryable then heeded left later else []

theorem heeded_nil (left : Nat) : heeded left [] = [] := by
  cases left <;> rfl

/-- With enough handshakes to come, the last one that is waited for settles the attempt. -/
theorem getLast?_heeded {left : Nat} (hleft : 0 < left) {outcomes : List HandshakeOutcome}
    (hlen : left ≤ outcomes.length) : ∃ last, (heeded left outcomes).getLast? = some last ∧
      (last.retryable → (heeded left outcomes).length = left) := by
  induction outcomes generalizing left with
  | nil => exact absurd (Nat.lt_of_lt_of_le hleft hlen) (Nat.lt_irrefl 0)
  | cons outcome later ih =>
    obtain ⟨left, rfl⟩ := Nat.exists_eq_succ_of_ne_zero (Nat.ne_of_gt hleft)
    rw [heeded]
    split
    · next hagain =>
      rcases Nat.eq_zero_or_pos left with rfl | hpos
      · exact ⟨outcome, rfl, fun _ => rfl⟩
      · obtain ⟨last, hlast, hall⟩ := ih hpos (Nat.le_of_succ_le_succ hlen)
        refine ⟨last, ?_, fun hretry => congrArg (· + 1) (hall hretry)⟩
        rw [List.getLast?_cons, hlast]
        rfl
    · next hfinal => exact ⟨outcome, rfl, fun hretry => absurd hretry hfinal⟩

/-- What happens when the handshake of an attempt ends so. -/
def ending (a : AttemptId) : HandshakeOutcome → Event
  | .timedOut => .handshakeExpires a
  | outcome => .handshakeEnds a outcome

/-- What happens in a round of an attempt: it begins, its handshake ends, the attempt goes on, and
its rest is over. -/
def roundEvents (a : AttemptId) (outcome : HandshakeOutcome) : List Event :=
  [.attemptRuns a, ending a outcome, .attemptRuns a, .restElapses a]

theorem reports_result (config : Config) {outcome : HandshakeOutcome} {error : AttemptError}
    (h : outcome.result = .failed error) : error.Reports config outcome := by
  cases outcome with
  | opened => cases h
  | timedOut =>
    cases h
    exact ⟨rfl, rfl⟩
  | refused message =>
    cases h
    refine ⟨rfl, ?_⟩
    dsimp only [AttemptError.message]
    rw [Option.getD_some, String.toList_append]
    exact List.suffix_append _ _
  | unexpected message =>
    cases h
    exact ⟨rfl, rfl⟩

theorem Config.trail_prefix_succ (config : Config) (n : Nat) :
    config.trail n <+: config.trail (n + 1) := by
  cases n with
  | zero => exact List.nil_prefix
  | succ n =>
    rw [config.trail_succ]
    exact List.prefix_append _ _

/-- An attempt that has not started has heard of nothing. -/
theorem Stands.eq_nil_of_created {config : Config} {ends : List HandshakeOutcome}
    {marks : List Mark} (h : Stands config .created ends marks) : ends = [] := by
  cases h
  rfl

namespace State

/-- How an attempt that is not cancelled tries again, with the ends of its handshakes. -/
structure Tries (config : Config) (s : State) (a : AttemptId) (heard : List HandshakeOutcome) :
    Prop where
  /-- Another handshake is made only after one that failed in a way that may be tried again. -/
  retryable : ∀ outcome ∈ heard.dropLast, outcome.retryable
  bounded : (heard.length : Int) ≤ config.maxRetries + 1
  /-- The last handshake decides whether the attempt ends, and what it comes to. -/
  result : s.attemptResult? a = heard.getLast?.bind (config.verdict? heard.length)
  /-- An error tells of the last handshake, and of none before it. -/
  error : ∀ error, s.attemptResult? a = some (.failed error) →
    ∃ last, heard.getLast? = some last ∧ error.Reports config last
  /-- It rests once between two handshakes. -/
  made : config.trail heard.length <+: s.trail a
  makes : s.trail a <+: config.trail (heard.length + 1)
  /-- When it has ended it makes neither another handshake nor a rest. -/
  made_of_ended : (s.attemptResult? a).isSome → s.trail a = config.trail heard.length

variable {config : Config} {s : State} {a : AttemptId} {attempt : Attempt} {event : Event}
  {heard : List HandshakeOutcome}

/-- As long as all handshakes failed and rounds are left, nothing is decided. -/
theorem undecided (hfail : ∀ outcome ∈ heard, outcome.retryable)
    (hlen : (heard.length : Int) ≤ config.maxRetries) :
    heard.getLast?.bind (config.verdict? heard.length) = none := by
  cases hlast : heard.getLast? with
  | none => rfl
  | some last =>
    have hretry := hfail last (List.mem_of_getLast? hlast)
    exact if_pos ⟨hretry, hlen⟩

/-- An attempt that goes on, of which all handshakes failed. -/
theorem Tries.of_unfinished (hr : s.attemptResult? a = none)
    (hfail : ∀ outcome ∈ heard, outcome.retryable) (hlen : (heard.length : Int) ≤ config.maxRetries)
    (hmade : config.trail heard.length <+: s.trail a)
    (hmakes : s.trail a <+: config.trail (heard.length + 1)) : s.Tries config a heard := by
  refine ⟨?_, Int.le_add_one hlen, ?_, ?_, hmade, hmakes, ?_⟩
  · exact fun outcome he => hfail outcome (List.dropLast_subset heard he)
  · rw [hr, undecided hfail hlen]
  · rw [hr]
    exact nofun
  · rw [hr]
    exact nofun

theorem tries_of_stands (hretries : 0 ≤ config.maxRetries) (ha : s.attempts[a]? = some attempt)
    (h : Stands config attempt.stage heard (s.trail a))
    (hne : s.attemptResult? a ≠ some .cancelled) : s.Tries config a heard := by
  obtain ⟨stage, asked⟩ := attempt
  generalize hmarks : s.trail a = marks at h
  cases h with
  | created =>
    refine .of_unfinished (attemptResult?_of_getElem? ha) (List.forall_mem_nil _) hretries ?_ ?_
    · exact List.nil_prefix
    · rw [hmarks]
      exact List.nil_prefix
  | shaking hfail hlen | lapsed hfail hlen =>
    refine .of_unfinished (attemptResult?_of_getElem? ha) hfail hlen ?_ ?_
    · exact hmarks ▸ config.trail_prefix_succ _
    · exact hmarks ▸ List.prefix_rfl
  | @resting heard last wakeAt elapsed hfail hlen =>
    have hcount : (heard ++ [last.outcome]).length = heard.length + 1 := List.length_append
    have hall : ∀ outcome ∈ heard ++ [last.outcome], outcome.retryable :=
      List.forall_mem_append.mpr ⟨hfail, List.forall_mem_singleton.mpr last.retryable_outcome⟩
    refine .of_unfinished (attemptResult?_of_getElem? ha) hall (hcount ▸ hlen) ?_ ?_
    · rw [hmarks, hcount]
      exact List.prefix_append _ _
    · rw [hmarks, hcount, config.trail_succ]
      exact (List.prefix_append_right_inj _).mpr (List.prefix_append [Mark.rest] _)
  | @finished heard last result hfail hlen hverdict =>
    have hcount : (heard ++ [last]).length = heard.length + 1 := List.length_append
    have hresult : s.attemptResult? a = some result := attemptResult?_of_getElem? ha
    have hlast : (heard ++ [last]).getLast? = some last := List.getLast?_concat
    have hmade : s.trail a = config.trail (heard ++ [last]).length := by rw [hmarks, hcount]
    refine ⟨?_, ?_, ?_, ?_, ?_, ?_, ?_⟩
    · rw [List.dropLast_concat]
      exact hfail
    · rw [hcount]
      exact Int.add_le_add_right hlen 1
    · rw [hresult, hlast, hcount]
      exact hverdict.symm
    · intro error herror
      obtain rfl := Option.some.inj (hresult.symm.trans herror)
      exact ⟨last, hlast, reports_result config (result_of_verdict? hverdict)⟩
    · exact hmade ▸ List.prefix_rfl
    · exact hmade ▸ config.trail_prefix_succ _
    · exact fun _ => hmade
  | cancelled => exact absurd (attemptResult?_of_getElem? ha) hne

/-! ## Steps -/

/-- What an attempt does in a step it does by running. -/
theorem ran_of_trail (hretries : 0 ≤ config.maxRetries) (h : s.TableSound)
    (hstood : s.Stood config a heard) {mark : Mark}
    (hgrows : (s.step config event).trail a = s.trail a ++ [mark]) :
    ∃ attempt stage asked, s.attempts[a]? = some attempt ∧
      (s.step config event).attempts[a]? = some ⟨stage, asked⟩ ∧
      Ran config s.now attempt stage [mark] := by
  have hne : (s.step config event).trail a ≠ s.trail a := by
    rw [hgrows]
    exact mt List.append_right_eq_self.mp (List.cons_ne_nil mark [])
  by_cases hown : event = .attemptRuns a ∧ s.admits event
  · obtain ⟨rfl, hadmits⟩ := hown
    obtain ⟨attempt, stage, marks, ha, ⟨⟨asked, hnew⟩, htrail⟩, hran⟩ := hstood.ran hretries hadmits
    rw [htrail] at hgrows
    obtain rfl := List.append_cancel_left hgrows
    exact ⟨attempt, stage, asked, ha, hnew, hran⟩
  · refine absurd ?_ hne
    by_cases hevent : event = .attemptRuns a
    · rw [step, if_neg fun hadmits => hown ⟨hevent, hadmits⟩]
    · exact trail_step config h hevent

/-- A handshake begins at the start of an attempt, or when a rest is over. -/
theorem stage_of_handshake (hretries : 0 ≤ config.maxRetries) (h : s.TableSound)
    (hstood : s.Stood config a heard)
    (hgrows : (s.step config event).trail a = s.trail a ++ [.handshake]) :
    ∃ attempt, s.attempts[a]? = some attempt ∧ (attempt.stage = .created ∨
      ∃ round last wakeAt, attempt.stage = .resting round last wakeAt true) := by
  obtain ⟨attempt, stage, asked, ha, -, hran⟩ := ran_of_trail hretries h hstood hgrows
  generalize hmarks : [Mark.handshake] = marks at hran
  cases hran with
  | began hasked hstage => exact ⟨attempt, ha, hstage.imp_right fun h => ⟨_, h⟩⟩
  | _ => cases hmarks

/-- A rest is one of the retry delay. -/
theorem stage_of_rest (hretries : 0 ≤ config.maxRetries) (h : s.TableSound)
    (hstood : s.Stood config a heard)
    (hgrows : (s.step config event).trail a = s.trail a ++ [.rest]) :
    ∃ attempt round last, (s.step config event).attempts[a]? = some attempt ∧
      attempt.stage = config.pause s.now round last := by
  obtain ⟨attempt, stage, asked, -, hnew, hran⟩ := ran_of_trail hretries h hstood hgrows
  generalize hmarks : [Mark.rest] = marks at hran
  cases hran with
  | rested hears hnone => exact ⟨_, _, _, hnew, rfl⟩
  | began hasked hstage =>
    rw [Config.roundMarks] at hmarks
    split at hmarks <;> cases hmarks
  | _ => cases hmarks

/-! ## Rounds that end as they are told to -/

/-- Whether an attempt stands before its next round, and nobody has asked it to stop. -/
def Ready (s : State) (a : AttemptId) (round : Nat) : Prop :=
  ∃ attempt, s.attempts[a]? = some attempt ∧ attempt.cancelRequested = false ∧
    attempt.stage.round = round ∧ (attempt.stage = .created ∨
      ∃ last wakeAt, attempt.stage = .resting attempt.stage.round last wakeAt true)

variable (config) in
/-- An attempt that runs without being asked to stop is not asked by that either. -/
theorem step_attemptRuns_unasked (ha : s.attempts[a]? = some attempt)
    (hasked : attempt.cancelRequested = false) (hcan : s.attemptCanRun a)
    (hround : attempt.stage.beforeRound → (attempt.stage.round : Int) ≤ config.maxRetries) :
    ∃ stage marks, (s.step config (.attemptRuns a)).attempts[a]? = some ⟨stage, false⟩ ∧
      Ran config s.now attempt stage marks := by
  have hrun : s.step config (.attemptRuns a) = s.runAttempt config a := if_pos hcan
  obtain ⟨stage, marks, ⟨⟨asked, hnew⟩, -⟩, hran⟩ := ran_runAttempt config ha hcan hround
  obtain ⟨new, hstep, hmoves⟩ := attempt_step config ha (.attemptRuns a)
  obtain rfl := Option.some.inj (hstep.symm.trans (hrun ▸ hnew))
  obtain rfl : asked = false := by
    cases asked with
    | false => rfl
    | true =>
      rcases hmoves.asked rfl with hold | hstops
      · exact hold.symm.trans hasked
      · cases hstops
  exact ⟨stage, marks, hstep, hran⟩

theorem Ready.begins {round : Nat} (h : s.Ready a round)
    (hround : (round : Int) ≤ config.maxRetries) :
    s.heard? a (.attemptRuns a) = none ∧ (s.step config (.attemptRuns a)).attempts[a]? =
      some ⟨config.opening s.now (round + 1), false⟩ := by
  obtain ⟨attempt, ha, hasked, rfl, hstage⟩ := h
  have hears : attempt.hears? = none := by
    rw [Attempt.hears?]
    rcases hstage with hstage | ⟨last, wakeAt, hstage⟩ <;> rw [hstage]
  have hcan : s.attemptCanRun a := by
    rw [attemptCanRun, ha]
    rcases hstage with hstage | ⟨last, wakeAt, hstage⟩ <;> dsimp only <;> rw [hstage]
    rfl
  obtain ⟨stage, marks, hnew, hran⟩ :=
    step_attemptRuns_unasked config ha hasked hcan fun _ => hround
  refine ⟨?_, ?_⟩
  · rw [heard?, if_pos rfl, ha]
    exact hears
  · cases hran with
    | began => exact hnew
    | rested hsome | ended hsome =>
      rw [hears] at hsome
      cases hsome
    | cancelled _ htrue =>
      rw [hasked] at htrue
      cases htrue

theorem hears_of_ending {now : Double} {round : Nat}
    (ha : s.attempts[a]? = some ⟨config.opening now round, false⟩) (outcome : HandshakeOutcome) :
    (s.step config (ending a outcome)).attemptCanRun a ∧
      ∃ attempt, (s.step config (ending a outcome)).attempts[a]? = some attempt ∧
        attempt.cancelRequested = false ∧ attempt.hears? = some (config.hears outcome) ∧
        attempt.stage.round = round := by
  have hadmits : s.admits (ending a outcome) = s.handshakeRuns a := by cases outcome <;> rfl
  rw [Config.opening] at ha
  rw [Config.hears]
  split at ha
  · next htime =>
    have hruns : s.handshakeRuns a = true := by rw [handshakeRuns, ha]
    rw [if_pos htime, step, if_pos (hadmits.trans hruns)]
    have hheard : ∃ told expired, (s.act config (ending a outcome)).attempts[a]? =
        some ⟨.handshaking round (now.add config.connectTimeout.toDouble) told expired, false⟩ ∧
        (told.isSome || expired) ∧ told.getD .timedOut = outcome := by
      cases outcome <;> exact ⟨_, _, attempts_setAttempt ha _, rfl, rfl⟩
    obtain ⟨told, expired, hnew, hcan, rfl⟩ := hheard
    refine ⟨?_, _, hnew, rfl, ?_, rfl⟩
    · rw [attemptCanRun, hnew]
      dsimp only
      rw [hcan]
      rfl
    · cases told <;> rfl
  · next htime =>
    have hruns : s.handshakeRuns a = false := by rw [handshakeRuns, ha]
    rw [if_neg htime, step, if_neg (by rw [hadmits, hruns]; exact Bool.false_ne_true)]
    refine ⟨?_, _, ha, rfl, rfl, rfl⟩
    rw [attemptCanRun, ha]

/-- An attempt that hears of the end of its handshake comes to its result, or rests. -/
theorem step_hears (ha : s.attempts[a]? = some attempt) (hasked : attempt.cancelRequested = false)
    (hcan : s.attemptCanRun a) {outcome : HandshakeOutcome}
    (hears : attempt.hears? = some outcome) :
    s.heard? a (.attemptRuns a) = some outcome ∧
      ∃ stage, (s.step config (.attemptRuns a)).attempts[a]? = some ⟨stage, false⟩ ∧
        match config.verdict? attempt.stage.round outcome with
        | some result => stage = .finished result
        | none => ∃ failure, stage = config.pause s.now attempt.stage.round failure := by
  have hbefore : attempt.stage.beforeRound = false := by
    obtain ⟨stage, asked⟩ := attempt
    cases stage with
    | created | resting _ _ _ _ => cases hears
    | _ => rfl
  obtain ⟨stage, marks, hnew, hran⟩ := step_attemptRuns_unasked config ha hasked hcan
    fun hready => absurd (hbefore.symm.trans hready) Bool.false_ne_true
  refine ⟨?_, stage, hnew, ?_⟩
  · rw [heard?, if_pos rfl, ha]
    exact hears
  · cases hran with
    | began hasked hstage =>
      rcases hstage with hstage | ⟨last, wakeAt, hstage⟩ <;> rw [hstage] at hbefore <;>
        cases hbefore
    | rested hsome hnone =>
      obtain rfl := Option.some.inj (hears.symm.trans hsome)
      rw [hnone]
      exact ⟨_, rfl⟩
    | ended hsome hverdict =>
      obtain rfl := Option.some.inj (hears.symm.trans hsome)
      rw [hverdict]
    | cancelled hnone =>
      rw [hnone] at hears
      cases hears

theorem ready_of_pause {now : Double} {round : Nat} {failure : HandshakeFailure}
    (ha : s.attempts[a]? = some ⟨config.pause now round failure, false⟩) :
    (s.step config (.restElapses a)).Ready a round := by
  rw [Config.pause] at ha
  cases hdelay : !config.retryDelay.isPositive with
  | true =>
    rw [hdelay] at ha
    have hadmits : s.admits (.restElapses a) = false := by rw [admits, ha]
    rw [step, hadmits]
    exact ⟨_, ha, rfl, rfl, .inr ⟨_, _, rfl⟩⟩
  | false =>
    rw [hdelay] at ha
    have hadmits : s.admits (.restElapses a) = true := by rw [admits, ha]
    rw [step, if_pos hadmits]
    exact ⟨_, attempts_setAttempt ha _, rfl, rfl, .inr ⟨_, _, rfl⟩⟩

/-- What an attempt hears in a round, it hears in the middle of it. -/
theorem ends_roundEvents (hbegins : s.heard? a (.attemptRuns a) = none)
    {outcome heard : HandshakeOutcome}
    (hcan : ((s.step config (.attemptRuns a)).step config (ending a outcome)).attemptCanRun a)
    (hheard : ((s.step config (.attemptRuns a)).step config (ending a outcome)).heard? a
      (.attemptRuns a) = some heard) : s.ends config a (roundEvents a outcome) = [heard] := by
  have hending : ∀ t : State, t.heard? a (ending a outcome) = none := by
    cases outcome <;> exact fun t => rfl
  have helapses : ∀ t : State, t.heard? a (.restElapses a) = none := fun t => rfl
  have hadmits : State.admits _ (.attemptRuns a) = true := hcan
  simp only [ends, roundEvents, each, hbegins, hending, helapses, hheard, hadmits, ite_self, if_true,
    Option.toList_none, Option.toList_some, List.nil_append, List.append_nil]

/-- A round of an attempt that nobody stops. -/
theorem Ready.round_spec {round : Nat} (h : s.Ready a round)
    (hround : (round : Int) ≤ config.maxRetries) (outcome : HandshakeOutcome) :
    s.ends config a (roundEvents a outcome) = [config.hears outcome] ∧
      match config.verdict? (round + 1) (config.hears outcome) with
      | some result => (s.run config (roundEvents a outcome)).attemptResult? a = some result
      | none => (s.run config (roundEvents a outcome)).Ready a (round + 1) := by
  obtain ⟨hbegins, hopening⟩ := h.begins hround
  obtain ⟨hcan, attempt, ha, hasked, hears, hstage⟩ := hears_of_ending (s := s.step config _)
    hopening outcome
  obtain ⟨hheard, stage, hnew, hverdict⟩ := step_hears ha hasked hcan hears
  refine ⟨ends_roundEvents hbegins hcan hheard, ?_⟩
  rw [hstage] at hverdict
  cases hv : config.verdict? (round + 1) (config.hears outcome) with
  | some result =>
    rw [hv] at hverdict
    subst hverdict
    exact attemptResult?_step config (attemptResult?_of_getElem? hnew) (.restElapses a)
  | none =>
    rw [hv] at hverdict
    obtain ⟨failure, rfl⟩ := hverdict
    exact ready_of_pause hnew

theorem heard?_of_result {result : AttemptResult} (hr : s.attemptResult? a = some result)
    (event : Event) : s.heard? a event = none := by
  by_cases hevent : event = .attemptRuns a
  · subst hevent
    obtain ⟨⟨stage, asked⟩, ha, hresult⟩ := Option.bind_eq_some_iff.mp hr
    rw [heard?, if_pos rfl, ha]
    cases stage with
    | finished _ => rfl
    | _ => cases hresult
  · exact heard?_of_ne hevent s

/-- An attempt that has ended hears of nothing. -/
theorem ends_of_result {result : AttemptResult} (hr : s.attemptResult? a = some result)
    (events : List Event) : s.ends config a events = [] := by
  induction events generalizing s with
  | nil => rfl
  | cons event events ih =>
    rw [ends, each, heard?_of_result hr, ite_self]
    exact ih (attemptResult?_step config hr event)

theorem Ready.attemptResult? {round : Nat} (h : s.Ready a round) : s.attemptResult? a = none := by
  obtain ⟨attempt, ha, -, -, hstage⟩ := h
  rw [attemptResult?_of_getElem? ha, Attempt.result?]
  rcases hstage with hstage | ⟨last, wakeAt, hstage⟩ <;> rw [hstage]

theorem result_ne_cancelled (outcome : HandshakeOutcome) : outcome.result ≠ .cancelled := by
  cases outcome <;> exact nofun

theorem attemptResult?_run {result : AttemptResult} (hr : s.attemptResult? a = some result)
    (events : List Event) : (s.run config events).attemptResult? a = some result :=
  run_keeps config (P := fun s => s.attemptResult? a = some result)
    (fun _ event hr => attemptResult?_step config hr event) hr events

/-- Rounds of an attempt that nobody stops: it makes them up to the one that settles it. -/
theorem Ready.rounds_spec {round : Nat} (h : s.Ready a round)
    (hround : (round : Int) ≤ config.maxRetries) (outcomes : List HandshakeOutcome) :
    s.ends config a (outcomes.flatMap (roundEvents a)) =
        heeded ((config.maxRetries + 1).toNat - round) (outcomes.map config.hears) ∧
      (s.run config (outcomes.flatMap (roundEvents a))).attemptResult? a ≠ some .cancelled := by
  induction outcomes generalizing s round with
  | nil =>
    refine ⟨(heeded_nil _).symm, ?_⟩
    show s.attemptResult? a ≠ some .cancelled
    rw [h.attemptResult?]
    exact nofun
  | cons outcome later ih =>
    obtain ⟨hends, hnext⟩ := h.round_spec hround outcome
    have hleft : (config.maxRetries + 1).toNat - round =
        ((config.maxRetries + 1).toNat - (round + 1)) + 1 := by omega
    rw [List.flatMap_cons, ends, each_append, ← ends, ← ends, hends, run_append, hleft,
      List.map_cons, heeded, List.singleton_append]
    cases hv : config.verdict? (round + 1) (config.hears outcome) with
    | some result =>
      rw [hv] at hnext
      rw [attemptResult?_run hnext, ends_of_result hnext, ← result_of_verdict? hv]
      refine ⟨congrArg _ ?_, fun hc => result_ne_cancelled _ (Option.some.inj hc)⟩
      split
      · next hagain =>
        -- The attempt has ended although it could have tried again, so no round is left.
        have hlast : ¬ ((round + 1 : Nat) : Int) ≤ config.maxRetries := by
          intro hle
          rw [Config.verdict?, if_pos ⟨hagain, hle⟩] at hv
          cases hv
        have hnone : (config.maxRetries + 1).toNat - (round + 1) = 0 := by omega
        rw [hnone, heeded]
      · rfl
    | none =>
      rw [hv] at hnext
      obtain ⟨hagain, hle⟩ := again_of_verdict? hv
      obtain ⟨hrest, hresult⟩ := ih hnext hle
      rw [if_pos hagain, hrest]
      exact ⟨rfl, hresult⟩

/-! ## Retries -/

/-- What an attempt of a run does to connect, with the ends of its handshakes in the run. `Woken` at
its first step is what every orderly schedule gives (`woken_of_orderly`): whoever waits for an
attempt goes on when it ends, and so before a later one starts. -/
structure Retries (config : Config) (s : State) (a : AttemptId) (heard : List HandshakeOutcome) :
    Prop where
  tries : s.attemptResult? a ≠ some .cancelled → s.Tries config a heard
  /-- A handshake begins at the start of the attempt, or when a rest is over. -/
  begins : ∀ event, (s.step config event).trail a = s.trail a ++ [.handshake] →
    ∃ attempt, s.attempts[a]? = some attempt ∧ (attempt.stage = .created ∨
      ∃ round last wakeAt, attempt.stage = .resting round last wakeAt true)
  /-- A rest is one of the retry delay. -/
  rests : ∀ event, (s.step config event).trail a = s.trail a ++ [.rest] →
    ∃ attempt round last, (s.step config event).attempts[a]? = some attempt ∧
      attempt.stage = config.pause s.now round last
  /-- From its first step on the session connects, until the attempt ends. -/
  connecting : ∀ (attempt : Attempt) (later : List Event), s.attempts[a]? = some attempt →
    attempt.stage = .created → s.Woken →
    (s.run config (.attemptRuns a :: later)).attemptResult? a = none →
    (s.run config (.attemptRuns a :: later)).phase = .connecting
  /-- The step in which it ends says how the session stands. -/
  ended : ∀ (event : Event) (result : AttemptResult), s.attemptResult? a = none →
    (s.step config event).attemptResult? a = some result →
    (s.step config event).phase = if result = .connected then .connected else .disconnected
  /-- Whatever the ends of handshakes to come are, an attempt that nobody stops makes them up to the
  one that settles it, and comes to its result. -/
  settles : s.attempts[a]? = some ⟨.created, false⟩ → ∀ outcomes : List HandshakeOutcome,
    let made := heeded (config.maxRetries + 1).toNat (outcomes.map config.hears)
    let t := s.run config (outcomes.flatMap (roundEvents a))
    s.ends config a (outcomes.flatMap (roundEvents a)) = made ∧
      t.attemptResult? a = made.getLast?.bind (config.verdict? made.length) ∧
      (config.maxRetries + 1 ≤ outcomes.length → (t.attemptResult? a).isSome)

/-- With enough handshakes to come, an attempt is settled by the last one that it waits for. -/
theorem settled_of_length (hretries : 0 ≤ config.maxRetries) {outcomes : List HandshakeOutcome}
    (hlen : config.maxRetries + 1 ≤ outcomes.length) :
    let made := heeded (config.maxRetries + 1).toNat outcomes
    (made.getLast?.bind (config.verdict? made.length)).isSome := by
  intro made
  have hpos : 0 < (config.maxRetries + 1).toNat := by omega
  obtain ⟨last, hlast, hall⟩ := getLast?_heeded hpos (Int.toNat_le.mpr hlen)
  rw [hlast, Option.bind_some, Config.verdict?, if_neg]
  · rfl
  · rintro ⟨hretry, hle⟩
    have hcount : made.length = (config.maxRetries + 1).toNat := hall hretry
    omega

theorem tries_run (hretries : 0 ≤ config.maxRetries) (events : List Event) (a : AttemptId)
    (hne : (run config {} events).attemptResult? a ≠ some .cancelled) :
    (run config {} events).Tries config a (ends config a {} events) := by
  have hstood := stood_run hretries a events
  cases ha : (run config {} events).attempts[a]? with
  | some attempt => exact tries_of_stands hretries ha ((stood_of_getElem? ha).mp hstood) hne
  | none =>
    rw [Stood, ha] at hstood
    obtain ⟨hempty, htrail⟩ := hstood
    have hr : (run config {} events).attemptResult? a = none := by
      rw [State.attemptResult?, ha]
      rfl
    rw [hempty]
    refine .of_unfinished hr (List.forall_mem_nil _) hretries List.nil_prefix ?_
    rw [htrail]
    exact List.nil_prefix

variable (config) in
/-- In every run, an attempt tries again until it is settled. -/
theorem retries_until_settled (hretries : 0 ≤ config.maxRetries) (events : List Event)
    (a : AttemptId) : Retries config (run config {} events) a (ends config a {} events) := by
  have h : (run config {} events).Sound := Sound.init.run config events
  have hstood := stood_run hretries a events
  constructor
  · exact tries_run hretries events a
  · exact fun event => stage_of_handshake hretries h.table hstood
  · exact fun event => stage_of_rest hretries h.table hstood
  · exact fun attempt later ha hstage hwoken hr =>
      (connects_run config h ha hstage hwoken later hr).phase
  · exact fun event result hr hended => phase_of_ended config h hr hended
  · intro ha outcomes
    have hready : (run config {} events).Ready a 0 := ⟨_, ha, rfl, rfl, .inl rfl⟩
    obtain ⟨hends, hne⟩ := hready.rounds_spec hretries outcomes
    rw [Nat.sub_zero] at hends
    have hempty := ((stood_of_getElem? ha).mp hstood).eq_nil_of_created
    have htries := tries_run hretries (events ++ outcomes.flatMap (roundEvents a)) a
    rw [run_append, ends, each_append, ← ends, ← ends, hempty, hends, List.nil_append] at htries
    have hresult := (htries hne).result
    refine ⟨hends, hresult, fun hlen => ?_⟩
    rw [hresult]
    exact settled_of_length hretries (by rwa [List.length_map])

/-- An attempt of two rounds whose first handshake is refused, and whose second one times out. It
says that the session connects while it rests. -/
theorem retries_until_settled_exhausted :
    let config : Config := { maxRetries := 1 }
    let start := run config {} [.arrive .connect, .resume 0]
    let events := .arrive .connect :: .resume 0 ::
      [HandshakeOutcome.refused "down", .timedOut].flatMap (roundEvents 0)
    let s := run config {} events
    0 ≤ config.maxRetries ∧ s.attemptResult? 0 = some (.failed .timedOut) ∧
      s.trail 0 = [.handshake, .rest, .handshake] ∧
      s.Tries config 0 [.refused "down", .timedOut] ∧
      (start.run config [.attemptRuns 0, .handshakeEnds 0 (.refused "down"),
        .attemptRuns 0]).phase = .connecting := by
  intro config start events s
  have hretries : 0 ≤ config.maxRetries := by decide
  have hresult : s.attemptResult? 0 = some (.failed .timedOut) := by decide +kernel
  have hheard : ends config 0 {} events = [.refused "down", .timedOut] := by decide +kernel
  have htries := (retries_until_settled config hretries events 0).tries
  have hne : s.attemptResult? 0 ≠ some .cancelled := by
    rw [hresult]
    exact nofun
  have hwoken : start.Woken := by
    intro c call b hc hb
    match c with
    | 0 =>
      cases hc
      cases hb
    | c + 1 => cases hc
  have hconnecting := (retries_until_settled config hretries
    [.arrive .connect, .resume 0] 0).connecting ⟨.created, false⟩
    [.handshakeEnds 0 (.refused "down"), .attemptRuns 0] rfl rfl hwoken (by decide +kernel)
  rw [hheard] at htries
  exact ⟨hretries, hresult, by decide +kernel, htries hne, hconnecting⟩

end State

end EditorLink.Session
