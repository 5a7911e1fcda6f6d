import Mathlib.Data.List.Induction
import EditorLink.Proofs.Session.SingleFlight

/-!
# Which attempt opened which socket

A socket comes into being when an attempt runs whose handshake has opened, and the attempt ends with
it. A new current socket is always a new one, so a socket that is not current any more never becomes
current again. An attempt is over when it has finished and the socket that it opened, if it opened
one, is not current any more: no later step brings anything of it back.
-/

namespace EditorLink.Session

namespace State

/-- A socket that the session had and that is not its current one. -/
def Former (s : State) (k : SocketId) : Prop := k < s.sockets.length ∧ s.socket ≠ some k

/-- A socket whose close was called for or whose reader has ended. -/
def Gone (s : State) (k : SocketId) : Prop :=
  ∃ socket, s.sockets[k]? = some socket ∧ (socket.closeCalled ∨ socket.reader.hasEnded)

variable (config : Config) {s t : State} {a : AttemptId} {c : CallId} {k : SocketId}
  {events : List Event} {event : Event}

theorem run_append (s : State) (events later : List Event) :
    s.run config (events ++ later) = (s.run config events).run config later :=
  List.foldl_append

theorem run_append_singleton (s : State) (events : List Event) (event : Event) :
    s.run config (events ++ [event]) = (s.run config events).step config event :=
  run_append config s events [event]

theorem Former.gone (h : s.Sound) (hk : s.Former k) : s.Gone k := by
  obtain ⟨hlt, hne⟩ := hk
  have hsocket : s.sockets[k]? = some s.sockets[k] := List.getElem?_eq_getElem hlt
  exact ⟨_, hsocket, (h.link.accounted k _ hsocket).resolve_left hne⟩

theorem former_of_socket_eq_none (hs : s.socket = none) (hlt : k < s.sockets.length) :
    s.Former k := by
  refine ⟨hlt, ?_⟩
  rw [hs]
  simp

/-! ## The current socket -/

theorem Former.step (h : s.Former k) (event : Event) : (s.step config event).Former k := by
  obtain ⟨hlt, hne⟩ := h
  refine ⟨Nat.lt_of_lt_of_le hlt (sockets_step config s event), ?_⟩
  rcases sockets_step_cases config s event with ⟨-, hsame | hnone⟩ | ⟨-, -, hnew, -⟩
  · rwa [hsame]
  · rw [hnone]
    simp
  · rw [hnew]
    exact fun heq => Nat.ne_of_gt hlt (Option.some.inj heq)

/-- The current socket exists. -/
theorem socket_lt (events : List Event) (hs : (run config {} events).socket = some k) :
    k < (run config {} events).sockets.length := by
  have hkeeps := run_keeps config
    (P := fun s => ∀ k, s.socket = some k → k < s.sockets.length) (fun s event h k hk => ?_)
    (s := {}) (fun _ hk => by cases hk) events
  · exact hkeeps k hs
  · rcases sockets_step_cases config s event with ⟨-, hsame | hnone⟩ | ⟨-, -, hnew, hone⟩
    · exact Nat.lt_of_lt_of_le (h k (hsame ▸ hk)) (sockets_step config s event)
    · rw [hnone] at hk
      cases hk
    · obtain rfl := Option.some.inj (hnew.symm.trans hk)
      rw [hone]
      exact Nat.lt_succ_self _

/-! ## Openings -/

/-- In a run, an attempt opened a socket. -/
def Opens (events : List Event) (a : AttemptId) (k : SocketId) : Prop :=
  ∃ before after, events = before ++ .attemptRuns a :: after ∧
    (run config {} before).sockets.length = k ∧
    ((run config {} before).step config (.attemptRuns a)).sockets.length = k + 1

/-- An attempt that opens a socket in a step was unfinished and ends with it. -/
theorem connected_of_opened
    (hlt : s.sockets.length < (s.step config (.attemptRuns a)).sockets.length) :
    s.attemptResult? a = none ∧
      (s.step config (.attemptRuns a)).attemptResult? a = some .connected := by
  by_cases hadmits : s.admits (.attemptRuns a)
  · have hact : s.step config (.attemptRuns a) = s.runAttempt config a := if_pos hadmits
    rcases (attemptTurn_runAttempt config s a).sockets with hnone | ⟨attempt, ha, ho, -⟩
    · rw [hact, hnone.length] at hlt
      exact absurd hlt (Nat.lt_irrefl _)
    · obtain ⟨stage, asked⟩ := attempt
      cases stage with
      | handshaking round deadline outcome expired =>
        obtain rfl : outcome = some .opened := ho
        refine ⟨attemptResult?_of_getElem? ha, ?_⟩
        have hcleared : (s.setAttempt a fun attempt =>
          { attempt with cancelRequested := false }).install.attempts[a]? = _ :=
            attempts_setAttempt ha _
        rw [hact, runAttempt, ha]
        exact attemptResult?_setAttempt hcleared (.finished .connected)
      | _ => cases ho
  · rw [show s.step config (.attemptRuns a) = s from if_neg hadmits] at hlt
    exact absurd hlt (Nat.lt_irrefl _)

variable {config}

theorem Opens.append (h : Opens config events a k) (later : List Event) :
    Opens config (events ++ later) a k := by
  obtain ⟨before, after, rfl, hk, hopened⟩ := h
  exact ⟨before, after ++ later, by simp, hk, hopened⟩

/-- What a longer run has opened, it had opened before or opens in its last step. -/
theorem Opens.of_append_singleton (h : Opens config (events ++ [event]) a k) :
    Opens config events a k ∨ event = .attemptRuns a ∧
      (run config {} events).sockets.length <
        ((run config {} events).step config event).sockets.length := by
  obtain ⟨before, after, heq, hk, hopened⟩ := h
  rcases List.eq_nil_or_concat after with rfl | ⟨init, last, rfl⟩
  · obtain ⟨rfl, hevent⟩ := List.append_inj' heq rfl
    obtain rfl := List.singleton_inj.mp hevent
    refine .inr ⟨rfl, ?_⟩
    rw [hk, hopened]
    exact Nat.lt_succ_self k
  · refine .inl ⟨before, init, ?_, hk, hopened⟩
    rw [List.concat_eq_append, ← List.cons_append, ← List.append_assoc] at heq
    exact (List.append_inj' heq rfl).1

theorem Opens.lt (h : Opens config events a k) : k < (run config {} events).sockets.length := by
  obtain ⟨before, after, rfl, hk, hopened⟩ := h
  rw [run_append]
  refine Nat.lt_of_lt_of_le ?_ (sockets_run config _ after)
  show k < ((run config {} before).step config (.attemptRuns a)).sockets.length
  rw [hopened]
  exact Nat.lt_succ_self k

theorem Opens.connected (h : Opens config events a k) :
    (run config {} events).attemptResult? a = some .connected := by
  obtain ⟨before, after, rfl, hk, hopened⟩ := h
  have hlt : (run config {} before).sockets.length <
      ((run config {} before).step config (.attemptRuns a)).sockets.length := by
    rw [hk, hopened]
    exact Nat.lt_succ_self k
  rw [run_append]
  exact run_keeps config (P := fun s => s.attemptResult? a = some .connected)
    (fun s event hr => attemptResult?_step config hr event) (connected_of_opened config hlt).2 after

/-- Every socket of a run was opened by an attempt. -/
theorem exists_opens (events : List Event) (hlt : k < (run config {} events).sockets.length) :
    ∃ a, Opens config events a k := by
  induction events using List.reverseRecOn with
  | nil => cases hlt
  | append_singleton events event ih =>
    rw [run_append_singleton] at hlt
    rcases Nat.lt_or_ge k (run config {} events).sockets.length with hold | hnew
    · obtain ⟨a, ha⟩ := ih hold
      exact ⟨a, ha.append [event]⟩
    · rcases sockets_step_cases config (run config {} events) event with
        ⟨hsame, -⟩ | ⟨a, rfl, -, hone⟩
      · rw [hsame] at hlt
        exact absurd hlt (Nat.not_lt_of_ge hnew)
      · rw [hone] at hlt
        have hk := Nat.le_antisymm hnew (Nat.le_of_lt_succ hlt)
        exact ⟨a, events, [], rfl, hk, hone.trans (congrArg (· + 1) hk)⟩

/-! ## Attempts that are over -/

/-- In a run, an attempt has finished, and a socket that it opened is not current any more. -/
structure Over (config : Config) (events : List Event) (a : AttemptId) : Prop where
  finished : ((run config {} events).attemptResult? a).isSome
  former : ∀ k, Opens config events a k → (run config {} events).Former k

theorem Over.append_singleton (h : Over config events a) (event : Event) :
    Over config (events ++ [event]) a := by
  obtain ⟨result, hr⟩ := Option.isSome_iff_exists.mp h.finished
  constructor
  · rw [run_append_singleton, attemptResult?_step config hr event]
    rfl
  · intro k hk
    rw [run_append_singleton]
    rcases hk.of_append_singleton with hold | ⟨rfl, hlt⟩
    · exact (h.former k hold).step config event
    · -- An attempt that has finished opens nothing more.
      rw [(connected_of_opened config hlt).1] at hr
      cases hr

/-- Without a current socket, an attempt that has finished is over. -/
theorem Over.of_socket_eq_none (hs : (run config {} events).socket = none)
    (hr : ((run config {} events).attemptResult? a).isSome) : Over config events a :=
  ⟨hr, fun _ hk => former_of_socket_eq_none hs hk.lt⟩

/-- An attempt that has finished without a connection is over. -/
theorem Over.of_not_connected {result : AttemptResult}
    (hr : (run config {} events).attemptResult? a = some result) (hne : result ≠ .connected) :
    Over config events a := by
  refine ⟨hr ▸ rfl, fun k hk => absurd ?_ hne⟩
  exact Option.some.inj (hr.symm.trans hk.connected)

end State

end EditorLink.Session
