import EditorLink.Proofs.Session.Link

/-!
# The table of commands

`TableSound` ties the table, the timers, the calls and the history together. The timers are those of
the entries; an entry's call has sent its command on the current socket and has no answer yet; and a
call that can take an answer has an entry. An answer is completed when it is put into a call, or
when its caller is cancelled while it waits for it. Here are the changes of a state that keep the
table sound; that the functions of a session are made of them is shown elsewhere.
-/

namespace EditorLink.Session

namespace Effect

/-- Whether an effect completes the answer of a command. -/
def completes (id : CommandId) : Effect → Bool
  | .settled own _ => own == id
  | .withdrawn own => own == id
  | _ => false

/-- Whether an effect tells nothing about commands and their answers. -/
def silent : Effect → Bool
  | .registered _ _ => false
  | .settled _ _ => false
  | .withdrawn _ => false
  | _ => true

theorem completes_of_silent {effect : Effect} (h : effect.silent) (id : CommandId) :
    effect.completes id = false := by
  cases effect with
  | settled id answer => cases h
  | withdrawn id => cases h
  | _ => rfl

theorem silent_of_isOfAttempt {effect : Effect} {a : AttemptId} (h : effect.isOfAttempt a) :
    effect.silent := by
  cases effect <;> first | rfl | cases h

end Effect

namespace State

def completions (s : State) (id : CommandId) : Nat := s.history.countP (·.completes id)

structure TableSound (s : State) : Prop where
  timers_eq : s.timers.map (·.id) = s.pending.map (·.id)
  pending_nodup : (s.pending.map (·.id)).Nodup
  pending_flies : ∀ entry ∈ s.pending, ∃ call k, s.calls[entry.call]? = some call ∧
    call.flight? = some ⟨entry.id, k, none⟩ ∧ s.socket = some k ∧
    ∃ params, call.kind = .send entry.commandType params
  awaited_pending : ∀ (c : CallId) (call : Call) (id : CommandId), s.calls[c]? = some call →
    call.awaited? = some id → ∃ entry ∈ s.pending, entry.id = id ∧ entry.call = c
  flight_registered : ∀ (c : CallId) (call : Call) (flight : Flight), s.calls[c]? = some call →
    call.flight? = some flight → .registered flight.id c ∈ s.history
  registered_lt : ∀ (id : CommandId) (c : CallId), .registered id c ∈ s.history → id < s.nextId
  registered_unique : ∀ (id : CommandId) (c d : CallId), .registered id c ∈ s.history →
    .registered id d ∈ s.history → c = d
  completions_le : ∀ id, s.completions id ≤ 1
  completions_awaited : ∀ (c : CallId) (call : Call) (id : CommandId), s.calls[c]? = some call →
    call.awaited? = some id → s.completions id = 0
  completions_new : ∀ id, s.nextId ≤ id → s.completions id = 0

/-- Whether a state differs from another in nothing that the table depends on. -/
structure Quiet (s t : State) : Prop where
  socket : t.socket = s.socket
  pending : t.pending = s.pending
  timers : t.timers = s.timers
  nextId : t.nextId = s.nextId
  calls : t.calls = s.calls
  history : ∃ effects, t.history = effects ++ s.history ∧ ∀ effect ∈ effects, effect.silent

variable {s t u : State} {c : CallId} {call : Call} {id : CommandId}

namespace Quiet

/-- A state with the same socket, table, calls and record. -/
theorem of_eq (hsocket : t.socket = s.socket) (hpending : t.pending = s.pending)
    (htimers : t.timers = s.timers) (hnext : t.nextId = s.nextId) (hcalls : t.calls = s.calls)
    (hhistory : t.history = s.history) : s.Quiet t where
  socket := hsocket
  pending := hpending
  timers := htimers
  nextId := hnext
  calls := hcalls
  history := ⟨[], hhistory, by simp⟩

protected theorem refl (s : State) : s.Quiet s :=
  of_eq rfl rfl rfl rfl rfl rfl

theorem trans (h : s.Quiet t) (h' : t.Quiet u) : s.Quiet u where
  socket := h'.socket.trans h.socket
  pending := h'.pending.trans h.pending
  timers := h'.timers.trans h.timers
  nextId := h'.nextId.trans h.nextId
  calls := h'.calls.trans h.calls
  history := by
    obtain ⟨first, h1, hs1⟩ := h.history
    obtain ⟨second, h2, hs2⟩ := h'.history
    refine ⟨second ++ first, by rw [h2, h1, List.append_assoc], ?_⟩
    intro effect he
    rcases List.mem_append.mp he with he | he
    · exact hs2 effect he
    · exact hs1 effect he

theorem record {effect : Effect} (he : effect.silent) : s.Quiet (s.record effect) where
  socket := .refl _
  pending := .refl _
  timers := .refl _
  nextId := .refl _
  calls := .refl _
  history := ⟨[effect], .refl _, by simpa using he⟩

theorem setAttempt (a : AttemptId) (f : Attempt → Attempt) : s.Quiet (s.setAttempt a f) :=
  of_eq rfl rfl rfl rfl rfl rfl

theorem setSocket (k : SocketId) (f : Socket → Socket) : s.Quiet (s.setSocket k f) :=
  of_eq rfl rfl rfl rfl rfl rfl

theorem mem_registered (h : s.Quiet t) :
    .registered id c ∈ t.history ↔ .registered id c ∈ s.history := by
  obtain ⟨effects, he, hs⟩ := h.history
  rw [he, List.mem_append, or_iff_right]
  intro hmem
  cases hs _ hmem

theorem completions (h : s.Quiet t) (id : CommandId) : t.completions id = s.completions id := by
  obtain ⟨effects, he, hs⟩ := h.history
  have hzero : effects.countP (·.completes id) = 0 := by
    rw [List.countP_eq_zero]
    intro effect hmem
    rw [Effect.completes_of_silent (hs effect hmem)]
    decide
  rw [State.completions, State.completions, he, List.countP_append, hzero, Nat.zero_add]

end Quiet

namespace TableSound

theorem quiet (h : s.TableSound) (q : s.Quiet t) : t.TableSound where
  timers_eq := by rw [q.timers, q.pending]; exact h.timers_eq
  pending_nodup := by rw [q.pending]; exact h.pending_nodup
  pending_flies := by rw [q.pending, q.calls, q.socket]; exact h.pending_flies
  awaited_pending := by rw [q.pending, q.calls]; exact h.awaited_pending
  flight_registered := by
    intro c call flight hc hf
    rw [q.calls] at hc
    exact q.mem_registered.mpr (h.flight_registered c call flight hc hf)
  registered_lt := by
    intro id c hr
    rw [q.nextId]
    exact h.registered_lt id c (q.mem_registered.mp hr)
  registered_unique := fun id c d hc hd =>
    h.registered_unique id c d (q.mem_registered.mp hc) (q.mem_registered.mp hd)
  completions_le := fun id => (q.completions id).symm ▸ h.completions_le id
  completions_awaited := by
    intro c call id hc ha
    rw [q.calls] at hc
    rw [q.completions]
    exact h.completions_awaited c call id hc ha
  completions_new := by
    intro id hid
    rw [q.nextId] at hid
    rw [q.completions]
    exact h.completions_new id hid

/-- Two calls that have sent the same command are one call. -/
theorem flight_unique (h : s.TableSound) {d : CallId} {other : Call} {flight flight' : Flight}
    (hc : s.calls[c]? = some call) (hf : call.flight? = some flight)
    (hd : s.calls[d]? = some other) (hf' : other.flight? = some flight')
    (hid : flight.id = flight'.id) : c = d := by
  have h1 := h.flight_registered c call flight hc hf
  have h2 := h.flight_registered d other flight' hd hf'
  rw [hid] at h1
  exact h.registered_unique _ c d h1 h2

/-- A call has one entry in the table. -/
theorem entry_unique (h : s.TableSound) {entry other : Pending} (he : entry ∈ s.pending)
    (ho : other ∈ s.pending) (hcall : entry.call = other.call) : entry = other := by
  obtain ⟨call, k, hc, hf, -, params, hkind⟩ := h.pending_flies entry he
  obtain ⟨call', k', hc', hf', -, params', hkind'⟩ := h.pending_flies other ho
  rw [hcall, hc'] at hc
  obtain rfl := Option.some.inj hc
  obtain ⟨id, commandType, c⟩ := entry
  obtain ⟨id', commandType', c'⟩ := other
  rw [hf'] at hf
  rw [hkind'] at hkind
  cases hf
  cases hkind
  cases hcall
  rfl

/-- A command has one entry in the table. -/
theorem entry_unique_of_id (h : s.TableSound) {entry other : Pending} (he : entry ∈ s.pending)
    (ho : other ∈ s.pending) (hid : entry.id = other.id) : entry = other := by
  obtain ⟨call, k, hc, hf, -⟩ := h.pending_flies entry he
  obtain ⟨call', k', hc', hf', -⟩ := h.pending_flies other ho
  exact h.entry_unique he ho (h.flight_unique hc hf hc' hf' hid)

theorem pending_lt (h : s.TableSound) {entry : Pending} (he : entry ∈ s.pending) :
    entry.id < s.nextId := by
  obtain ⟨call, k, hc, hf, -⟩ := h.pending_flies entry he
  exact h.registered_lt _ _ (h.flight_registered _ call _ hc hf)

/-- A call that has not sent a command does not have its entry. -/
theorem call_ne (h : s.TableSound) (hc : s.calls[c]? = some call) {entry : Pending}
    (he : entry ∈ s.pending)
    (hne : ∀ flight, call.flight? = some flight → entry.id ≠ flight.id) : c ≠ entry.call := by
  rintro rfl
  obtain ⟨other, k, hother, hfl, -⟩ := h.pending_flies entry he
  obtain rfl := Option.some.inj (hother.symm.trans hc)
  exact hne _ hfl rfl

theorem pending_eq_nil (h : s.TableSound) (hs : s.socket = none) : s.pending = [] := by
  apply List.eq_nil_iff_forall_not_mem.mpr
  intro entry he
  obtain ⟨call, k, -, -, hk, -⟩ := h.pending_flies entry he
  rw [hs] at hk
  cases hk

/-- A change of one call that neither sends nor takes anything. -/
theorem setCall (h : s.TableSound) (f : Call → Call)
    (hf : ∀ call, s.calls[c]? = some call → (f call).kind = call.kind ∧
      (f call).flight? = call.flight? ∧
      ∀ id, (f call).awaited? = some id → call.awaited? = some id) :
    (s.setCall c f).TableSound := by
  have hcalls := s.calls_setCall c (f := f)
  have hold : ∀ (d : CallId) (new : Call), (s.setCall c f).calls[d]? = some new →
      ∃ old : Call, s.calls[d]? = some old ∧ new.flight? = old.flight? ∧
        ∀ id, new.awaited? = some id → old.awaited? = some id := by
    intro d new hd
    rw [hcalls] at hd
    split at hd
    · next hcd =>
      subst hcd
      obtain ⟨old, hold, rfl⟩ := Option.map_eq_some_iff.mp hd
      exact ⟨old, hold, (hf old hold).2⟩
    · exact ⟨new, hd, rfl, fun _ => id⟩
  constructor
  · exact h.timers_eq
  · exact h.pending_nodup
  · intro entry he
    obtain ⟨call, k, hc, hflight, hs, params, hkind⟩ := h.pending_flies entry he
    by_cases hce : c = entry.call
    · subst hce
      obtain ⟨h1, h2, -⟩ := hf call hc
      refine ⟨f call, k, ?_, h2.trans hflight, hs, params, h1.trans hkind⟩
      rw [hcalls, if_pos rfl, hc]
      rfl
    · exact ⟨call, k, by rw [hcalls, if_neg hce]; exact hc, hflight, hs, params, hkind⟩
  · intro d new id hd ha
    obtain ⟨old, hold, -, hawaited⟩ := hold d new hd
    exact h.awaited_pending d old id hold (hawaited id ha)
  · intro d new flight hd hfl
    obtain ⟨old, hold, hflight, -⟩ := hold d new hd
    exact h.flight_registered d old flight hold (hflight ▸ hfl)
  · exact h.registered_lt
  · exact h.registered_unique
  · exact h.completions_le
  · intro d new id hd ha
    obtain ⟨old, hold, -, hawaited⟩ := hold d new hd
    exact h.completions_awaited d old id hold (hawaited id ha)
  · exact h.completions_new

/-- A call that has just arrived. -/
theorem arrive (h : s.TableSound) (kind : CallKind) :
    TableSound { s with calls := s.calls ++ [⟨kind, .arrived, false⟩] } := by
  have hold : ∀ (d : CallId) (new : Call), (s.calls ++ [⟨kind, .arrived, false⟩])[d]? = some new →
      s.calls[d]? = some new ∨ new.flight? = none := by
    intro d new hd
    rcases Nat.lt_or_ge d s.calls.length with hlt | hge
    · rw [List.getElem?_append_left hlt] at hd
      exact .inl hd
    · rw [List.getElem?_append_right hge, List.getElem?_singleton] at hd
      split at hd
      · cases hd
        exact .inr rfl
      · cases hd
  constructor
  · exact h.timers_eq
  · exact h.pending_nodup
  · intro entry he
    obtain ⟨call, k, hc, hrest⟩ := h.pending_flies entry he
    obtain ⟨hlt, -⟩ := List.getElem?_eq_some_iff.mp hc
    exact ⟨call, k, (List.getElem?_append_left hlt).trans hc, hrest⟩
  · intro d new id hd ha
    rcases hold d new hd with hd | hnone
    · exact h.awaited_pending d new id hd ha
    · rw [Call.awaited?_eq_none hnone] at ha
      cases ha
  · intro d new flight hd hf
    rcases hold d new hd with hd | hnone
    · exact h.flight_registered d new flight hd hf
    · rw [hnone] at hf
      cases hf
  · exact h.registered_lt
  · exact h.registered_unique
  · exact h.completions_le
  · intro d new id hd ha
    rcases hold d new hd with hd | hnone
    · exact h.completions_awaited d new id hd ha
    · rw [Call.awaited?_eq_none hnone] at ha
      cases ha
  · exact h.completions_new

/-- A command leaves the table, and its call no longer waits for its answer. -/
theorem release (h : s.TableSound) {flight : Flight} (hc : s.calls[c]? = some call)
    (hf : call.flight? = some flight) (f : Call → Call) (hawaited : (f call).awaited? = none)
    (hflight : ∀ new, (f call).flight? = some new → new.id = flight.id) :
    (((s.removePending flight.id).disarm flight.id).setCall c f).TableSound := by
  have hcalls : ∀ d, (((s.removePending flight.id).disarm flight.id).setCall c f).calls[d]? =
      if c = d then s.calls[d]?.map f else s.calls[d]? :=
    fun d => calls_setCall ((s.removePending flight.id).disarm flight.id) c d f
  have hold : ∀ (d : CallId) (new : Call),
      (((s.removePending flight.id).disarm flight.id).setCall c f).calls[d]? = some new →
      (c = d ∧ new = f call) ∨ (c ≠ d ∧ s.calls[d]? = some new) := by
    intro d new hd
    exact calls_setCall_cases (s := (s.removePending flight.id).disarm flight.id) hc hd
  have hpending : ∀ entry, entry ∈ s.pending.filter (·.id != flight.id) ↔
      entry ∈ s.pending ∧ entry.id ≠ flight.id := by
    intro entry
    simp [List.mem_filter]
  constructor
  · have := congrArg (List.filter (· != flight.id)) h.timers_eq
    rwa [List.filter_map, List.filter_map] at this
  · have := h.pending_nodup.filter (· != flight.id)
    rwa [List.filter_map] at this
  · intro entry he
    obtain ⟨hmem, hne⟩ := (hpending entry).mp he
    have hcall : c ≠ entry.call := by
      refine h.call_ne hc hmem fun fl hfl => ?_
      obtain rfl := Option.some.inj (hf.symm.trans hfl)
      exact hne
    obtain ⟨other, k, hother, hrest⟩ := h.pending_flies entry hmem
    exact ⟨other, k, by rw [hcalls, if_neg hcall, hother], hrest⟩
  · intro d new id hd ha
    rcases hold d new hd with ⟨-, rfl⟩ | ⟨hcd, hd⟩
    · rw [hawaited] at ha
      cases ha
    · obtain ⟨entry, hmem, hid, hcall⟩ := h.awaited_pending d new id hd ha
      refine ⟨entry, (hpending entry).mpr ⟨hmem, fun hid' => hcd ?_⟩, hid, hcall⟩
      obtain ⟨k, hfl⟩ := Call.flight?_of_awaited? ha
      exact h.flight_unique hc hf hd hfl (hid'.symm.trans hid)
  · intro d new fl hd hfl
    rcases hold d new hd with ⟨rfl, rfl⟩ | ⟨-, hd⟩
    · rw [hflight fl hfl]
      exact h.flight_registered c call flight hc hf
    · exact h.flight_registered d new fl hd hfl
  · exact h.registered_lt
  · exact h.registered_unique
  · exact h.completions_le
  · intro d new id hd ha
    rcases hold d new hd with ⟨-, rfl⟩ | ⟨-, hd⟩
    · rw [hawaited] at ha
      cases ha
    · exact h.completions_awaited d new id hd ha
  · exact h.completions_new

/-- The answer of a command is completed, which no call waits for any more. -/
theorem complete (h : s.TableSound) {flight : Flight} (hc : s.calls[c]? = some call)
    (hf : call.flight? = some flight) (ha : call.awaited? = none)
    (hzero : s.completions flight.id = 0) {effect : Effect}
    (heffect : ∀ id, effect.completes id → id = flight.id)
    (hregistered : ∀ id d, effect ≠ .registered id d) : (s.record effect).TableSound := by
  have hcompletions : ∀ id, (s.record effect).completions id =
      s.completions id + if effect.completes id then 1 else 0 := by
    intro id
    exact List.countP_cons
  have hmem : ∀ {id d}, .registered id d ∈ (s.record effect).history →
      .registered id d ∈ s.history := by
    intro id d hr
    rcases List.mem_cons.mp hr with hr | hr
    · exact absurd hr.symm (hregistered id d)
    · exact hr
  have hother : ∀ id, id ≠ flight.id → (s.record effect).completions id = s.completions id := by
    intro id hid
    rw [hcompletions, if_neg fun he => hid (heffect id he), Nat.add_zero]
  constructor
  · exact h.timers_eq
  · exact h.pending_nodup
  · exact h.pending_flies
  · exact h.awaited_pending
  · exact fun d other fl hd hfl => List.mem_cons_of_mem _ (h.flight_registered d other fl hd hfl)
  · exact fun id d hr => h.registered_lt id d (hmem hr)
  · exact fun id d e hd he => h.registered_unique id d e (hmem hd) (hmem he)
  · intro id
    by_cases hid : id = flight.id
    · rw [hcompletions, hid, hzero]
      split <;> decide
    · rw [hother id hid]
      exact h.completions_le id
  · intro d other id hd hawaited
    rw [hother id]
    · exact h.completions_awaited d other id hd hawaited
    · rintro rfl
      obtain ⟨k, hfl⟩ := Call.flight?_of_awaited? hawaited
      obtain rfl := h.flight_unique hc hf hd hfl rfl
      obtain rfl := Option.some.inj (hc.symm.trans hd)
      rw [ha] at hawaited
      cases hawaited
  · intro id hid
    rw [hother id]
    · exact h.completions_new id hid
    · intro he
      have hlt := h.registered_lt _ _ (h.flight_registered c call flight hc hf)
      rw [he] at hid
      exact Nat.not_le_of_lt hlt hid

/-- A command that is given up at once still uses its id. -/
theorem skip (h : s.TableSound) (c : CallId) :
    TableSound { s with
      nextId := s.nextId + 1, history := .registered s.nextId c :: s.history } where
  timers_eq := h.timers_eq
  pending_nodup := h.pending_nodup
  pending_flies := h.pending_flies
  awaited_pending := h.awaited_pending
  flight_registered := fun d other fl hd hfl =>
    List.mem_cons_of_mem _ (h.flight_registered d other fl hd hfl)
  registered_lt := by
    intro id d hr
    rcases List.mem_cons.mp hr with hr | hr
    · cases hr
      exact Nat.lt_succ_self _
    · exact Nat.lt_succ_of_lt (h.registered_lt id d hr)
  registered_unique := by
    intro id d e hd he
    rcases List.mem_cons.mp hd with hd | hd
    · rcases List.mem_cons.mp he with he | he
      · cases hd
        cases he
        rfl
      · cases hd
        exact absurd (h.registered_lt _ e he) (Nat.lt_irrefl _)
    · rcases List.mem_cons.mp he with he | he
      · cases he
        exact absurd (h.registered_lt _ d hd) (Nat.lt_irrefl _)
      · exact h.registered_unique id d e hd he
  completions_le := h.completions_le
  completions_awaited := h.completions_awaited
  completions_new := fun id hid => h.completions_new id (Nat.le_of_succ_le hid)

theorem pending_nodup_enroll (h : s.TableSound) (c : CallId) (commandType : String) (due : Double) :
    ((s.enroll c commandType due).pending.map (·.id)).Nodup := by
  show ((s.pending ++ [_]).map _).Nodup
  rw [List.map_append, List.nodup_append]
  refine ⟨h.pending_nodup, List.nodup_cons.mpr ⟨List.not_mem_nil, List.nodup_nil⟩, ?_⟩
  intro id hid new hnew heq
  obtain ⟨entry, he, rfl⟩ := List.mem_map.mp hid
  rw [List.map_singleton, List.mem_singleton] at hnew
  exact Nat.ne_of_lt (h.pending_lt he) (heq.trans hnew)

/-- A call sends a new command on the current socket. -/
theorem enroll (h : s.TableSound) (hc : s.calls[c]? = some call) (hf : call.flight? = none)
    {commandType : String} {params : Value} (hkind : call.kind = .send commandType params)
    {k : SocketId} (hs : s.socket = some k) (due : Double) :
    ((s.enroll c commandType due).setStage c
      (.writing s.nextId k none none)).TableSound := by
  have hcalls : ∀ d, ((s.enroll c commandType due).setStage c
      (.writing s.nextId k none none)).calls[d]? = if c = d then
        s.calls[d]?.map fun call => { call with stage := .writing s.nextId k none none }
        else s.calls[d]? :=
    fun d => calls_setCall (s.enroll c commandType due) c d _
  have hold : ∀ (d : CallId) (new : Call), ((s.enroll c commandType due).setStage c
      (.writing s.nextId k none none)).calls[d]? = some new →
      (c = d ∧ new = { call with stage := .writing s.nextId k none none }) ∨
        (c ≠ d ∧ s.calls[d]? = some new) := by
    intro d new hd
    exact calls_setCall_cases (s := s.enroll c commandType due) hc hd
  have hskip := h.skip c
  constructor
  · show (s.timers ++ [_]).map _ = (s.pending ++ [_]).map _
    rw [List.map_append, List.map_append, h.timers_eq]
    rfl
  · exact h.pending_nodup_enroll c commandType due
  · intro entry he
    rcases List.mem_append.mp he with he | he
    · have hcall : c ≠ entry.call := h.call_ne hc he (by simp [hf])
      obtain ⟨other, j, hother, hrest⟩ := h.pending_flies entry he
      exact ⟨other, j, by rw [hcalls, if_neg hcall, hother], hrest⟩
    · obtain rfl := List.mem_singleton.mp he
      refine ⟨{ call with stage := .writing s.nextId k none none }, k, ?_, rfl, hs, params, hkind⟩
      rw [hcalls, if_pos rfl, hc]
      rfl
  · intro d new id hd ha
    rcases hold d new hd with ⟨rfl, rfl⟩ | ⟨-, hd⟩
    · obtain rfl := Option.some.inj ha
      exact ⟨_, List.mem_append_right _ (List.mem_singleton.mpr rfl), rfl, rfl⟩
    · obtain ⟨entry, he, hrest⟩ := h.awaited_pending d new id hd ha
      exact ⟨entry, List.mem_append_left _ he, hrest⟩
  · intro d new fl hd hfl
    rcases hold d new hd with ⟨rfl, rfl⟩ | ⟨-, hd⟩
    · obtain rfl := Option.some.inj hfl
      exact List.mem_cons_self
    · exact List.mem_cons_of_mem _ (h.flight_registered d new fl hd hfl)
  · exact hskip.registered_lt
  · exact hskip.registered_unique
  · exact hskip.completions_le
  · intro d new id hd ha
    rcases hold d new hd with ⟨rfl, rfl⟩ | ⟨-, hd⟩
    · obtain rfl := Option.some.inj ha
      exact h.completions_new _ (Nat.le_refl _)
    · exact h.completions_awaited d new id hd ha
  · exact hskip.completions_new

/-- Without entries the table does not depend on the link. -/
theorem withLink (h : s.TableSound) (hp : s.pending = []) (l : Link) :
    (s.withLink l).TableSound where
  timers_eq := h.timers_eq
  pending_nodup := h.pending_nodup
  pending_flies := by
    intro entry he
    rw [show (s.withLink l).pending = [] from hp] at he
    cases he
  awaited_pending := h.awaited_pending
  flight_registered := h.flight_registered
  registered_lt := h.registered_lt
  registered_unique := h.registered_unique
  completions_le := h.completions_le
  completions_awaited := h.completions_awaited
  completions_new := h.completions_new

end TableSound

end State

end EditorLink.Session
