import LinkerdTcp.Balancer.Lifecycle

/-! # What the endpoint counters count

`Tracks.run` read from the initial endpoint: after every run the pending and
open counts are the attempts in flight and the live contexts, the failure
streak only grows between two successes, and the byte counters are the exact
sums passed to `Ctx::read` and `Ctx::wrote`. So no decrement underflows, and
an event that can happen fails only on an increment past `usize::MAX` or on
the `assert!` of `set_weight`. Two consequences are not what the spec asks:
an attempt dropped after its first poll stays in `pending_conns` for good,
and the byte counters panic once their sum reaches `2 ^ w`.
-/

namespace LinkerdTcp.Balancer
set_option autoImplicit false

theorem Sys.run_append (w : Nat) (s : Sys) (es es' : List Event) :
    s.run w (es ++ es') = (s.run w es).bind fun s' => s'.run w es' := by
  induction es generalizing s with
  | nil => rfl
  | cons e es ih => simp [Sys.run, ih, Option.bind_assoc]

theorem tracks_of_run {w : Nat} {peerAddr : SocketAddr} {weight : ℚ} {es : List Event} {s : Sys}
    (h : (Sys.init peerAddr weight).run w es = some s) : Tracks es s := by
  simpa using (Tracks.init peerAddr weight).run h

theorem Tracks.pending_pos {es : List Event} {s : Sys} (hs : Tracks es s) {i : Nat}
    (hi : s.attempts[i]? = some .connecting) : 1 ≤ s.endpoint.state.pendingConns :=
  hs.pending ▸ one_le_countP_of_getElem? hi rfl

theorem Tracks.open_pos {es : List Event} {s : Sys} (hs : Tracks es s) {j : Nat}
    (hj : s.ctxs[j]? = some true) : 1 ≤ s.endpoint.state.openConns := by
  rw [hs.opened, List.count_eq_countP]
  exact one_le_countP_of_getElem? hj rfl

/-- What makes an event's code panic from `s`: an increment past `usize::MAX`, or the `assert!`
of `set_weight`. No decrement is listed. -/
def Sys.Panics (w : Nat) (s : Sys) : Event → Prop
  | .poll _ => 2 ^ w ≤ s.endpoint.state.pendingConns + 1
  | .fail _ => 2 ^ w ≤ s.endpoint.state.consecutiveFailures + 1
  | .succeed _ => 2 ^ w ≤ s.endpoint.state.openConns + 1
  | .read _ sz => 2 ^ w ≤ s.endpoint.state.rxBytes + sz
  | .wrote _ sz => 2 ^ w ≤ s.endpoint.state.txBytes + sz
  | .setWeight weight => ¬(0 ≤ weight ∧ weight ≤ 1)
  | .connect | .cancel _ | .drop _ => False

theorem Tracks.step_eq_none_iff {w : Nat} {es : List Event} {s : Sys} (hs : Tracks es s)
    {e : Event} (he : s.Enabled e) : s.step w e = none ↔ s.Panics w e := by
  cases e <;> simp only [Sys.Enabled] at he
  case connect => simp [Sys.step, Sys.Panics]
  case poll | read | wrote => simp [Sys.step, Sys.Panics, he]
  case fail | succeed => simp [Sys.step, Sys.Panics, he, Nat.one_le_iff_ne_zero.mp (hs.pending_pos he)]
  case cancel => rcases he with he | he <;> simp [Sys.step, Sys.Panics, he]
  case drop => simp [Sys.step, Sys.Panics, he, Nat.one_le_iff_ne_zero.mp (hs.open_pos he)]
  case setWeight => simp [Sys.step, Sys.Panics, Endpoint.setWeight]

/-- After every run from a new endpoint, `pending_conns` counts the attempts started and not
resolved, `open_conns` the live contexts and `consecutive_failures` the `Err` resolutions since
the last `Ok`; so neither decrement can underflow, every event that can happen next runs unless
an increment overflows, and `load` adds the true counts. -/
theorem counters_count_attempts_and_connections (w : Nat) (peerAddr : SocketAddr) (weight : ℚ)
    (es : List Event) (s : Sys) (h : (Sys.init peerAddr weight).run w es = some s) :
    s.endpoint.state.pendingConns = s.attempts.countP Attempt.unresolved ∧
    s.endpoint.state.openConns = s.ctxs.count true ∧
    s.endpoint.state.consecutiveFailures = trailingFailures (es.filterMap Event.outcome) ∧
    (∀ i : Nat, s.attempts[i]? = some .connecting → 1 ≤ s.endpoint.state.pendingConns) ∧
    (∀ j : Nat, s.ctxs[j]? = some true → 1 ≤ s.endpoint.state.openConns) ∧
    (∀ e : Event, s.Enabled e → (s.step w e = none ↔ s.Panics w e)) ∧
    s.endpoint.load w = usizeAdd w (s.ctxs.count true) (s.attempts.countP Attempt.unresolved) := by
  have hs := tracks_of_run h
  refine ⟨hs.pending, hs.opened, hs.failures, fun _ => hs.pending_pos, fun _ => hs.open_pos,
    fun _ => hs.step_eq_none_iff, ?_⟩
  simp [Endpoint.load, State.load, hs.pending, hs.opened]

theorem counters_count_failed_attempt_and_dropped_ctx :
    let es : List Event :=
      [.connect, .connect, .connect, .poll 0, .poll 1, .poll 2, .succeed 1, .fail 0, .drop 0]
    ∃ s, (Sys.init ⟨.v4 0, 80⟩ 1).run 64 es = some s ∧
      s.endpoint.state.pendingConns = s.attempts.countP Attempt.unresolved ∧
      s.endpoint.state.openConns = s.ctxs.count true ∧
      s.endpoint.state.consecutiveFailures = trailingFailures (es.filterMap Event.outcome) ∧
      (∀ i : Nat, s.attempts[i]? = some .connecting → 1 ≤ s.endpoint.state.pendingConns) ∧
      (∀ j : Nat, s.ctxs[j]? = some true → 1 ≤ s.endpoint.state.openConns) ∧
      (∀ e : Event, s.Enabled e → (s.step 64 e = none ↔ s.Panics 64 e)) ∧
      s.endpoint.load 64 = usizeAdd 64 (s.ctxs.count true) (s.attempts.countP Attempt.unresolved) := by
  intro es
  exact ⟨{ Sys.init ⟨.v4 0, 80⟩ 1 with
      endpoint.state.pendingConns := 1, endpoint.state.consecutiveFailures := 1,
      attempts := [.failed, .connected, .connecting], ctxs := [false] },
    rfl, counters_count_attempts_and_connections 64 _ _ es _ rfl⟩

theorem outcomes_eq_false {es : List Event} (hok : ∀ i : Nat, Event.succeed i ∉ es) :
    ∀ b ∈ es.filterMap Event.outcome, b = false := by
  intro b hb
  obtain ⟨e, he, hout⟩ := List.mem_filterMap.mp hb
  cases e <;> simp at hout
  case fail => exact hout
  case succeed i => exact absurd he (hok i)

/-- Between two successful connects `consecutive_failures` only grows: over a run with no `Ok`
resolution it grows by one per `Err` resolution. -/
theorem consecutive_failures_grow_between_resets (w : Nat) (peerAddr : SocketAddr) (weight : ℚ)
    (es es' : List Event) (s s' : Sys) (h : (Sys.init peerAddr weight).run w es = some s)
    (h' : s.run w es' = some s') (hok : ∀ i : Nat, Event.succeed i ∉ es') :
    s'.endpoint.state.consecutiveFailures =
      s.endpoint.state.consecutiveFailures + (es'.filterMap Event.outcome).length := by
  have hs := tracks_of_run h
  rw [(hs.run h').failures, hs.failures, List.filterMap_append,
    trailingFailures_append_of_forall _ _ (outcomes_eq_false hok)]

theorem consecutive_failures_grow_after_failed_connect :
    ∃ s s', (Sys.init ⟨.v4 0, 80⟩ 1).run 64 [.connect, .connect, .poll 0] = some s ∧
      s.run 64 [.poll 1, .fail 0] = some s' ∧ (∀ i : Nat, Event.succeed i ∉ [Event.poll 1, .fail 0]) ∧
      s'.endpoint.state.consecutiveFailures =
        s.endpoint.state.consecutiveFailures + ([Event.poll 1, .fail 0].filterMap Event.outcome).length :=
  ⟨{ Sys.init ⟨.v4 0, 80⟩ 1 with
      endpoint.state.pendingConns := 1, attempts := [.connecting, .unpolled] },
    { Sys.init ⟨.v4 0, 80⟩ 1 with
      endpoint.state.pendingConns := 1, endpoint.state.consecutiveFailures := 1,
      attempts := [.failed, .connecting] },
    rfl, rfl, by simp, consecutive_failures_grow_between_resets 64 ⟨.v4 0, 80⟩ 1
      [.connect, .connect, .poll 0] _ _ _ rfl rfl (by simp)⟩

/-- From every state a run reaches, an event that can happen fails exactly where its code
panics on an increment or on the `assert!` of `set_weight`: no decrement underflows, and
nothing else is refused. -/
theorem enabled_event_fails_only_on_overflow (w : Nat) (peerAddr : SocketAddr) (weight : ℚ)
    (es : List Event) (s : Sys) (h : (Sys.init peerAddr weight).run w es = some s) (e : Event)
    (he : s.Enabled e) : s.step w e = none ↔ s.Panics w e :=
  (tracks_of_run h).step_eq_none_iff he

theorem enabled_fail_panics_only_at_usize_max :
    ∃ s, (Sys.init ⟨.v4 0, 80⟩ 1).run 64 [.connect, .poll 0] = some s ∧ s.Enabled (.fail 0) ∧
      (s.step 64 (.fail 0) = none ↔ s.Panics 64 (.fail 0)) :=
  ⟨{ Sys.init ⟨.v4 0, 80⟩ 1 with endpoint.state.pendingConns := 1, attempts := [.connecting] },
    rfl, rfl, enabled_event_fails_only_on_overflow 64 ⟨.v4 0, 80⟩ 1 [.connect, .poll 0] _ rfl _ rfl⟩

theorem Sys.step_read_eq_none {w j sz : Nat} {s : Sys} (hj : s.ctxs[j]? = some true) :
    s.step w (.read j sz) = none ↔ 2 ^ w ≤ s.endpoint.state.rxBytes + sz := by
  simp [Sys.step, hj]

theorem Sys.step_wrote_eq_none {w j sz : Nat} {s : Sys} (hj : s.ctxs[j]? = some true) :
    s.step w (.wrote j sz) = none ↔ 2 ^ w ≤ s.endpoint.state.txBytes + sz := by
  simp [Sys.step, hj]

theorem Sys.bytes_lt_step {w : Nat} {s s' : Sys} {e : Event} (h : s.step w e = some s')
    (hb : s.endpoint.state.rxBytes < 2 ^ w ∧ s.endpoint.state.txBytes < 2 ^ w) :
    s'.endpoint.state.rxBytes < 2 ^ w ∧ s'.endpoint.state.txBytes < 2 ^ w := by
  cases e with
  | read => obtain ⟨-, hlt, rfl⟩ := Sys.step_read h; exact ⟨hlt, hb.2⟩
  | wrote => obtain ⟨-, hlt, rfl⟩ := Sys.step_wrote h; exact ⟨hb.1, hlt⟩
  | connect => obtain rfl := Sys.step_connect h; exact hb
  | poll => obtain ⟨-, rfl⟩ := Sys.step_poll h; exact hb
  | fail => obtain ⟨-, rfl⟩ := Sys.step_fail h; exact hb
  | succeed => obtain ⟨-, rfl⟩ := Sys.step_succeed h; exact hb
  | cancel => obtain ⟨-, rfl⟩ | ⟨-, rfl⟩ := Sys.step_cancel h <;> exact hb
  | drop => obtain ⟨-, rfl⟩ := Sys.step_drop h; exact hb
  | setWeight => obtain rfl := Sys.step_setWeight h; exact hb

/-- After every run, `rx_bytes` and `tx_bytes` are the exact sums of the sizes passed to
`Ctx::read` and `Ctx::wrote`, and below `2 ^ w`; the next `+=` panics exactly when its exact sum
reaches `2 ^ w`. -/
theorem byte_counters_exact_until_overflow (w : Nat) (peerAddr : SocketAddr) (weight : ℚ)
    (es : List Event) (s : Sys) (h : (Sys.init peerAddr weight).run w es = some s) :
    s.endpoint.state.rxBytes = (es.map Event.received).sum ∧
    s.endpoint.state.txBytes = (es.map Event.sent).sum ∧
    s.endpoint.state.rxBytes < 2 ^ w ∧ s.endpoint.state.txBytes < 2 ^ w ∧
    (∀ j sz : Nat, s.ctxs[j]? = some true →
      (s.step w (.read j sz) = none ↔ 2 ^ w ≤ (es.map Event.received).sum + sz)) ∧
    (∀ j sz : Nat, s.ctxs[j]? = some true →
      (s.step w (.wrote j sz) = none ↔ 2 ^ w ≤ (es.map Event.sent).sum + sz)) := by
  have hs := tracks_of_run h
  have hpos : 0 < 2 ^ w := Nat.two_pow_pos w
  obtain ⟨hrx, htx⟩ := Sys.run_invariant _ Sys.bytes_lt_step h ⟨hpos, hpos⟩
  exact ⟨hs.received, hs.sent, hrx, htx, fun _ _ hj => hs.received ▸ Sys.step_read_eq_none hj,
    fun _ _ hj => hs.sent ▸ Sys.step_wrote_eq_none hj⟩

theorem byte_counters_exact_after_one_read_and_write :
    let es : List Event := [.connect, .poll 0, .succeed 0, .read 0 5, .wrote 0 7]
    ∃ s, (Sys.init ⟨.v4 0, 80⟩ 1).run 64 es = some s ∧
      s.endpoint.state.rxBytes = (es.map Event.received).sum ∧
      s.endpoint.state.txBytes = (es.map Event.sent).sum ∧
      s.endpoint.state.rxBytes < 2 ^ 64 ∧ s.endpoint.state.txBytes < 2 ^ 64 ∧
      (∀ j sz : Nat, s.ctxs[j]? = some true →
        (s.step 64 (.read j sz) = none ↔ 2 ^ 64 ≤ (es.map Event.received).sum + sz)) ∧
      (∀ j sz : Nat, s.ctxs[j]? = some true →
        (s.step 64 (.wrote j sz) = none ↔ 2 ^ 64 ≤ (es.map Event.sent).sum + sz)) := by
  intro es
  exact ⟨{ Sys.init ⟨.v4 0, 80⟩ 1 with
      endpoint.state.openConns := 1, endpoint.state.rxBytes := 5, endpoint.state.txBytes := 7,
      attempts := [.connected], ctxs := [true] },
    rfl, byte_counters_exact_until_overflow 64 _ _ es _ rfl⟩

theorem Sys.run_replicate_read {w j sz : Nat} (s : Sys) (hj : s.ctxs[j]? = some true) (n : Nat)
    (hn : s.endpoint.state.rxBytes + n * sz < 2 ^ w) :
    s.run w (List.replicate n (.read j sz)) =
      some { s with endpoint.state.rxBytes := s.endpoint.state.rxBytes + n * sz } := by
  induction n generalizing s with
  | zero => simp [Sys.run]
  | succ n ih =>
    rw [Nat.succ_mul] at hn
    have hr : Ctx.read w sz s.endpoint.state =
        some { s.endpoint.state with rxBytes := s.endpoint.state.rxBytes + sz } :=
      Ctx.read_eq_some.mpr ⟨by omega, rfl⟩
    have hn' : s.endpoint.state.rxBytes + sz + n * sz < 2 ^ w := by omega
    simp only [List.replicate_succ, Sys.run, Sys.step, hj, if_true, hr, Option.map_some',
      Option.some_bind]
    rw [ih { s with endpoint.state.rxBytes := s.endpoint.state.rxBytes + sz } hj hn']
    simp [Nat.succ_mul, Nat.add_assoc, Nat.add_comm sz]

/-- On a 32-bit target, 65536 reads of 64 KiB on one connection overflow `rx_bytes`. -/
theorem rx_bytes_overflows_on_32_bit_target :
    ∃ s, (Sys.init ⟨.v4 0, 80⟩ 1).run 32
        ([.connect, .poll 0, .succeed 0] ++ List.replicate 65535 (.read 0 65536)) = some s ∧
      s.Enabled (.read 0 65536) ∧ s.step 32 (.read 0 65536) = none := by
  let s₁ : Sys := { Sys.init ⟨.v4 0, 80⟩ 1 with
    endpoint.state.openConns := 1, attempts := [.connected], ctxs := [true] }
  have h₁ : (Sys.init ⟨.v4 0, 80⟩ 1).run 32 [.connect, .poll 0, .succeed 0] = some s₁ := rfl
  refine ⟨{ s₁ with endpoint.state.rxBytes := 0 + 65535 * 65536 }, ?_, rfl, ?_⟩
  · rw [Sys.run_append, h₁, Option.some_bind]
    exact @Sys.run_replicate_read 32 0 65536 s₁ rfl 65535 (by norm_num [s₁, Sys.init, new, State.default])
  · exact (Sys.step_read_eq_none rfl).mpr (by norm_num)

/-- Dropping a `Connecting` after its first poll leaves the lazy block's `pending_conns += 1`
in place: the drop runs no code that undoes it. -/
theorem poll_then_cancel_leaks_pending (w : Nat) (s : Sys) (i : Nat)
    (hi : s.attempts[i]? = some .unpolled) (hw : s.endpoint.state.pendingConns + 1 < 2 ^ w) :
    ∃ s', s.run w [.poll i, .cancel i] = some s' ∧
      s'.endpoint.state = { s.endpoint.state with pendingConns := s.endpoint.state.pendingConns + 1 } := by
  have hc := connecting_eq_some.mpr ⟨hw, rfl⟩
  have hlt : i < s.attempts.length := (List.getElem?_eq_some_iff.mp hi).1
  refine ⟨{ s with endpoint.state.pendingConns := s.endpoint.state.pendingConns + 1,
                   attempts := s.attempts.set i .abandoned }, ?_, rfl⟩
  simp [Sys.run, Sys.step, hi, hc, hlt]

theorem poll_then_cancel_leaks_pending_after_connect :
    ∃ s', ({ Sys.init ⟨.v4 0, 80⟩ 1 with attempts := [.unpolled] } : Sys).run 64 [.poll 0, .cancel 0] =
      some s' ∧ s'.endpoint.state = { State.default with pendingConns := 1 } :=
  poll_then_cancel_leaks_pending 64 _ 0 rfl (by decide)

theorem Sys.count_abandoned_le_step {w : Nat} {s s' : Sys} {e : Event} (h : s.step w e = some s') :
    s.attempts.count .abandoned ≤ s'.attempts.count .abandoned := by
  cases e with
  | connect => obtain rfl := Sys.step_connect h; simp
  | poll => obtain ⟨hi, rfl⟩ := Sys.step_poll h; simp [count_set_of_getElem? hi]
  | fail => obtain ⟨hi, rfl⟩ := Sys.step_fail h; simp [count_set_of_getElem? hi]
  | succeed => obtain ⟨hi, rfl⟩ := Sys.step_succeed h; simp [count_set_of_getElem? hi]
  | cancel =>
    obtain ⟨hi, rfl⟩ | ⟨hi, rfl⟩ := Sys.step_cancel h <;> simp [count_set_of_getElem? hi]
  | read => obtain ⟨-, -, rfl⟩ := Sys.step_read h; exact le_rfl
  | wrote => obtain ⟨-, -, rfl⟩ := Sys.step_wrote h; exact le_rfl
  | drop => obtain ⟨-, rfl⟩ := Sys.step_drop h; exact le_rfl
  | setWeight => obtain rfl := Sys.step_setWeight h; exact le_rfl

/-- An attempt dropped while connecting is counted in `pending_conns`, and so in `load`, in every
later state of the endpoint. -/
theorem abandoned_attempts_stay_pending (w : Nat) (peerAddr : SocketAddr) (weight : ℚ)
    (es es' : List Event) (s s' : Sys) (h : (Sys.init peerAddr weight).run w es = some s)
    (h' : s.run w es' = some s') :
    s.attempts.count .abandoned ≤ s'.endpoint.state.pendingConns := by
  have hs' : Tracks (es ++ es') s' := (tracks_of_run h).run h'
  calc s.attempts.count .abandoned
      ≤ s'.attempts.count .abandoned :=
        Sys.run_invariant (fun s₁ => s.attempts.count .abandoned ≤ s₁.attempts.count .abandoned)
          (fun h₁ hle => hle.trans (Sys.count_abandoned_le_step h₁)) h' le_rfl
    _ ≤ s'.attempts.countP Attempt.unresolved := by
        rw [List.count_eq_countP]
        exact List.countP_mono_left fun a _ ha => by cases a <;> simp_all [Attempt.unresolved]
    _ = s'.endpoint.state.pendingConns := hs'.pending.symm

theorem abandoned_attempt_stays_pending_after_connect :
    ∃ s s', (Sys.init ⟨.v4 0, 80⟩ 1).run 64 [.connect, .poll 0, .cancel 0] = some s ∧
      s.run 64 [.connect] = some s' ∧ s.attempts.count .abandoned ≤ s'.endpoint.state.pendingConns :=
  ⟨{ Sys.init ⟨.v4 0, 80⟩ 1 with endpoint.state.pendingConns := 1, attempts := [.abandoned] },
    { Sys.init ⟨.v4 0, 80⟩ 1 with endpoint.state.pendingConns := 1, attempts := [.abandoned, .unpolled] },
    rfl, rfl, abandoned_attempts_stay_pending 64 ⟨.v4 0, 80⟩ 1 [.connect, .poll 0, .cancel 0] [.connect]
      _ _ rfl rfl⟩

end LinkerdTcp.Balancer
