import LinkerdTcp.Balancer.Endpoint

/-! # Connect attempts and connections of one endpoint

Every `Connecting` returned by `Endpoint::connect` and every `Ctx` of a
connection it opens hold the same `State`. A `Sys` is the endpoint with the
phase of each attempt and the liveness of each context, which decide what
can happen next; a run is any interleaving of the events below, one of them
the drop of a `Connecting` that has not resolved. `Tracks` states what the
counters hold after a run, and `Tracks.run` that every run keeps it.
-/

namespace LinkerdTcp.Balancer
set_option autoImplicit false

/-- Where a `Connecting` returned by `Endpoint::connect` is: `unpolled` until its lazy block has
run `pending_conns += 1`, then `connecting` until the socket future resolves; `dropped` and
`abandoned` are the drops before and after that first poll. -/
inductive Attempt
  | unpolled
  | connecting
  | failed
  | connected
  | dropped
  | abandoned
  deriving DecidableEq, Repr

def Attempt.unresolved : Attempt → Bool
  | .connecting | .abandoned => true
  | _ => false

/-- A piece of code that touches the shared `State`: `Endpoint::connect`, the first poll of
attempt `i`, its socket future resolving `Err` or `Ok`, its drop before it resolves, and the
`Ctx` calls on the `j`-th context. -/
inductive Event
  | connect
  | poll (i : Nat)
  | fail (i : Nat)
  | succeed (i : Nat)
  | cancel (i : Nat)
  | read (j sz : Nat)
  | wrote (j sz : Nat)
  | drop (j : Nat)
  | setWeight (weight : ℚ)
  deriving DecidableEq, Repr

structure Sys where
  endpoint : Endpoint
  attempts : List Attempt
  ctxs : List Bool

def Sys.init (peerAddr : SocketAddr) (weight : ℚ) : Sys := ⟨new peerAddr weight, [], []⟩

def Sys.Enabled (s : Sys) : Event → Prop
  | .connect | .setWeight _ => True
  | .poll i => s.attempts[i]? = some .unpolled
  | .fail i | .succeed i => s.attempts[i]? = some .connecting
  | .cancel i => s.attempts[i]? = some .unpolled ∨ s.attempts[i]? = some .connecting
  | .read j _ | .wrote j _ | .drop j => s.ctxs[j]? = some true

/-- One event; `none` when it cannot happen or when the code panics. -/
def Sys.step (w : Nat) (s : Sys) : Event → Option Sys
  | .connect => some { s with attempts := s.attempts ++ [.unpolled] }
  | .poll i =>
    if s.attempts[i]? = some .unpolled then
      (connecting w s.endpoint.state).map fun st =>
        { s with endpoint.state := st, attempts := s.attempts.set i .connecting }
    else none
  | .fail i =>
    if s.attempts[i]? = some .connecting then
      (connectFailed w s.endpoint.state).map fun st =>
        { s with endpoint.state := st, attempts := s.attempts.set i .failed }
    else none
  | .succeed i =>
    if s.attempts[i]? = some .connecting then
      (connected w s.endpoint.state).map fun st =>
        { s with endpoint.state := st, attempts := s.attempts.set i .connected,
                 ctxs := s.ctxs ++ [true] }
    else none
  | .cancel i =>
    match s.attempts[i]? with
    | some .unpolled => some { s with attempts := s.attempts.set i .dropped }
    | some .connecting => some { s with attempts := s.attempts.set i .abandoned }
    | _ => none
  | .read j sz =>
    if s.ctxs[j]? = some true then
      (Ctx.read w sz s.endpoint.state).map fun st => { s with endpoint.state := st }
    else none
  | .wrote j sz =>
    if s.ctxs[j]? = some true then
      (Ctx.wrote w sz s.endpoint.state).map fun st => { s with endpoint.state := st }
    else none
  | .drop j =>
    if s.ctxs[j]? = some true then
      (Ctx.drop s.endpoint.state).map fun st =>
        { s with endpoint.state := st, ctxs := s.ctxs.set j false }
    else none
  | .setWeight weight => (s.endpoint.setWeight weight).map fun e => { s with endpoint := e }

def Sys.run (w : Nat) : Sys → List Event → Option Sys
  | s, [] => some s
  | s, e :: es => (s.step w e).bind fun s' => Sys.run w s' es

theorem Sys.run_invariant {w : Nat} (P : Sys → Prop)
    (hstep : ∀ {s s' : Sys} {e : Event}, s.step w e = some s' → P s → P s') :
    ∀ {s s' : Sys} {es : List Event}, s.run w es = some s' → P s → P s'
  | _, _, [], h, hs => by cases h; exact hs
  | _, _, _ :: _, h, hs => by
    obtain ⟨s₁, h₁, h'⟩ := Option.bind_eq_some.mp h
    exact Sys.run_invariant P hstep h' (hstep h₁ hs)

section StepCases

variable {w : Nat} {s s' : Sys}

theorem Sys.step_connect (h : s.step w .connect = some s') :
    s' = { s with attempts := s.attempts ++ [.unpolled] } := by
  cases h
  rfl

theorem Sys.step_poll {i : Nat} (h : s.step w (.poll i) = some s') :
    s.attempts[i]? = some .unpolled ∧
      s' = { s with endpoint.state.pendingConns := s.endpoint.state.pendingConns + 1,
                    attempts := s.attempts.set i .connecting } := by
  simp only [Sys.step] at h
  split_ifs at h with hi
  obtain ⟨st, hst, rfl⟩ := Option.map_eq_some'.mp h
  obtain ⟨-, rfl⟩ := connecting_eq_some.mp hst
  exact ⟨hi, rfl⟩

theorem Sys.step_fail {i : Nat} (h : s.step w (.fail i) = some s') :
    s.attempts[i]? = some .connecting ∧
      s' = { s with endpoint.state.consecutiveFailures := s.endpoint.state.consecutiveFailures + 1,
                    endpoint.state.pendingConns := s.endpoint.state.pendingConns - 1,
                    attempts := s.attempts.set i .failed } := by
  simp only [Sys.step] at h
  split_ifs at h with hi
  obtain ⟨st, hst, rfl⟩ := Option.map_eq_some'.mp h
  obtain ⟨-, -, rfl⟩ := connectFailed_eq_some.mp hst
  exact ⟨hi, rfl⟩

theorem Sys.step_succeed {i : Nat} (h : s.step w (.succeed i) = some s') :
    s.attempts[i]? = some .connecting ∧
      s' = { s with endpoint.state.consecutiveFailures := 0,
                    endpoint.state.pendingConns := s.endpoint.state.pendingConns - 1,
                    endpoint.state.openConns := s.endpoint.state.openConns + 1,
                    attempts := s.attempts.set i .connected, ctxs := s.ctxs ++ [true] } := by
  simp only [Sys.step] at h
  split_ifs at h with hi
  obtain ⟨st, hst, rfl⟩ := Option.map_eq_some'.mp h
  obtain ⟨-, -, rfl⟩ := connected_eq_some.mp hst
  exact ⟨hi, rfl⟩

theorem Sys.step_cancel {i : Nat} (h : s.step w (.cancel i) = some s') :
    s.attempts[i]? = some .unpolled ∧ s' = { s with attempts := s.attempts.set i .dropped } ∨
    s.attempts[i]? = some .connecting ∧ s' = { s with attempts := s.attempts.set i .abandoned } := by
  simp only [Sys.step] at h
  split at h <;> cases h <;> rename_i hi
  exacts [.inl ⟨hi, rfl⟩, .inr ⟨hi, rfl⟩]

theorem Sys.step_read {j sz : Nat} (h : s.step w (.read j sz) = some s') :
    s.ctxs[j]? = some true ∧ s.endpoint.state.rxBytes + sz < 2 ^ w ∧
      s' = { s with endpoint.state.rxBytes := s.endpoint.state.rxBytes + sz } := by
  simp only [Sys.step] at h
  split_ifs at h with hj
  obtain ⟨st, hst, rfl⟩ := Option.map_eq_some'.mp h
  obtain ⟨hlt, rfl⟩ := Ctx.read_eq_some.mp hst
  exact ⟨hj, hlt, rfl⟩

theorem Sys.step_wrote {j sz : Nat} (h : s.step w (.wrote j sz) = some s') :
    s.ctxs[j]? = some true ∧ s.endpoint.state.txBytes + sz < 2 ^ w ∧
      s' = { s with endpoint.state.txBytes := s.endpoint.state.txBytes + sz } := by
  simp only [Sys.step] at h
  split_ifs at h with hj
  obtain ⟨st, hst, rfl⟩ := Option.map_eq_some'.mp h
  obtain ⟨hlt, rfl⟩ := Ctx.wrote_eq_some.mp hst
  exact ⟨hj, hlt, rfl⟩

theorem Sys.step_drop {j : Nat} (h : s.step w (.drop j) = some s') :
    s.ctxs[j]? = some true ∧
      s' = { s with endpoint.state.openConns := s.endpoint.state.openConns - 1,
                    ctxs := s.ctxs.set j false } := by
  simp only [Sys.step] at h
  split_ifs at h with hj
  obtain ⟨st, hst, rfl⟩ := Option.map_eq_some'.mp h
  obtain ⟨-, rfl⟩ := Ctx.drop_eq_some.mp hst
  exact ⟨hj, rfl⟩

theorem Sys.step_setWeight {weight : ℚ} (h : s.step w (.setWeight weight) = some s') :
    s' = { s with endpoint.weight := weight } := by
  simp only [Sys.step] at h
  obtain ⟨e, he, rfl⟩ := Option.map_eq_some'.mp h
  obtain ⟨-, rfl⟩ := Endpoint.setWeight_eq_some.mp he
  rfl

end StepCases

@[simp] def Event.outcome : Event → Option Bool
  | .fail _ => some false
  | .succeed _ => some true
  | _ => none

@[simp] def Event.received : Event → Nat
  | .read _ sz => sz
  | _ => 0

@[simp] def Event.sent : Event → Nat
  | .wrote _ sz => sz
  | _ => 0

/-- The number of `Err` resolutions after the last `Ok` one. -/
def trailingFailures (outcomes : List Bool) : Nat :=
  (outcomes.reverse.takeWhile (· == false)).length

/-- What the counters hold after the run `es`. -/
structure Tracks (es : List Event) (s : Sys) : Prop where
  pending : s.endpoint.state.pendingConns = s.attempts.countP Attempt.unresolved
  opened : s.endpoint.state.openConns = s.ctxs.count true
  failures : s.endpoint.state.consecutiveFailures = trailingFailures (es.filterMap Event.outcome)
  received : s.endpoint.state.rxBytes = (es.map Event.received).sum
  sent : s.endpoint.state.txBytes = (es.map Event.sent).sum

theorem countP_set_of_getElem? {α : Type} (p : α → Bool) {l : List α} {i : Nat} {a : α}
    (h : l[i]? = some a) (b : α) :
    (l.set i b).countP p = l.countP p - (if p a then 1 else 0) + (if p b then 1 else 0) := by
  obtain ⟨hi, rfl⟩ := List.getElem?_eq_some_iff.mp h
  exact List.countP_set p l i b hi

theorem count_set_of_getElem? {α : Type} [BEq α] {l : List α} {i : Nat} {a : α}
    (h : l[i]? = some a) (b c : α) :
    (l.set i b).count c = l.count c - (if a == c then 1 else 0) + (if b == c then 1 else 0) := by
  obtain ⟨hi, rfl⟩ := List.getElem?_eq_some_iff.mp h
  exact List.count_set _ _ _ _ hi

@[simp] theorem received_append (es : List Event) (e : Event) :
    ((es ++ [e]).map Event.received).sum = (es.map Event.received).sum + e.received := by
  simp [List.sum_append]

@[simp] theorem sent_append (es : List Event) (e : Event) :
    ((es ++ [e]).map Event.sent).sum = (es.map Event.sent).sum + e.sent := by
  simp [List.sum_append]

theorem one_le_countP_of_getElem? {α : Type} {p : α → Bool} {l : List α} {i : Nat} {a : α}
    (h : l[i]? = some a) (ha : p a) : 1 ≤ l.countP p :=
  List.countP_pos_iff.mpr ⟨a, List.getElem?_mem h, ha⟩

@[simp] theorem trailingFailures_append_false (outcomes : List Bool) :
    trailingFailures (outcomes ++ [false]) = trailingFailures outcomes + 1 := by
  simp [trailingFailures]

@[simp] theorem trailingFailures_append_true (outcomes : List Bool) :
    trailingFailures (outcomes ++ [true]) = 0 := by
  simp [trailingFailures]

theorem trailingFailures_append_of_forall (outcomes ys : List Bool) (hys : ∀ b ∈ ys, b = false) :
    trailingFailures (outcomes ++ ys) = trailingFailures outcomes + ys.length := by
  rw [trailingFailures, List.reverse_append, List.takeWhile_append_of_pos (by simpa using hys)]
  simp [trailingFailures, Nat.add_comm]

theorem Tracks.init (peerAddr : SocketAddr) (weight : ℚ) : Tracks [] (Sys.init peerAddr weight) :=
  ⟨rfl, rfl, rfl, rfl, rfl⟩

theorem Tracks.step {w : Nat} {es : List Event} {s s' : Sys} {e : Event}
    (hs : Tracks es s) (h : s.step w e = some s') : Tracks (es ++ [e]) s' := by
  obtain ⟨hp, ho, hf, hr, ht⟩ := hs
  cases e with
  | connect =>
    obtain rfl := Sys.step_connect h
    exact ⟨by simp [hp, Attempt.unresolved], ho, by simpa using hf, by simpa using hr,
      by simpa using ht⟩
  | poll i =>
    obtain ⟨hi, rfl⟩ := Sys.step_poll h
    exact ⟨by simp [countP_set_of_getElem? _ hi, hp, Attempt.unresolved], ho, by simpa using hf,
      by simpa using hr, by simpa using ht⟩
  | fail i =>
    obtain ⟨hi, rfl⟩ := Sys.step_fail h
    exact ⟨by simp [countP_set_of_getElem? _ hi, hp, Attempt.unresolved], ho, by simp [hf],
      by simpa using hr, by simpa using ht⟩
  | succeed i =>
    obtain ⟨hi, rfl⟩ := Sys.step_succeed h
    exact ⟨by simp [countP_set_of_getElem? _ hi, hp, Attempt.unresolved], by simp [ho], by simp,
      by simpa using hr, by simpa using ht⟩
  | cancel i =>
    obtain ⟨hi, rfl⟩ | ⟨hi, rfl⟩ := Sys.step_cancel h
    · exact ⟨by simp [countP_set_of_getElem? _ hi, hp, Attempt.unresolved], ho, by simpa using hf,
        by simpa using hr, by simpa using ht⟩
    · have hc := one_le_countP_of_getElem? (p := Attempt.unresolved) hi rfl
      exact ⟨by simp [countP_set_of_getElem? _ hi, hp, Attempt.unresolved, Nat.sub_add_cancel hc],
        ho, by simpa using hf, by simpa using hr, by simpa using ht⟩
  | read j sz =>
    obtain ⟨-, -, rfl⟩ := Sys.step_read h
    exact ⟨hp, ho, by simpa using hf, by simp [hr], by simpa using ht⟩
  | wrote j sz =>
    obtain ⟨-, -, rfl⟩ := Sys.step_wrote h
    exact ⟨hp, ho, by simpa using hf, by simpa using hr, by simp [ht]⟩
  | drop j =>
    obtain ⟨hj, rfl⟩ := Sys.step_drop h
    exact ⟨hp, by simp [count_set_of_getElem? hj, ho], by simpa using hf, by simpa using hr,
      by simpa using ht⟩
  | setWeight weight =>
    obtain rfl := Sys.step_setWeight h
    exact ⟨hp, ho, by simpa using hf, by simpa using hr, by simpa using ht⟩

theorem Tracks.run {w : Nat} {es : List Event} {s : Sys} (hs : Tracks es s) :
    ∀ {es' : List Event} {s' : Sys}, s.run w es' = some s' → Tracks (es ++ es') s'
  | [], _, h => by cases h; simpa using hs
  | e :: es', _, h => by
    obtain ⟨s₁, h₁, h'⟩ := Option.bind_eq_some.mp h
    simpa using (hs.step h₁).run h'

end LinkerdTcp.Balancer
