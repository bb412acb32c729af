import LinkerdTcp.Balancer.Accounting
import LinkerdTcp.Connector.Connect

/-! # The `Connecting` future refines the lifecycle's events

`Sys` has one event per piece of code that touches the shared `State`. Here
that code runs as the executor runs it: `Endpoint::connect` returns a
`Connecting` around `futures::lazy`, whose block runs at the first poll and
then polls `sock.then(...)` in the same call; the `then` closure runs at the
poll where the socket future resolves, and dropping a `Connecting` runs no
code at all. `Code.step_refines` shows that each step of this executor is a
run of `Sys` events, `Code.run_refines` lifts it to every run, and so the
counters count the futures themselves.
-/

namespace LinkerdTcp.Balancer
set_option autoImplicit false
open Connector (Fut)

structure Connecting (ε α : Type) where
  sock : Fut ε α

/-- A poll of `sock.then(...)`: the socket future's `n`-th poll, and the `then` closure on its
answer. -/
def Connecting.pollThen {ε α : Type} (w : Nat) (c : Connecting ε α) (n : Nat) (st : State) :
    Option (Option (Except ε α) × State) :=
  match c.sock n with
  | none => some (none, st)
  | some (.error e) => (connectFailed w st).map fun st => (some (.error e), st)
  | some (.ok sock) => (connected w st).map fun st => (some (.ok sock), st)

/-- The `n`-th call of `Connecting::poll`, on the shared `State`: at the first, the block of
`futures::lazy` runs and then polls `sock.then(...)`; later calls poll `sock.then(...)` alone.
`none` is a panic. -/
def Connecting.poll {ε α : Type} (w : Nat) (c : Connecting ε α) :
    Nat → State → Option (Option (Except ε α) × State)
  | 0, st => (connecting w st).bind (c.pollThen w 0)
  | n + 1, st => c.pollThen w (n + 1) st

inductive Phase
  | live
  | dropped
  | failed
  | connected
  deriving DecidableEq, Repr

def Phase.ofAnswer {ε α : Type} : Option (Except ε α) → Phase
  | none => .live
  | some (.error _) => .failed
  | some (.ok _) => .connected

structure Conn (ε α : Type) where
  fut : Connecting ε α
  polls : Nat
  phase : Phase

structure Code (ε α : Type) where
  endpoint : Endpoint
  conns : List (Conn ε α)
  ctxs : List Bool

/-- What the executor and the proxy can do next: `Endpoint::connect` around a new socket future,
a poll or a drop of the `i`-th `Connecting`, and the calls on the `j`-th `Ctx`, its drop
included. -/
inductive Op (ε α : Type)
  | connect (sock : Fut ε α)
  | poll (i : Nat)
  | drop (i : Nat)
  | read (j sz : Nat)
  | wrote (j sz : Nat)
  | dropCtx (j : Nat)
  | setWeight (weight : ℚ)

section Code

variable {ε α : Type}

def Code.init (peerAddr : SocketAddr) (weight : ℚ) : Code ε α := ⟨new peerAddr weight, [], []⟩

/-- One operation; `none` when it cannot happen or when the code panics. A `Connecting` is polled
only while live, and polling it after it resolved is not allowed. -/
def Code.step (w : Nat) (c : Code ε α) : Op ε α → Option (Code ε α)
  | .connect sock => some { c with conns := c.conns ++ [⟨⟨sock⟩, 0, .live⟩] }
  | .poll i =>
    match c.conns[i]? with
    | some ⟨fut, n, .live⟩ =>
      (fut.poll w n c.endpoint.state).map fun (ans, st) =>
        { c with endpoint.state := st, conns := c.conns.set i ⟨fut, n + 1, Phase.ofAnswer ans⟩,
                 ctxs := if Phase.ofAnswer ans = .connected then c.ctxs ++ [true] else c.ctxs }
    | _ => none
  | .drop i =>
    match c.conns[i]? with
    | some ⟨fut, n, .live⟩ => some { c with conns := c.conns.set i ⟨fut, n, .dropped⟩ }
    | _ => none
  | .read j sz =>
    if c.ctxs[j]? = some true then
      (Ctx.read w sz c.endpoint.state).map fun st => { c with endpoint.state := st }
    else none
  | .wrote j sz =>
    if c.ctxs[j]? = some true then
      (Ctx.wrote w sz c.endpoint.state).map fun st => { c with endpoint.state := st }
    else none
  | .dropCtx j =>
    if c.ctxs[j]? = some true then
      (Ctx.drop c.endpoint.state).map fun st =>
        { c with endpoint.state := st, ctxs := c.ctxs.set j false }
    else none
  | .setWeight weight => (c.endpoint.setWeight weight).map fun e => { c with endpoint := e }

def Code.run (w : Nat) : Code ε α → List (Op ε α) → Option (Code ε α)
  | c, [] => some c
  | c, op :: ops => (c.step w op).bind fun c' => Code.run w c' ops

def Conn.attempt (conn : Conn ε α) : Attempt :=
  match conn.phase, conn.polls with
  | .live, 0 => .unpolled
  | .live, _ + 1 => .connecting
  | .dropped, 0 => .dropped
  | .dropped, _ + 1 => .abandoned
  | .failed, _ => .failed
  | .connected, _ => .connected

def Code.abs (c : Code ε α) : Sys := ⟨c.endpoint, c.conns.map Conn.attempt, c.ctxs⟩

def Conn.inFlight (conn : Conn ε α) : Bool :=
  match conn.phase with
  | .live | .dropped => 0 < conn.polls
  | .failed | .connected => false

def resolvedEvents (i : Nat) : Option (Except ε α) → List Event
  | none => []
  | some (.error _) => [.fail i]
  | some (.ok _) => [.succeed i]

def pollEvents (i : Nat) : Nat → Option (Except ε α) → List Event
  | 0, ans => .poll i :: resolvedEvents i ans
  | _ + 1, ans => resolvedEvents i ans

def Code.events (c : Code ε α) : Op ε α → List Event
  | .connect _ => [.connect]
  | .poll i =>
    match c.conns[i]? with
    | some conn => pollEvents i conn.polls (conn.fut.sock conn.polls)
    | none => []
  | .drop i => [.cancel i]
  | .read j sz => [.read j sz]
  | .wrote j sz => [.wrote j sz]
  | .dropCtx j => [.drop j]
  | .setWeight weight => [.setWeight weight]

end Code

section Refines

variable {ε α : Type} {w : Nat}

theorem set_of_getElem? {β : Type} {l : List β} {i : Nat} {b : β} (h : l[i]? = some b) :
    l.set i b = l := by
  refine List.ext_getElem? fun j => ?_
  by_cases hij : i = j
  · subst hij
    simp [List.getElem?_set_self', h]
  · simp [List.getElem?_set_ne hij]

def Sys.afterPoll (s : Sys) (i : Nat) (fut : Connecting ε α) (n : Nat) (ans : Option (Except ε α))
    (st : State) : Sys :=
  ⟨{ s.endpoint with state := st }, s.attempts.set i (Conn.attempt ⟨fut, n + 1, Phase.ofAnswer ans⟩),
    if Phase.ofAnswer ans = .connected then s.ctxs ++ [true] else s.ctxs⟩

theorem Connecting.pollThen_refines {fut : Connecting ε α} {n i : Nat} {s : Sys}
    {ans : Option (Except ε α)} {st : State} (hi : s.attempts[i]? = some .connecting)
    (h : fut.pollThen w n s.endpoint.state = some (ans, st)) :
    ans = fut.sock n ∧ s.run w (resolvedEvents i ans) = some (s.afterPoll i fut n ans st) := by
  unfold Connecting.pollThen at h
  rcases hsock : fut.sock n with _ | (e | x) <;> simp only [hsock] at h
  · cases h
    exact ⟨rfl, by simp [Sys.run, Sys.afterPoll, Conn.attempt, Phase.ofAnswer, set_of_getElem? hi]⟩
  · obtain ⟨st', hf, hst⟩ := Option.map_eq_some'.mp h
    cases hst
    exact ⟨rfl, by simp [Sys.run, Sys.step, hi, hf, Sys.afterPoll, Conn.attempt, Phase.ofAnswer]⟩
  · obtain ⟨st', hc, hst⟩ := Option.map_eq_some'.mp h
    cases hst
    exact ⟨rfl, by simp [Sys.run, Sys.step, hi, hc, Sys.afterPoll, Conn.attempt, Phase.ofAnswer]⟩

theorem Connecting.poll_refines {fut : Connecting ε α} {n i : Nat} {s : Sys}
    {ans : Option (Except ε α)} {st : State}
    (hi : s.attempts[i]? = some (Conn.attempt ⟨fut, n, .live⟩))
    (h : fut.poll w n s.endpoint.state = some (ans, st)) :
    ans = fut.sock n ∧ s.run w (pollEvents i n ans) = some (s.afterPoll i fut n ans st) := by
  cases n with
  | zero =>
    obtain ⟨st₁, hc, hthen⟩ := Option.bind_eq_some.mp h
    let s₁ : Sys := { s with endpoint.state := st₁, attempts := s.attempts.set i .connecting }
    have hi₁ : s₁.attempts[i]? = some .connecting := by
      simp [s₁, (List.getElem?_eq_some_iff.mp hi).1]
    obtain ⟨rfl, hrun⟩ := Connecting.pollThen_refines (s := s₁) hi₁ hthen
    have hstep : s.step w (.poll i) = some s₁ := by
      simp only [Conn.attempt] at hi
      simp [Sys.step, hi, hc, s₁]
    refine ⟨rfl, ?_⟩
    simp only [pollEvents, Sys.run, hstep, Option.some_bind, hrun]
    simp [Sys.afterPoll, s₁, List.set_set]
  | succ n => exact Connecting.pollThen_refines hi h

theorem Code.step_refines {c c' : Code ε α} {op : Op ε α} (h : c.step w op = some c') :
    c.abs.run w (c.events op) = some c'.abs := by
  cases op
  case connect sock =>
    cases h
    simp [Code.abs, Code.events, Sys.run, Sys.step, Conn.attempt]
  case poll i =>
    simp only [Code.step] at h
    split at h
    · rename_i fut n hconn
      obtain ⟨⟨ans, st⟩, hpoll, rfl⟩ := Option.map_eq_some'.mp h
      have hi : c.abs.attempts[i]? = some (Conn.attempt ⟨fut, n, .live⟩) := by
        simp [Code.abs, hconn]
      obtain ⟨hans, hrun⟩ := Connecting.poll_refines (s := c.abs) hi hpoll
      simp only [Code.events, hconn, ← hans, hrun]
      simp [Sys.afterPoll, Code.abs, List.map_set]
    · cases h
  case drop i =>
    simp only [Code.step] at h
    split at h
    · rename_i fut n hconn
      cases h
      cases n <;> simp [Code.abs, Code.events, Sys.run, Sys.step, hconn, Conn.attempt, List.map_set]
    · cases h
  case setWeight weight =>
    simp only [Code.step] at h
    obtain ⟨e, he, rfl⟩ := Option.map_eq_some'.mp h
    simp [Code.abs, Code.events, Sys.run, Sys.step, he]
  all_goals
    simp only [Code.step] at h
    split_ifs at h with hj
    obtain ⟨st, hst, rfl⟩ := Option.map_eq_some'.mp h
    simp [Code.abs, Code.events, Sys.run, Sys.step, hj, hst]

theorem Code.run_refines : ∀ {c c' : Code ε α} {ops : List (Op ε α)}, c.run w ops = some c' →
    ∃ es, c.abs.run w es = some c'.abs
  | _, _, [], h => by cases h; exact ⟨[], rfl⟩
  | c, _, op :: _, h => by
    obtain ⟨c₁, h₁, h'⟩ := Option.bind_eq_some.mp h
    obtain ⟨es, hes⟩ := Code.run_refines h'
    exact ⟨c.events op ++ es, by rw [Sys.run_append, Code.step_refines h₁, Option.some_bind, hes]⟩

end Refines

/-- Every state the executor reaches from a new endpoint is, seen through `Code.abs`, a state of
`Sys` that some run of its events reaches: whatever holds over all runs of `Sys` holds of the
futures themselves. -/
theorem executor_runs_are_lifecycle_runs {ε α : Type} (w : Nat) (peerAddr : SocketAddr)
    (weight : ℚ) (ops : List (Op ε α)) (c : Code ε α)
    (h : (Code.init peerAddr weight : Code ε α).run w ops = some c) :
    ∃ es, (Sys.init peerAddr weight).run w es = some c.abs :=
  Code.run_refines h

theorem executor_connect_poll_is_lifecycle_run :
    ∃ c, (Code.init ⟨.v4 0, 80⟩ 1 : Code String Unit).run 64 [.connect fun _ => some (.ok ()), .poll 0] =
        some c ∧ ∃ es, (Sys.init ⟨.v4 0, 80⟩ 1).run 64 es = some c.abs :=
  ⟨⟨{ new ⟨.v4 0, 80⟩ 1 with state.openConns := 1 }, [⟨⟨fun _ => some (.ok ())⟩, 1, .connected⟩],
      [true]⟩, rfl,
    executor_runs_are_lifecycle_runs 64 ⟨.v4 0, 80⟩ 1 [.connect fun _ => some (.ok ()), .poll 0] _ rfl⟩

theorem Conn.unresolved_attempt {ε α : Type} (conn : Conn ε α) :
    conn.attempt.unresolved = conn.inFlight := by
  obtain ⟨_, _ | _, phase⟩ := conn <;> cases phase <;>
    simp [Conn.attempt, Conn.inFlight, Attempt.unresolved]

section Panics

variable {ε α : Type} {w : Nat}

def Code.Enabled (c : Code ε α) : Op ε α → Prop
  | .connect _ | .setWeight _ => True
  | .poll i | .drop i => ∃ fut n, c.conns[i]? = some ⟨fut, n, .live⟩
  | .read j _ | .wrote j _ | .dropCtx j => c.ctxs[j]? = some true

def State.ThenPanics (w : Nat) (st : State) : Option (Except ε α) → Prop
  | none => False
  | some (.error _) => 2 ^ w ≤ st.consecutiveFailures + 1
  | some (.ok _) => 2 ^ w ≤ st.openConns + 1

/-- What makes an operation's code panic: the lazy block's `+= 1` at a first poll, the `then`
closure, the `+=` of `Ctx::read` and `Ctx::wrote`, or the `assert!` of `set_weight`. No
decrement is listed. -/
def Code.Panics (w : Nat) (c : Code ε α) : Op ε α → Prop
  | .poll i =>
    match c.conns[i]? with
    | some conn => (conn.polls = 0 ∧ 2 ^ w ≤ c.endpoint.state.pendingConns + 1) ∨
        c.endpoint.state.ThenPanics w (conn.fut.sock conn.polls)
    | none => False
  | .read _ sz => 2 ^ w ≤ c.endpoint.state.rxBytes + sz
  | .wrote _ sz => 2 ^ w ≤ c.endpoint.state.txBytes + sz
  | .setWeight weight => ¬(0 ≤ weight ∧ weight ≤ 1)
  | .connect _ | .drop _ | .dropCtx _ => False

theorem Connecting.pollThen_eq_none_iff {fut : Connecting ε α} {n : Nat} {st : State}
    (hp : 1 ≤ st.pendingConns) : fut.pollThen w n st = none ↔ st.ThenPanics w (fut.sock n) := by
  unfold Connecting.pollThen
  rcases fut.sock n with _ | (e | x) <;> simp [State.ThenPanics, Nat.one_le_iff_ne_zero.mp hp]

theorem Connecting.poll_eq_none_iff {fut : Connecting ε α} {n : Nat} {st : State}
    (hp : n ≠ 0 → 1 ≤ st.pendingConns) :
    fut.poll w n st = none ↔
      (n = 0 ∧ 2 ^ w ≤ st.pendingConns + 1) ∨ st.ThenPanics w (fut.sock n) := by
  cases n with
  | zero =>
    by_cases hc : 2 ^ w ≤ st.pendingConns + 1
    · rw [Connecting.poll, connecting_eq_none.mpr hc]
      simp [hc]
    · rw [Connecting.poll, connecting_eq_some.mpr ⟨not_le.mp hc, rfl⟩, Option.some_bind,
        Connecting.pollThen_eq_none_iff (Nat.le_add_left 1 _)]
      simp only [hc, and_false, false_or]
      rfl
  | succ n => simp [Connecting.poll, Connecting.pollThen_eq_none_iff (hp n.succ_ne_zero)]

theorem Code.step_eq_none_iff {c : Code ε α} {op : Op ε α}
    (hc : c.endpoint.state.pendingConns = c.conns.countP Conn.inFlight ∧
      c.endpoint.state.openConns = c.ctxs.count true)
    (he : c.Enabled op) : c.step w op = none ↔ c.Panics w op := by
  cases op <;> simp only [Code.Enabled] at he
  case poll i =>
    obtain ⟨fut, n, hconn⟩ := he
    have hp : n ≠ 0 → 1 ≤ c.endpoint.state.pendingConns := fun hn =>
      hc.1 ▸ one_le_countP_of_getElem? hconn (by simpa [Conn.inFlight, Nat.pos_iff_ne_zero])
    simp only [Code.step, Code.Panics, hconn, Option.map_eq_none', Connecting.poll_eq_none_iff hp]
  case drop i =>
    obtain ⟨fut, n, hconn⟩ := he
    simp [Code.step, Code.Panics, hconn]
  case dropCtx j =>
    have hopen : 1 ≤ c.endpoint.state.openConns := by
      rw [hc.2, List.count_eq_countP]
      exact one_le_countP_of_getElem? he rfl
    simp [Code.step, Code.Panics, he, Nat.one_le_iff_ne_zero.mp hopen]
  case connect => simp [Code.step, Code.Panics]
  case read | wrote => simp [Code.step, Code.Panics, he]
  case setWeight => simp [Code.step, Code.Panics, Endpoint.setWeight]

theorem Code.counts_of_run {peerAddr : SocketAddr} {weight : ℚ} {ops : List (Op ε α)}
    {c : Code ε α} (h : (Code.init peerAddr weight : Code ε α).run w ops = some c) :
    c.endpoint.state.pendingConns = c.conns.countP Conn.inFlight ∧
      c.endpoint.state.openConns = c.ctxs.count true := by
  obtain ⟨es, hes⟩ := Code.run_refines h
  have hs : Tracks es c.abs := tracks_of_run hes
  refine ⟨hs.pending.trans ?_, hs.opened⟩
  simp [Code.abs, List.countP_map, Function.comp_def, Conn.unresolved_attempt]

end Panics

/-- Over every run of the executor from a new endpoint, `pending_conns` counts the `Connecting`
futures that were polled and whose socket future has not resolved, dropped ones included, and
`open_conns` the live contexts; every operation that can happen next runs unless an increment
overflows. -/
theorem pending_conns_counts_polled_unresolved_futures {ε α : Type} (w : Nat)
    (peerAddr : SocketAddr) (weight : ℚ) (ops : List (Op ε α)) (c : Code ε α)
    (h : (Code.init peerAddr weight : Code ε α).run w ops = some c) :
    c.endpoint.state.pendingConns = c.conns.countP Conn.inFlight ∧
      c.endpoint.state.openConns = c.ctxs.count true ∧
      ∀ op : Op ε α, c.Enabled op → (c.step w op = none ↔ c.Panics w op) := by
  have hc := Code.counts_of_run h
  exact ⟨hc.1, hc.2, fun _ => Code.step_eq_none_iff hc⟩

theorem pending_conns_counts_failed_connected_and_dropped :
    let refused : Fut String Unit := fun _ => some (.error "refused")
    let accepted : Fut String Unit := fun _ => some (.ok ())
    let silent : Fut String Unit := fun _ => none
    let ops : List (Op String Unit) := [.connect refused, .connect accepted, .connect silent,
      .poll 0, .poll 1, .poll 2, .dropCtx 0, .drop 2]
    ∃ c, (Code.init ⟨.v4 0, 80⟩ 1 : Code String Unit).run 64 ops = some c ∧
      c.endpoint.state.pendingConns = c.conns.countP Conn.inFlight ∧
      c.endpoint.state.openConns = c.ctxs.count true ∧
      ∀ op : Op String Unit, c.Enabled op → (c.step 64 op = none ↔ c.Panics 64 op) := by
  intro refused accepted silent ops
  exact ⟨⟨{ new ⟨.v4 0, 80⟩ 1 with state.pendingConns := 1 },
      [⟨⟨refused⟩, 1, .failed⟩, ⟨⟨accepted⟩, 1, .connected⟩, ⟨⟨silent⟩, 1, .dropped⟩], [false]⟩,
    rfl, pending_conns_counts_polled_unresolved_futures 64 ⟨.v4 0, 80⟩ 1 ops _ rfl⟩

end LinkerdTcp.Balancer
