import LinkerdTcp.Resolver.Body

/-! # The namerd address stream

`Addrs::poll` takes the state out of `self.state`, polls the future it holds,
puts a state back, and either returns or goes round its `loop` again. A
future is modelled by its identity and the number of times it was polled;
a `World` says what every poll of the interval and of every request answers,
so a run for each world is a run for each sequence of outcomes. The `loop` is
run on fuel, and `pollLoop_done` shows that two passes always suffice.
-/

namespace LinkerdTcp.Resolver
set_option autoImplicit false

inductive Tick
  | err (msg : String)
  | notReady
  | ready
  deriving DecidableEq, Repr

inductive Answer
  | err (e : Error)
  | notReady
  | ready (addrs : List WeightedAddr)
  deriving DecidableEq, Repr

/-- `interval n` answers the `n`-th poll of the interval, `request k n` the `n`-th poll of the
`k`-th request the stream made. -/
structure World where
  interval : Nat → Tick
  request : Nat → Nat → Answer

structure Request where
  id : Nat
  polls : Nat
  deriving DecidableEq, Repr

inductive AddrsState
  | pending (fut : Request) (int : Nat)
  | waiting (int : Nat)
  deriving DecidableEq, Repr

structure Addrs where
  state : Option AddrsState
  requests : Nat
  deriving DecidableEq, Repr

abbrev Item := Except Error (List WeightedAddr)

inductive Async (α : Type)
  | ready (a : α)
  | notReady

abbrev PollResult := Except Error (Async (Option Item))

/-- `WithClient::resolve`: the first request is made at once, beside a new interval. -/
def resolve : Addrs := ⟨some (.pending ⟨0, 0⟩ 0), 1⟩

/-- How one pass of the `loop` of `Addrs::poll` ends: it goes round again, it returns, or its
`expect("polled after completion")` panics. -/
inductive Control
  | again (a : Addrs)
  | done (a : Addrs) (r : PollResult)
  | panicked

/-- One pass of the `loop`; `request` makes the request named `a.requests`. -/
def Addrs.iterate (world : World) (a : Addrs) : Control :=
  match a.state with
  | none => .panicked
  | some st =>
    let a := { a with state := none }
    match st with
    | .waiting int =>
      match world.interval int with
      | .err e => .done { a with state := some (.waiting (int + 1)) } (.error (.timer e))
      | .notReady => .done { a with state := some (.waiting (int + 1)) } (.ok .notReady)
      | .ready =>
        .again { a with state := some (.pending ⟨a.requests, 0⟩ (int + 1)),
                        requests := a.requests + 1 }
    | .pending fut int =>
      match world.request fut.id fut.polls with
      | .err e => .done { a with state := some (.waiting int) } (.ok (.ready (some (.error e))))
      | .ready addrs =>
        .done { a with state := some (.waiting int) } (.ok (.ready (some (.ok addrs))))
      | .notReady =>
        .done { a with state := some (.pending ⟨fut.id, fut.polls + 1⟩ int) } (.ok .notReady)

/-- `Addrs::poll` with `fuel` passes of its `loop`; `again` is a loop that has not returned. -/
def Addrs.pollLoop (world : World) : Nat → Addrs → Control
  | 0, a => .again a
  | fuel + 1, a =>
    match a.iterate world with
    | .again a' => Addrs.pollLoop world fuel a'
    | c => c

section Iterate

variable {world : World} {a a' : Addrs} {r : PollResult}

theorem iterate_done (h : a.iterate world = .done a' r) :
    a'.requests = a.requests ∧ a'.state ≠ none ∧ r ≠ .ok (.ready none) := by
  unfold Addrs.iterate at h
  split at h
  · cases h
  · split at h <;> split at h <;> cases h <;> simp

theorem iterate_again (h : a.iterate world = .again a') :
    ∃ int, a.state = some (.waiting int) ∧ world.interval int = .ready ∧
      a' = ⟨some (.pending ⟨a.requests, 0⟩ (int + 1)), a.requests + 1⟩ := by
  unfold Addrs.iterate at h
  split at h
  · cases h
  · rename_i st hst
    split at h <;> split at h <;> cases h
    exact ⟨_, hst, ‹_›, rfl⟩

theorem iterate_pending {fut : Request} {int : Nat} (hst : a.state = some (.pending fut int)) :
    ∃ a' r, a.iterate world = .done a' r := by
  simp only [Addrs.iterate, hst]
  split <;> exact ⟨_, _, rfl⟩

theorem iterate_ne_panicked (hst : a.state ≠ none) : a.iterate world ≠ .panicked := by
  unfold Addrs.iterate
  split
  · contradiction
  · split <;> split <;> simp

theorem pollLoop_of_done {fuel : Nat} (h : a.iterate world = .done a' r) :
    a.pollLoop world (fuel + 1) = .done a' r := by
  simp [Addrs.pollLoop, h]

theorem pollLoop_done (hst : a.state ≠ none) :
    ∃ a' r, (∀ fuel, 2 ≤ fuel → a.pollLoop world fuel = .done a' r) ∧
      a'.requests ≤ a.requests + 1 ∧ a'.state ≠ none ∧ r ≠ .ok (.ready none) := by
  cases hit : a.iterate world with
  | done a' r =>
    obtain ⟨hreq, hst', hr⟩ := iterate_done hit
    refine ⟨a', r, fun fuel hfuel => ?_, by omega, hst', hr⟩
    obtain ⟨n, rfl⟩ : ∃ n, fuel = n + 1 := ⟨fuel - 1, by omega⟩
    exact pollLoop_of_done hit
  | again a₁ =>
    obtain ⟨int, -, -, rfl⟩ := iterate_again hit
    obtain ⟨a', r, hit'⟩ :=
      @iterate_pending world ⟨some (.pending ⟨a.requests, 0⟩ (int + 1)), a.requests + 1⟩ _ _ rfl
    obtain ⟨hreq, hst', hr⟩ := iterate_done hit'
    refine ⟨a', r, fun fuel hfuel => ?_, by simp only at hreq; omega, hst', hr⟩
    obtain ⟨n, rfl⟩ : ∃ n, fuel = n + 1 + 1 := ⟨fuel - 2, by omega⟩
    simp only [Addrs.pollLoop, hit]
    exact pollLoop_of_done hit'
  | panicked => exact absurd hit (iterate_ne_panicked hst)

theorem pollLoop_done_state : ∀ {fuel : Nat} {a a' : Addrs} {r : PollResult},
    a.pollLoop world fuel = .done a' r → a'.state ≠ none
  | 0, _, _, _, h => by cases h
  | _ + 1, a, _, _, h => by
    cases hit : a.iterate world with
    | again a₁ => simp only [Addrs.pollLoop, hit] at h; exact pollLoop_done_state h
    | done => simp only [Addrs.pollLoop, hit] at h; cases h; exact (iterate_done hit).2.1
    | panicked => simp [Addrs.pollLoop, hit] at h

end Iterate

/-- The streams `resolve` leads to through calls of `poll` that returned. -/
inductive Reachable (world : World) : Addrs → Prop
  | resolve : Reachable world resolve
  | poll {a a' : Addrs} {r : PollResult} (fuel : Nat) :
      Reachable world a → a.pollLoop world fuel = .done a' r → Reachable world a'

theorem Reachable.state_ne_none {world : World} {a : Addrs} (h : Reachable world a) :
    a.state ≠ none := by
  cases h with
  | resolve => decide
  | poll _ _ hpoll => exact pollLoop_done_state hpoll

/-- Every call of `poll` on a stream made by `resolve` finds a state to take, returns after at
most two passes of its loop, makes at most one request and puts back `Pending` or `Waiting`,
whatever it returns (`Err(Timer)` too); it never yields `Ready(None)`. -/
theorem poll_returns_within_two_passes (world : World) (a : Addrs) (h : Reachable world a) :
    a.state ≠ none ∧ ∃ a' r, (∀ fuel, 2 ≤ fuel → a.pollLoop world fuel = .done a' r) ∧
      a'.requests ≤ a.requests + 1 ∧ a'.state ≠ none ∧ r ≠ .ok (.ready none) :=
  ⟨h.state_ne_none, pollLoop_done h.state_ne_none⟩

theorem poll_returns_within_two_passes_at_tick :
    let world : World := ⟨fun n => if n = 0 then .err "t" else .ready,
      fun k n => if k = 0 then .err .notBound else if n = 0 then .notReady else .ready []⟩
    let a : Addrs := ⟨some (.waiting 1), 1⟩
    Reachable world a ∧ a.state ≠ none ∧ ∃ a' r, (∀ fuel, 2 ≤ fuel → a.pollLoop world fuel = .done a' r) ∧
      a'.requests ≤ a.requests + 1 ∧ a'.state ≠ none ∧ r ≠ .ok (.ready none) := by
  intro world a
  have h : Reachable world a := .poll 2 (.poll 2 .resolve rfl) rfl
  exact ⟨h, poll_returns_within_two_passes world a h⟩

end LinkerdTcp.Resolver
