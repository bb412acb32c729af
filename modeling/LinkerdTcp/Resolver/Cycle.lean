import LinkerdTcp.Resolver.Addrs

/-! # The stream refines the spec's resolution cycle

The spec describes a resolver as a two-state machine: a tick in `Waiting`
issues a request, and a request that completes, with an address list or an
error, emits that snapshot and goes back to `Waiting`. `Delivered` says what
a stream has yielded so far: the outcomes of its requests in order, none
lost or repeated, with one request made at `resolve` and one per interval
tick; and that its passes, read as steps of the cycle (a pass that fires the
interval a tick, one that yields a snapshot a completion), are a run of the
cycle. `Delivered.pollLoop` carries it through a call of `poll`, and
`Delivered.polls` through any run.
-/

namespace LinkerdTcp.Resolver
set_option autoImplicit false

/-- The resolution cycle of the spec. -/
inductive Cycle
  | pending
  | waiting
  deriving DecidableEq, Repr

/-- A tick issues a request; a completed request emits its snapshot. -/
inductive Cycle.Step : Cycle → Option Item → Cycle → Prop
  | tick : Cycle.Step .waiting none .pending
  | complete (x : Item) : Cycle.Step .pending (some x) .waiting

/-- Runs of the cycle, with the label of each step in order: `none` for a tick. -/
inductive Cycle.Steps : Cycle → List (Option Item) → Cycle → Prop
  | refl (c : Cycle) : Cycle.Steps c [] c
  | snoc {c c₁ c' : Cycle} {evs : List (Option Item)} {o : Option Item} :
      Cycle.Steps c evs c₁ → Cycle.Step c₁ o c' → Cycle.Steps c (evs ++ [o]) c'

def Addrs.phase (a : Addrs) : Cycle :=
  match a.state with
  | some (.pending _ _) => .pending
  | _ => .waiting

def Addrs.intervalPolls (a : Addrs) : Nat :=
  match a.state with
  | some (.pending _ int) | some (.waiting int) => int
  | none => 0

def itemOf : PollResult → Option Item
  | .ok (.ready (some x)) => some x
  | _ => none

def items (rs : List PollResult) : List Item := rs.filterMap itemOf

def Answer.item : Answer → Option Item
  | .err e => some (.error e)
  | .ready addrs => some (.ok addrs)
  | .notReady => none

/-- `x` is the outcome of the request that answers `answers`: its first answer but `NotReady`. -/
def IsOutcome (answers : Nat → Answer) (x : Item) : Prop :=
  ∃ p, (∀ j < p, answers j = .notReady) ∧ (answers p).item = some x

def fired (world : World) (n : Nat) : Nat :=
  (List.range n).countP fun j => world.interval j == .ready

/-- With `completed` requests completed, the one in flight, if any, is the next and has answered
only `NotReady`; with none in flight, every request made has completed. -/
def InFlight (world : World) (completed : Nat) (a : Addrs) : Prop :=
  match a.state with
  | some (.pending fut _) => fut.id = completed ∧ a.requests = completed + 1 ∧
      ∀ j < fut.polls, world.request completed j = .notReady
  | some (.waiting _) => a.requests = completed
  | none => False

/-- What a stream that has yielded `items` has done. Its passes ran the cycle from `Pending` to
its phase: the completions are the items, and the ticks the firings of the interval. -/
structure Delivered (world : World) (items : List Item) (a : Addrs) : Prop where
  outcomes : ∀ k (hk : k < items.length), IsOutcome (world.request k) items[k]
  inFlight : InFlight world items.length a
  requests : a.requests = 1 + fired world a.intervalPolls
  cycle : ∃ evs, Cycle.Steps .pending evs a.phase ∧ evs.reduceOption = items ∧
    evs.countP Option.isNone = fired world a.intervalPolls

/-- `a` polled once per result of `rs`, each call returning that result, ends at `a'`. -/
inductive Polls (world : World) : Addrs → List PollResult → Addrs → Prop
  | nil (a : Addrs) : Polls world a [] a
  | cons {a a₁ a' : Addrs} {r : PollResult} {rs : List PollResult} (fuel : Nat) :
      a.pollLoop world fuel = .done a₁ r → Polls world a₁ rs a' → Polls world a (r :: rs) a'

theorem fired_succ (world : World) (n : Nat) :
    fired world (n + 1) = fired world n + if world.interval n = .ready then 1 else 0 := by
  simp [fired, List.range_succ, List.countP_append, List.countP_cons]

theorem fired_succ_of_ne (world : World) {n : Nat} (h : world.interval n ≠ .ready) :
    fired world (n + 1) = fired world n := by
  simp [fired_succ, h]

section Step

variable {world : World} {its : List Item}

theorem Delivered.after_done {a a' : Addrs} {r : PollResult} (hd : Delivered world its a)
    (h : a.iterate world = .done a' r) : Delivered world (its ++ (itemOf r).toList) a' := by
  obtain ⟨ho, hf, hr, hc⟩ := hd
  obtain ⟨_ | st, n⟩ := a
  · exact hf.elim
  cases st with
  | waiting int =>
    simp only [Addrs.iterate] at h
    split at h <;> cases h <;> rename_i hint
    all_goals
      have hfired := fired_succ_of_ne world (hint ▸ nofun : world.interval int ≠ .ready)
      refine ⟨by simpa [itemOf] using ho, by simpa [itemOf] using hf, ?_, ?_⟩
      · simpa [Addrs.intervalPolls, hfired] using hr
      · simpa [itemOf, Addrs.phase, Addrs.intervalPolls, hfired] using hc
  | pending fut int =>
    obtain ⟨hid, hn, hpolls⟩ := hf
    simp only [Addrs.iterate] at h
    split at h <;> cases h <;> rename_i hanswer
    pick_goal 3
    · simp only [itemOf, Option.toList, List.append_nil]
      refine ⟨ho, ⟨hid, hn, fun j hj => ?_⟩, hr, by simpa [Addrs.phase, Addrs.intervalPolls] using hc⟩
      rcases Nat.lt_succ_iff_lt_or_eq.mp hj with hj | rfl
      · exact hpolls j hj
      · exact hid ▸ hanswer
    all_goals
      have hout : IsOutcome (world.request its.length) _ :=
        ⟨fut.polls, hpolls, by rw [← hid, hanswer]; rfl⟩
      obtain ⟨evs, hsteps, hred, hcount⟩ := hc
      refine ⟨fun k hk => ?_, by simpa [itemOf, InFlight] using hn, hr,
        ⟨evs ++ [some _], .snoc hsteps (.complete _), by rw [List.reduceOption_append, hred]; rfl,
          by simpa [Addrs.intervalPolls] using hcount⟩⟩
      rcases Nat.lt_succ_iff_lt_or_eq.mp (by simpa [itemOf] using hk) with hk | rfl
      · simpa [itemOf, List.getElem_append_left hk] using ho k hk
      · simpa [itemOf] using hout

theorem Delivered.after_again {a a' : Addrs} (hd : Delivered world its a)
    (h : a.iterate world = .again a') : Delivered world its a' := by
  obtain ⟨int, hst, hint, rfl⟩ := iterate_again h
  obtain ⟨ho, hf, hr, evs, hsteps, hred, hcount⟩ := hd
  simp only [InFlight, Addrs.intervalPolls, Addrs.phase, hst] at hf hr hsteps hcount
  refine ⟨ho, ⟨hf, by rw [hf], nofun⟩, ?_, evs ++ [none], hsteps.snoc .tick,
    by simp [List.reduceOption_append, hred], ?_⟩
  · simp [Addrs.intervalPolls, fired_succ, hint, hr]
    omega
  · simp [Addrs.intervalPolls, fired_succ, hint, hcount]

theorem Delivered.pollLoop : ∀ {fuel : Nat} {a a' : Addrs} {r : PollResult} {its : List Item},
    Delivered world its a → a.pollLoop world fuel = .done a' r →
      Delivered world (its ++ (itemOf r).toList) a'
  | 0, _, _, _, _, _, h => by cases h
  | _ + 1, a, _, _, _, hd, h => by
    cases hit : a.iterate world with
    | again a₁ => simp only [Addrs.pollLoop, hit] at h; exact (hd.after_again hit).pollLoop h
    | done => simp only [Addrs.pollLoop, hit] at h; cases h; exact hd.after_done hit
    | panicked => simp [Addrs.pollLoop, hit] at h

end Step

theorem items_cons (r : PollResult) (rs : List PollResult) :
    items (r :: rs) = (itemOf r).toList ++ items rs := by
  cases h : itemOf r <;> simp [items, List.filterMap_cons, h]

theorem Delivered.polls {world : World} {its : List Item} {a a' : Addrs} {rs : List PollResult}
    (hd : Delivered world its a) (h : Polls world a rs a') : Delivered world (its ++ items rs) a' := by
  induction h generalizing its with
  | nil => simpa [items] using hd
  | cons _ hpoll _ ih => simpa [items_cons] using ih (hd.pollLoop hpoll)

theorem Delivered.init (world : World) : Delivered world [] resolve :=
  ⟨nofun, ⟨rfl, rfl, nofun⟩, by simp [resolve, Addrs.intervalPolls, fired],
    ⟨[], .refl _, rfl, by simp [resolve, Addrs.intervalPolls, fired]⟩⟩

/-- Over every run of a stream made by `resolve`, whatever the interval and the requests answer,
its `Ready(Some(item))` results are, in order, the outcomes of requests `0, 1, …`, one per
completed request; the request in flight, if any, is the next one and has not completed; the
stream made one request at `resolve` and one per tick of the interval; and its passes ran the
spec's cycle to the stream's phase, with one completion per item, in order, and one tick per
firing of the interval. -/
theorem items_are_request_outcomes (world : World) (rs : List PollResult) (a : Addrs)
    (h : Polls world resolve rs a) :
    (∀ k (hk : k < (items rs).length), IsOutcome (world.request k) (items rs)[k]) ∧
    InFlight world (items rs).length a ∧
    a.requests = 1 + fired world a.intervalPolls ∧
    ∃ evs, Cycle.Steps .pending evs a.phase ∧ evs.reduceOption = items rs ∧
      evs.countP Option.isNone = fired world a.intervalPolls := by
  obtain ⟨ho, hf, hr, hc⟩ := (Delivered.init world).polls h
  exact ⟨by simpa using ho, by simpa using hf, hr, by simpa using hc⟩

theorem items_are_request_outcomes_after_tick_and_error :
    let world : World := ⟨fun n => if n = 0 then .err "t" else .ready,
      fun k n => if k = 0 then .err .notBound else if n = 0 then .notReady else .ready []⟩
    let rs : List PollResult := [.ok (.ready (some (.error .notBound))), .error (.timer "t"),
      .ok .notReady, .ok (.ready (some (.ok [])))]
    let a : Addrs := ⟨some (.waiting 2), 2⟩
    Polls world resolve rs a ∧
    (∀ k (hk : k < (items rs).length), IsOutcome (world.request k) (items rs)[k]) ∧
    InFlight world (items rs).length a ∧
    a.requests = 1 + fired world a.intervalPolls ∧
    ∃ evs, Cycle.Steps .pending evs a.phase ∧ evs.reduceOption = items rs ∧
      evs.countP Option.isNone = fired world a.intervalPolls := by
  intro world rs a
  have h : Polls world resolve rs a :=
    .cons 2 rfl (.cons 2 rfl (.cons 2 rfl (.cons 2 rfl (.nil _))))
  exact ⟨h, items_are_request_outcomes world rs a h⟩

end LinkerdTcp.Resolver
