import LinkerdTcp.Resolver.Cycle

/-! # Snapshots are what `handle_response` makes of namerd's answers

`request` builds each request future as `client.get(uri).then(handle_response)`,
timed and counted by metrics that nothing reads. A request future of a `World`
serves an HTTP exchange when it answers as that composition does at every
poll a run makes of it, up to the exchange's first answer; a `World` has no
answer for a panic, so this also says that the run reached no panic of
`handle_response` in that request. `items_are_namerd_answers` then joins
`Delivered.polls` to the body parsing: every snapshot the stream yields is
what `handle_response` made of the first answer of its request's exchange,
and every address list among them is a bound response's addresses with
their weights normalised (`address_snapshots_are_bound_responses`).
-/

namespace LinkerdTcp.Resolver
set_option autoImplicit false

def Answer.ofResult : Except Error (List WeightedAddr) → Answer
  | .ok addrs => .ready addrs
  | .error e => .err e

section Request

variable (parseIp : String → Option IpAddr) (decode : List UInt8 → Except String NamerdResponse)

/-- `request`, its latency timer and counters apart: `exchange n` is what the HTTP exchange, its
body collected, has given by the future's `n`-th poll, `none` while it is in flight. A `none`
answer is a panic in `handle_response`. -/
def request (exchange : Nat → Option (Except String Response)) (n : Nat) : Option Answer :=
  match exchange n with
  | none => some .notReady
  | some result => (handleResponse parseIp decode result).map Answer.ofResult

/-- The `k`-th request future of `world` answers as `request` does on `exchange` at every poll up
to the exchange's first answer, which are the polls a run makes of it. -/
def World.Serves (world : World) (k : Nat) (exchange : Nat → Option (Except String Response)) :
    Prop :=
  ∀ n, (∀ j < n, exchange j = none) → Resolver.request parseIp decode exchange n = some (world.request k n)

/-- `handle_response` made `x` of the first answer of `exchange`; `x = none` is a panic. -/
def HandledFirstAnswer (exchange : Nat → Option (Except String Response)) (x : Option Item) :
    Prop :=
  ∃ p result, (∀ j < p, exchange j = none) ∧ exchange p = some result ∧
    handleResponse parseIp decode result = x

/-- The world whose request futures are those `request` builds on `exchanges`. A poll at which
`handle_response` panics has no answer in a `World`, and reads `NotReady` here; the results
about this world say where a run would reach one. -/
def World.ofExchanges (interval : Nat → Tick)
    (exchanges : Nat → Nat → Option (Except String Response)) : World :=
  ⟨interval, fun k n => (Resolver.request parseIp decode (exchanges k) n).getD .notReady⟩

variable {parseIp decode}

theorem request_eq_notReady {exchange : Nat → Option (Except String Response)} {n : Nat} :
    request parseIp decode exchange n = some .notReady ↔ exchange n = none := by
  unfold request
  split
  · simp_all
  · rename_i result hresult
    cases handleResponse parseIp decode result with
    | none => simp [hresult]
    | some r => cases r <;> simp [Answer.ofResult, hresult]

theorem request_eq_none {exchange : Nat → Option (Except String Response)} {n : Nat} :
    request parseIp decode exchange n = none ↔
      ∃ result, exchange n = some result ∧ handleResponse parseIp decode result = none := by
  unfold request
  split <;> simp_all

theorem request_item {exchange : Nat → Option (Except String Response)} {n : Nat} {a : Answer}
    {x : Item} (h : request parseIp decode exchange n = some a) (hx : a.item = some x) :
    ∃ result, exchange n = some result ∧ handleResponse parseIp decode result = some x := by
  unfold request at h
  split at h
  · cases h
    cases hx
  · obtain ⟨r, hr, rfl⟩ := Option.map_eq_some'.mp h
    refine ⟨_, ‹_›, ?_⟩
    cases r <;> simp only [Answer.ofResult, Answer.item, Option.some.injEq] at hx <;> exact hx ▸ hr

theorem World.Serves.none_before {world : World} {k : Nat}
    {exchange : Nat → Option (Except String Response)} (hw : world.Serves parseIp decode k exchange) :
    ∀ {p : Nat}, (∀ j < p, world.request k j = .notReady) → ∀ j < p, exchange j = none
  | 0, _ => nofun
  | p + 1, hnr => by
    have ih := hw.none_before fun j hj => hnr j (Nat.lt_succ_of_lt hj)
    have hp : Resolver.request parseIp decode exchange p = some .notReady := by
      rw [hw p ih, hnr p p.lt_succ_self]
    exact Nat.forall_lt_succ_right.mpr ⟨ih, request_eq_notReady.mp hp⟩

theorem IsOutcome.of_serves {world : World} {k : Nat}
    {exchange : Nat → Option (Except String Response)} (hw : world.Serves parseIp decode k exchange)
    {x : Item} (h : IsOutcome (world.request k) x) :
    HandledFirstAnswer parseIp decode exchange (some x) := by
  obtain ⟨p, hnr, hp⟩ := h
  have hnone := hw.none_before hnr
  obtain ⟨result, hres, hx⟩ := request_item (hw p hnone) hp
  exact ⟨p, result, hnone, hres, hx⟩

theorem World.ofExchanges_serves {interval : Nat → Tick}
    {exchanges : Nat → Nat → Option (Except String Response)} {k : Nat}
    (hok : ¬HandledFirstAnswer parseIp decode (exchanges k) none) :
    (World.ofExchanges parseIp decode interval exchanges).Serves parseIp decode k (exchanges k) := by
  intro n hnone
  cases hreq : Resolver.request parseIp decode (exchanges k) n with
  | some ans => simp [World.ofExchanges, hreq]
  | none =>
    obtain ⟨result, hres, hpanic⟩ := request_eq_none.mp hreq
    exact absurd ⟨n, result, hnone, hres, hpanic⟩ hok

end Request

/-- When the request futures are those `request` builds, the `k`-th snapshot a stream made by
`resolve` yields, over every run, is what `handle_response` made of the first answer of the
`k`-th request's HTTP exchange: an address list for a bound response, `NotBound`,
`UnexpectedStatus`, `Serde` or `Hyper` otherwise. -/
theorem items_are_namerd_answers (parseIp : String → Option IpAddr)
    (decode : List UInt8 → Except String NamerdResponse) (world : World)
    (exchanges : Nat → Nat → Option (Except String Response)) (rs : List PollResult) (a : Addrs)
    (h : Polls world resolve rs a)
    (hw : ∀ k < (items rs).length, world.Serves parseIp decode k (exchanges k)) :
    ∀ k (hk : k < (items rs).length),
      HandledFirstAnswer parseIp decode (exchanges k) (some (items rs)[k]) := by
  have ho := ((Delivered.init world).polls h).outcomes
  simp only [List.nil_append] at ho
  exact fun k hk => (ho k hk).of_serves (hw k hk)

theorem items_are_namerd_answers_of_refusals :
    let decode : List UInt8 → Except String NamerdResponse := fun b =>
      if b = [2] then .ok ⟨"bound", [⟨"localhost", 80, ⟨none⟩⟩]⟩ else .ok ⟨"neg", []⟩
    let exchanges : Nat → Nat → Option (Except String Response) := fun k n =>
      if k = 0 then some (.ok ⟨500, .ok []⟩)
      else if n = 0 then none else some (.ok ⟨200, .ok [[if k = 1 then 1 else 2]]⟩)
    let world : World := ⟨fun n => if n = 0 then .err "t" else .ready,
      fun k n => if k = 0 then .err (.unexpectedStatus 500) else if n = 0 then .notReady
        else .err .notBound⟩
    let rs : List PollResult := [.ok (.ready (some (.error (.unexpectedStatus 500)))),
      .error (.timer "t"), .ok .notReady, .ok (.ready (some (.error .notBound)))]
    Polls world resolve rs ⟨some (.waiting 2), 2⟩ ∧
    (∀ k < (items rs).length, world.Serves parseIpv4 decode k (exchanges k)) ∧
    ∀ k (hk : k < (items rs).length),
      HandledFirstAnswer parseIpv4 decode (exchanges k) (some (items rs)[k]) := by
  intro decode exchanges world rs
  have h : Polls world resolve rs ⟨some (.waiting 2), 2⟩ :=
    .cons 2 rfl (.cons 2 rfl (.cons 2 rfl (.cons 2 rfl (.nil _))))
  have hw : ∀ k < (items rs).length, world.Serves parseIpv4 decode k (exchanges k)
    | 0, _, _, _ => rfl
    | 1, _, 0, _ => rfl
    | 1, _, 1, _ => rfl
    | 1, _, n + 2, hnone => absurd (hnone 1 (by omega)) nofun
  exact ⟨h, hw, items_are_namerd_answers parseIpv4 decode world exchanges rs _ h hw⟩

/-- When the request futures are those `request` builds, every address list a stream made by
`resolve` yields, over every run, is that of a bound namerd response: the exchange of its request
first answered `200` with a body that decodes to a bound response, and the list has one entry per
address of that response, in order, with its ip parsed, its port, and its weight divided by the
sum of all the response's weights. -/
theorem address_snapshots_are_bound_responses (parseIp : String → Option IpAddr)
    (decode : List UInt8 → Except String NamerdResponse) (world : World)
    (exchanges : Nat → Nat → Option (Except String Response)) (rs : List PollResult) (a : Addrs)
    (h : Polls world resolve rs a)
    (hw : ∀ k < (items rs).length, world.Serves parseIp decode k (exchanges k)) :
    ∀ k (hk : k < (items rs).length) addrs, (items rs)[k] = .ok addrs →
      ∃ p chunks nrsp, (∀ j < p, exchanges k j = none) ∧
        exchanges k p = some (.ok ⟨200, .ok chunks⟩) ∧ decode chunks.flatten = .ok nrsp ∧
        nrsp.kind = "bound" ∧
        List.Forall₂ (fun na dst => parseIp na.ip = some dst.addr.ip ∧ dst.addr.port = na.port ∧
          dst.weight = (Weight.finite na.weight).div (totalWeight nrsp.addrs)) nrsp.addrs addrs := by
  have ho := ((Delivered.init world).polls h).outcomes
  simp only [List.nil_append] at ho
  intro k hk addrs hx
  obtain ⟨p, result, hnone, hres, hhandle⟩ := (ho k hk).of_serves (hw k hk)
  rw [hx] at hhandle
  obtain ⟨chunks, nrsp, rfl, hdec, hkind, hto⟩ := handleResponse_eq_some_ok hhandle
  exact ⟨p, chunks, nrsp, hnone, hres, hdec, hkind, toWeightedAddrs_eq_some parseIp hto⟩

theorem address_snapshots_are_bound_responses_of_two_addresses :
    let nrsp : NamerdResponse := ⟨"bound", [⟨"10.0.0.1", 80, ⟨some 3⟩⟩, ⟨"10.0.0.2", 80, ⟨none⟩⟩]⟩
    let decode : List UInt8 → Except String NamerdResponse := fun _ => .ok nrsp
    let exchanges : Nat → Nat → Option (Except String Response) := fun _ n =>
      if n = 0 then none else some (.ok ⟨200, .ok [[1]]⟩)
    let addrs : List WeightedAddr :=
      [⟨⟨.v4 167772161, 80⟩, .finite (3 / 4)⟩, ⟨⟨.v4 167772162, 80⟩, .finite (1 / 4)⟩]
    let world : World := ⟨fun _ => .notReady, fun _ n => if n = 0 then .notReady else .ready addrs⟩
    let rs : List PollResult := [.ok .notReady, .ok (.ready (some (.ok addrs)))]
    Polls world resolve rs ⟨some (.waiting 0), 1⟩ ∧
    (∀ k < (items rs).length, world.Serves parseIpv4 decode k (exchanges k)) ∧
    ∀ k (hk : k < (items rs).length) addrs, (items rs)[k] = .ok addrs →
      ∃ (p : Nat) (chunks : List (List UInt8)) (nrsp : NamerdResponse),
        (∀ j < p, exchanges k j = none) ∧ exchanges k p = some (.ok ⟨200, .ok chunks⟩) ∧
        decode chunks.flatten = .ok nrsp ∧ nrsp.kind = "bound" ∧
        List.Forall₂ (fun (na : NamerdAddr) (dst : WeightedAddr) => parseIpv4 na.ip =
          some dst.addr.ip ∧ dst.addr.port = na.port ∧
          dst.weight = (Weight.finite na.weight).div (totalWeight nrsp.addrs)) nrsp.addrs addrs := by
  intro nrsp decode exchanges addrs world rs
  have h : Polls world resolve rs ⟨some (.waiting 0), 1⟩ := .cons 1 rfl (.cons 1 rfl (.nil _))
  have hto : toWeightedAddrs parseIpv4 nrsp.addrs = some addrs := by
    have h₁ : parseIpv4 "10.0.0.1" = some (.v4 167772161) := by decide
    have h₂ : parseIpv4 "10.0.0.2" = some (.v4 167772162) := by decide
    simp [nrsp, addrs, toWeightedAddrs, collectAddrs, h₁, h₂, NamerdAddr.weight, WeightedAddr.new,
      Weight.div]
    norm_num
  have hw : ∀ k < (items rs).length, world.Serves parseIpv4 decode k (exchanges k)
    | 0, _, 0, _ => rfl
    | 0, _, 1, _ => by
      simp [request, exchanges, handleResponse, parseBody, parseChunks, toBuf_eq_some, decode, hto,
        Answer.ofResult, world]
    | 0, _, n + 2, hnone => absurd (hnone 1 (by omega)) nofun
  exact ⟨h, hw, address_snapshots_are_bound_responses parseIpv4 decode world exchanges rs _ h hw⟩

end LinkerdTcp.Resolver
