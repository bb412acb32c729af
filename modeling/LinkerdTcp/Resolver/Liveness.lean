import LinkerdTcp.Resolver.Request

/-! # The stream never stops yielding snapshots

`Delivered` says that what the stream yields is right; here it is shown that
it keeps yielding. A pending request that completes is delivered by the call
of `poll` that sees it complete (`Addrs.polls_pending`), and a waiting stream
makes its next request at the next tick and polls it in the same call
(`Addrs.polls_waiting`). So when the interval keeps firing and every request
eventually answers, a stream made by `resolve` yields as many snapshots as
one asks for (`snapshots_never_stop`). With the request futures that
`request` builds, a request answers once its HTTP exchange completes, and
every answer of namerd reaches the stream, in order, up to the first one on
which `handle_response` panics (`namerd_answers_reach_stream_in_order`).
-/

namespace LinkerdTcp.Resolver
set_option autoImplicit false

/-- The interval fires again after every poll. -/
def World.Ticks (world : World) : Prop := ∀ n, ∃ j, world.interval (n + j) = .ready

/-- Every request eventually answers something other than `NotReady`. -/
def World.Answers (world : World) : Prop := ∀ k, ∃ p, world.request k p ≠ .notReady

section Polls

variable {world : World}

theorem Polls.append {a a₁ a₂ : Addrs} {rs rs' : List PollResult} (h : Polls world a rs a₁)
    (h' : Polls world a₁ rs' a₂) : Polls world a (rs ++ rs') a₂ := by
  induction h with
  | nil => exact h'
  | cons fuel hpoll _ ih => exact .cons fuel hpoll (ih h')

theorem Polls.of_again {a a₁ a' : Addrs} {rs : List PollResult}
    (hit : a.iterate world = .again a₁) (h : Polls world a₁ rs a') (hne : rs ≠ []) :
    Polls world a rs a' := by
  cases h with
  | nil => exact absurd rfl hne
  | cons fuel hpoll hrest => exact .cons (fuel + 1) (by simp [Addrs.pollLoop, hit, hpoll]) hrest

theorem items_append (rs rs' : List PollResult) : items (rs ++ rs') = items rs ++ items rs' :=
  List.filterMap_append _ _ _

@[simp] theorem items_notReady_then (n : Nat) (x : Item) :
    items (List.replicate n (.ok .notReady) ++ [.ok (.ready (some x))]) = [x] := by
  induction n with
  | zero => rfl
  | succ n ih => simpa [List.replicate_succ, items_cons, itemOf] using ih

theorem Addrs.polls_pending {fut : Request} {int : Nat} {a : Addrs}
    (hst : a.state = some (.pending fut int)) {n : Nat} {x : Item}
    (hnr : ∀ j < n, world.request fut.id (fut.polls + j) = .notReady)
    (hx : (world.request fut.id (fut.polls + n)).item = some x) :
    ∃ a', Polls world a (List.replicate n (.ok .notReady) ++ [.ok (.ready (some x))]) a' ∧
      a'.state = some (.waiting int) ∧ a'.requests = a.requests := by
  induction n generalizing fut a with
  | zero =>
    have hdone : a.iterate world =
        .done { a with state := some (.waiting int) } (.ok (.ready (some x))) := by
      rcases hans : world.request fut.id fut.polls with e | _ | addrs <;>
        simp only [Nat.add_zero, hans, Answer.item, Option.some.injEq, reduceCtorEq] at hx <;>
        subst hx <;> simp [Addrs.iterate, hst, hans]
    exact ⟨_, .cons 1 (pollLoop_of_done hdone) (.nil _), rfl, rfl⟩
  | succ n ih =>
    have hnr₀ : world.request fut.id fut.polls = .notReady := hnr 0 (Nat.succ_pos n)
    have hit : a.iterate world =
        .done { a with state := some (.pending ⟨fut.id, fut.polls + 1⟩ int) } (.ok .notReady) := by
      simp [Addrs.iterate, hst, hnr₀]
    obtain ⟨a', hpolls, hst', hreq⟩ :=
      @ih ⟨fut.id, fut.polls + 1⟩ { a with state := some (.pending ⟨fut.id, fut.polls + 1⟩ int) } rfl
        (fun j hj => by
          rw [show fut.polls + 1 + j = fut.polls + (j + 1) by omega]; exact hnr _ (by omega))
        (by rw [show fut.polls + 1 + n = fut.polls + (n + 1) by omega]; exact hx)
    exact ⟨a', .cons 1 (pollLoop_of_done hit) hpolls, hst', hreq⟩

theorem Addrs.polls_waiting {int : Nat} {a : Addrs} (hst : a.state = some (.waiting int))
    {n m : Nat} {x : Item} (hquiet : ∀ j < n, world.interval (int + j) ≠ .ready)
    (htick : world.interval (int + n) = .ready)
    (hnr : ∀ j < m, world.request a.requests j = .notReady)
    (hx : (world.request a.requests m).item = some x) :
    ∃ rs a', Polls world a rs a' ∧ items rs = [x] ∧ a'.state = some (.waiting (int + n + 1)) ∧
      a'.requests = a.requests + 1 := by
  induction n generalizing int a with
  | zero =>
    have htick₀ : world.interval int = .ready := htick
    have hit :
        a.iterate world = .again ⟨some (.pending ⟨a.requests, 0⟩ (int + 1)), a.requests + 1⟩ := by
      simp [Addrs.iterate, hst, htick₀]
    obtain ⟨a', hpolls, hst', hreq⟩ :=
      @Addrs.polls_pending world _ _ ⟨some (.pending ⟨a.requests, 0⟩ (int + 1)), a.requests + 1⟩
        rfl m x (by simpa using hnr) (by simpa using hx)
    exact ⟨_, a', hpolls.of_again hit (by simp), by simp, hst', hreq⟩
  | succ n ih =>
    have hdone : ∃ r, a.iterate world = .done { a with state := some (.waiting (int + 1)) } r ∧
        itemOf r = none := by
      have hq := hquiet 0 (Nat.succ_pos n)
      simp only [Nat.add_zero] at hq
      rcases hi : world.interval int with e | _ | _
      · exact ⟨.error (.timer e), by simp [Addrs.iterate, hst, hi], rfl⟩
      · exact ⟨.ok .notReady, by simp [Addrs.iterate, hst, hi], rfl⟩
      · exact absurd hi hq
    obtain ⟨r, hit, hr⟩ := hdone
    obtain ⟨rs, a', hpolls, hitems, hst', hreq⟩ :=
      @ih (int + 1) { a with state := some (.waiting (int + 1)) } rfl
        (fun j hj => by rw [show int + 1 + j = int + (j + 1) by omega]; exact hquiet _ (by omega))
        (by rw [show int + 1 + n = int + (n + 1) by omega]; exact htick) hnr hx
    refine ⟨r :: rs, a', .cons 1 (pollLoop_of_done hit) hpolls, by simp [items_cons, hr, hitems],
      by rw [hst']; congr 3; omega, hreq⟩

theorem Answer.exists_item {ans : Answer} (h : ans ≠ .notReady) : ∃ x, ans.item = some x := by
  cases ans with
  | err e => exact ⟨_, rfl⟩
  | notReady => exact absurd rfl h
  | ready addrs => exact ⟨_, rfl⟩

theorem exists_first_answer {k q : Nat} (hq : ∀ j < q, world.request k j = .notReady)
    (h : ∃ p, world.request k p ≠ .notReady) :
    ∃ n x, (∀ j < n, world.request k (q + j) = .notReady) ∧
      (world.request k (q + n)).item = some x := by
  have hle : q ≤ Nat.find h := Nat.le_of_not_lt fun hlt => Nat.find_spec h (hq _ hlt)
  obtain ⟨x, hx⟩ := Answer.exists_item (Nat.find_spec h)
  refine ⟨Nat.find h - q, x, fun j hj => ?_, by rwa [Nat.add_sub_cancel' hle]⟩
  exact not_not.mp (Nat.find_min h (show q + j < Nat.find h by omega))

theorem Delivered.next_item {its : List Item} {a : Addrs} (hd : Delivered world its a)
    (hticks : world.Ticks) (hans : ∃ p, world.request its.length p ≠ .notReady) :
    ∃ rs a' x, Polls world a rs a' ∧ items rs = [x] := by
  have hf := hd.inFlight
  cases hst : a.state with
  | none => simp [InFlight, hst] at hf
  | some st =>
    cases st with
    | pending fut int =>
      simp only [InFlight, hst] at hf
      obtain ⟨hid, -, hpolls⟩ := hf
      obtain ⟨n, x, hnr, hx⟩ := exists_first_answer (by rw [hid]; exact hpolls) (hid ▸ hans)
      obtain ⟨a', hp, -⟩ := Addrs.polls_pending hst hnr hx
      exact ⟨_, a', x, hp, by simp⟩
    | waiting int =>
      simp only [InFlight, hst] at hf
      obtain ⟨m, x, hnr, hx⟩ := exists_first_answer (q := 0) nofun (hf ▸ hans)
      simp only [Nat.zero_add] at hnr hx
      have htick := hticks int
      obtain ⟨rs, a', hp, hitems, -⟩ :=
        Addrs.polls_waiting hst (fun j hj => Nat.find_min htick hj) (Nat.find_spec htick) hnr hx
      exact ⟨rs, a', x, hp, hitems⟩

theorem Delivered.exists_polls {its : List Item} {a : Addrs} (hd : Delivered world its a)
    (hticks : world.Ticks) :
    ∀ n, (∀ k < its.length + n, ∃ p, world.request k p ≠ .notReady) →
      ∃ rs a', Polls world a rs a' ∧ (items rs).length = n
  | 0, _ => ⟨[], a, .nil _, rfl⟩
  | n + 1, hans => by
    obtain ⟨rs, a₁, h, hlen⟩ := hd.exists_polls hticks n fun k hk => hans k (by omega)
    obtain ⟨rs', a', x, h', hx⟩ :=
      (hd.polls h).next_item hticks (hans _ (by simp only [List.length_append]; omega))
    exact ⟨rs ++ rs', a', h.append h', by simp [items_append, hx, hlen]⟩

end Polls

/-- When the interval fires again after every poll and every request eventually answers, a stream
made by `resolve` never stops yielding snapshots: for every `n`, its calls of `poll` yield `n`
of them. -/
theorem snapshots_never_stop (world : World) (hticks : world.Ticks) (hans : world.Answers)
    (n : Nat) : ∃ rs a, Polls world resolve rs a ∧ (items rs).length = n :=
  (Delivered.init world).exists_polls hticks n fun k _ => hans k

theorem snapshots_never_stop_of_always_ready :
    let world : World := ⟨fun _ => .ready, fun _ _ => .ready []⟩
    world.Ticks ∧ world.Answers ∧ ∀ n, ∃ rs a, Polls world resolve rs a ∧ (items rs).length = n :=
  have hticks : World.Ticks ⟨fun _ => .ready, fun _ _ => .ready []⟩ := fun _ => ⟨0, rfl⟩
  have hans : World.Answers ⟨fun _ => .ready, fun _ _ => .ready []⟩ := fun _ => ⟨0, nofun⟩
  ⟨hticks, hans, snapshots_never_stop _ hticks hans⟩

/-- Every completed request is delivered: a stream waiting on a request that answers `NotReady` to
its next `n` polls and then completes makes its next `n + 1` calls of `poll` return `NotReady`
`n` times and then that outcome, and is `Waiting` again on the same interval, with no new
request. -/
theorem pending_request_delivered (world : World) (fut : Request) (int : Nat) (a : Addrs)
    (hst : a.state = some (.pending fut int)) (n : Nat) (x : Item)
    (hnr : ∀ j < n, world.request fut.id (fut.polls + j) = .notReady)
    (hx : (world.request fut.id (fut.polls + n)).item = some x) :
    ∃ a', Polls world a (List.replicate n (.ok .notReady) ++ [.ok (.ready (some x))]) a' ∧
      a'.state = some (.waiting int) ∧ a'.requests = a.requests :=
  Addrs.polls_pending hst hnr hx

theorem pending_request_delivered_after_two_polls :
    let world : World := ⟨fun _ => .notReady, fun _ n => if n < 2 then .notReady else .ready []⟩
    let a : Addrs := ⟨some (.pending ⟨0, 1⟩ 3), 1⟩
    (∀ j < 1, world.request (⟨0, 1⟩ : Request).id ((⟨0, 1⟩ : Request).polls + j) = .notReady) ∧
      (world.request (⟨0, 1⟩ : Request).id ((⟨0, 1⟩ : Request).polls + 1)).item = some (.ok []) ∧
      ∃ a', Polls world a (List.replicate 1 (.ok .notReady) ++ [.ok (.ready (some (.ok [])))]) a' ∧
        a'.state = some (.waiting 3) ∧ a'.requests = a.requests :=
  ⟨by decide, rfl, pending_request_delivered _ ⟨0, 1⟩ 3 _ rfl 1 (.ok []) (by decide) rfl⟩

theorem World.Serves.answers {parseIp : String → Option IpAddr}
    {decode : List UInt8 → Except String NamerdResponse} {world : World} {k : Nat}
    {exchange : Nat → Option (Except String Response)} (hw : world.Serves parseIp decode k exchange)
    (hdone : ∃ p, exchange p ≠ none) : ∃ p, world.request k p ≠ .notReady := by
  classical
  refine ⟨Nat.find hdone, fun h => Nat.find_spec hdone ?_⟩
  have hreq : Resolver.request parseIp decode exchange (Nat.find hdone) = some .notReady := by
    rw [hw _ fun j hj => not_not.mp (Nat.find_min hdone hj), h]
  exact request_eq_notReady.mp hreq

section OfExchanges

variable {parseIp : String → Option IpAddr} {decode : List UInt8 → Except String NamerdResponse}
  {interval : Nat → Tick} {exchanges : Nat → Nat → Option (Except String Response)}

theorem ofExchanges_polls (hticks : ∀ m, ∃ j, interval (m + j) = .ready)
    (hdone : ∀ k, ∃ p, exchanges k p ≠ none) {m : Nat}
    (hok : ∀ k < m, ¬HandledFirstAnswer parseIp decode (exchanges k) none) :
    ∃ rs a, Polls (World.ofExchanges parseIp decode interval exchanges) resolve rs a ∧
      (items rs).length = m ∧ ∀ k (hk : k < (items rs).length),
        HandledFirstAnswer parseIp decode (exchanges k) (some (items rs)[k]) := by
  have hw : ∀ k < m, (World.ofExchanges parseIp decode interval exchanges).Serves parseIp decode k
      (exchanges k) := fun k hk => World.ofExchanges_serves (hok k hk)
  obtain ⟨rs, a, h, hlen⟩ :=
    (Delivered.init (World.ofExchanges parseIp decode interval exchanges)).exists_polls hticks m fun k hk =>
    (hw k (by simpa using hk)).answers (hdone k)
  have ho := ((Delivered.init _).polls h).outcomes
  simp only [List.nil_append] at ho
  exact ⟨rs, a, h, hlen, fun k hk => (ho k hk).of_serves (hw k (hlen ▸ hk))⟩

end OfExchanges

/-- End to end, when the request futures are those `request` builds on `exchanges`, every
exchange with namerd eventually completes and the interval keeps firing: for every `n`, the
stream made by `resolve` yields `m ≤ n` snapshots, the `k`-th being what `handle_response` made
of the first answer of the `k`-th exchange, and if `m < n` then `handle_response` panics on the
first answer of the `m`-th, the next request the stream makes. No answer is lost, repeated or
reordered, and the stream stops only at a panic. -/
theorem namerd_answers_reach_stream_in_order (parseIp : String → Option IpAddr)
    (decode : List UInt8 → Except String NamerdResponse) (interval : Nat → Tick)
    (exchanges : Nat → Nat → Option (Except String Response))
    (hticks : ∀ m, ∃ j, interval (m + j) = .ready) (hdone : ∀ k, ∃ p, exchanges k p ≠ none)
    (n : Nat) :
    ∃ m ≤ n, ∃ rs a, Polls (World.ofExchanges parseIp decode interval exchanges) resolve rs a ∧
      (items rs).length = m ∧
      (∀ k (hk : k < (items rs).length),
        HandledFirstAnswer parseIp decode (exchanges k) (some (items rs)[k])) ∧
      (m < n → HandledFirstAnswer parseIp decode (exchanges m) none) := by
  classical
  by_cases hpanic : ∃ k, k < n ∧ HandledFirstAnswer parseIp decode (exchanges k) none
  · have hm := Nat.find_spec hpanic
    obtain ⟨rs, a, h, hlen, hitems⟩ := ofExchanges_polls hticks hdone fun k hk hk' =>
      Nat.find_min hpanic hk ⟨hk.trans hm.1, hk'⟩
    exact ⟨_, hm.1.le, rs, a, h, hlen, hitems, fun _ => hm.2⟩
  · obtain ⟨rs, a, h, hlen, hitems⟩ := ofExchanges_polls hticks hdone fun k hk hk' =>
      hpanic ⟨k, hk, hk'⟩
    exact ⟨n, le_rfl, rs, a, h, hlen, hitems, fun hlt => absurd hlt (lt_irrefl n)⟩

theorem namerd_answers_reach_stream_until_bad_ip :
    let decode : List UInt8 → Except String NamerdResponse := fun b =>
      if b = [1] then .ok ⟨"bound", [⟨"10.0.0.1", 80, ⟨none⟩⟩]⟩
      else .ok ⟨"bound", [⟨"localhost", 80, ⟨none⟩⟩]⟩
    let exchanges : Nat → Nat → Option (Except String Response) := fun k n =>
      if k = 0 then some (.ok ⟨500, .ok []⟩)
      else if n = 0 then none else some (.ok ⟨200, .ok [[if k = 1 then 1 else 2]]⟩)
    let interval : Nat → Tick := fun n => if n = 0 then .err "t" else .ready
    (∀ m, ∃ j, interval (m + j) = .ready) ∧ (∀ k, ∃ p, exchanges k p ≠ none) ∧
    ∀ n, ∃ m ≤ n, ∃ rs a, Polls (World.ofExchanges parseIpv4 decode interval exchanges) resolve rs a ∧
      (items rs).length = m ∧
      (∀ k (hk : k < (items rs).length),
        HandledFirstAnswer parseIpv4 decode (exchanges k) (some (items rs)[k])) ∧
      (m < n → HandledFirstAnswer parseIpv4 decode (exchanges m) none) := by
  intro decode exchanges interval
  have hticks : ∀ m, ∃ j, interval (m + j) = .ready := fun m => ⟨1, by simp [interval]⟩
  have hdone : ∀ k, ∃ p, exchanges k p ≠ none := fun k => ⟨1, by by_cases hk : k = 0 <;> simp [exchanges, hk]⟩
  exact ⟨hticks, hdone,
    namerd_answers_reach_stream_in_order parseIpv4 decode interval exchanges hticks hdone⟩

end LinkerdTcp.Resolver
