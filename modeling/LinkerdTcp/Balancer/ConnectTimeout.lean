import LinkerdTcp.Balancer.Connecting

/-! # The connect timeout bounds how long a `Connecting` stays pending

The executor polls a `Connecting` only while it is live, and records where
each poll left it. `Conn.Follows` says that this record agrees with what the
socket future answered: a live or dropped `Connecting` has seen only
`NotReady`, a failed or connected one resolved at its last poll. Every step of
the executor keeps it (`Code.step_follows`), and so every run does. Joined to
the connector, this says that when the socket future is the one
`Connector::connect` builds under a connect timeout, a `Connecting` that was
polled at the poll where the timeout's sleep answers is no longer counted in
`pending_conns`.
-/

namespace LinkerdTcp.Balancer
set_option autoImplicit false
open Connector (Fut)

section Follows

variable {ε α : Type} {w : Nat}

/-- Where a `Connecting` is agrees with what its socket future answered to the polls it had. -/
def Conn.Follows (conn : Conn ε α) : Prop :=
  match conn.phase with
  | .live | .dropped => ∀ j < conn.polls, conn.fut.sock j = none
  | .failed => ∃ n e, conn.polls = n + 1 ∧ conn.fut.sock.Resolves n (.error e)
  | .connected => ∃ n x, conn.polls = n + 1 ∧ conn.fut.sock.Resolves n (.ok x)

theorem Connecting.pollThen_answer {fut : Connecting ε α} {n : Nat} {st st' : State}
    {ans : Option (Except ε α)} (h : fut.pollThen w n st = some (ans, st')) : ans = fut.sock n := by
  unfold Connecting.pollThen at h
  rcases hsock : fut.sock n with _ | (e | x) <;> simp only [hsock] at h
  · cases h
    rfl
  all_goals
    obtain ⟨_, -, h⟩ := Option.map_eq_some'.mp h
    cases h
    rfl

theorem Connecting.poll_answer {fut : Connecting ε α} {n : Nat} {st st' : State}
    {ans : Option (Except ε α)} (h : fut.poll w n st = some (ans, st')) : ans = fut.sock n := by
  cases n with
  | zero =>
    obtain ⟨_, -, h⟩ := Option.bind_eq_some.mp h
    exact Connecting.pollThen_answer h
  | succ n => exact Connecting.pollThen_answer h

theorem Conn.Follows.poll {fut : Connecting ε α} {n : Nat} (h : Conn.Follows ⟨fut, n, .live⟩) :
    Conn.Follows ⟨fut, n + 1, Phase.ofAnswer (fut.sock n)⟩ := by
  simp only [Conn.Follows] at h
  rcases hsock : fut.sock n with _ | (e | x) <;> simp only [Conn.Follows, Phase.ofAnswer]
  · exact Nat.forall_lt_succ_right.mpr ⟨h, hsock⟩
  · exact ⟨n, e, rfl, h, hsock⟩
  · exact ⟨n, x, rfl, h, hsock⟩

theorem Code.step_follows {c c' : Code ε α} {op : Op ε α} (hc : ∀ conn ∈ c.conns, conn.Follows)
    (h : c.step w op = some c') : ∀ conn ∈ c'.conns, conn.Follows := by
  cases op
  case connect sock =>
    cases h
    simp only [List.mem_append, List.mem_singleton]
    rintro conn (hconn | rfl)
    · exact hc conn hconn
    · exact nofun
  case poll i =>
    simp only [Code.step] at h
    split at h
    · rename_i fut n hconn
      obtain ⟨⟨ans, st⟩, hpoll, rfl⟩ := Option.map_eq_some'.mp h
      obtain rfl := Connecting.poll_answer hpoll
      intro conn hmem
      rcases List.mem_or_eq_of_mem_set hmem with hmem | rfl
      · exact hc conn hmem
      · exact (hc _ (List.getElem?_mem hconn)).poll
    · cases h
  case drop i =>
    simp only [Code.step] at h
    split at h
    · rename_i fut n hconn
      cases h
      intro conn hmem
      rcases List.mem_or_eq_of_mem_set hmem with hmem | rfl
      · exact hc conn hmem
      · have hlive := hc _ (List.getElem?_mem hconn)
        exact hlive
    · cases h
  case setWeight weight =>
    obtain ⟨e, -, rfl⟩ := Option.map_eq_some'.mp h
    exact hc
  all_goals
    simp only [Code.step] at h
    split_ifs at h
    obtain ⟨st, -, rfl⟩ := Option.map_eq_some'.mp h
    exact hc

theorem Code.run_follows : ∀ {c c' : Code ε α} {ops : List (Op ε α)},
    (∀ conn ∈ c.conns, conn.Follows) → c.run w ops = some c' → ∀ conn ∈ c'.conns, conn.Follows
  | _, _, [], hc, h => by cases h; exact hc
  | _, _, _ :: _, hc, h => by
    obtain ⟨c₁, h₁, h'⟩ := Option.bind_eq_some.mp h
    exact Code.run_follows (Code.step_follows hc h₁) h'

theorem Code.init_follows (peerAddr : SocketAddr) (weight : ℚ) :
    ∀ conn ∈ (Code.init peerAddr weight : Code ε α).conns, conn.Follows :=
  fun _ h => absurd h (List.not_mem_nil _)

end Follows

/-- With a connect timeout set, over every run of the executor from a new endpoint, a `Connecting`
around the future of `Connector::connect` that was polled at the poll where the timeout's sleep
answers has failed or connected, whatever the TCP connect and the handshake do: it is no longer
in flight, so no longer counted in `pending_conns`. -/
theorem connect_timeout_settles_connecting {ClientConfig ε TimerError Tcp Session : Type}
    (w : Nat) (peerAddr : SocketAddr) (weight : ℚ) (ops : List (Op ε (Connector.Socket Tcp Session)))
    (c : Code ε (Connector.Socket Tcp Session))
    (h : (Code.init peerAddr weight : Code ε _).run w ops = some c)
    (errs : Connector.TimeoutErrors ε TimerError) (cn : Connector ClientConfig) (tcp : Fut ε Tcp)
    (handshake : Connector.Tls ClientConfig → Tcp → Fut ε Session)
    (timer : Nat → Fut TimerError Unit) (t p : Nat) (ht : cn.connectTimeout = some t)
    (hp : timer t p ≠ none) (conn : Conn ε (Connector.Socket Tcp Session)) (hconn : conn ∈ c.conns)
    (hsock : conn.fut.sock = Connector.connect errs cn tcp handshake timer) (hpolled : p < conn.polls) :
    (conn.phase = .failed ∨ conn.phase = .connected) ∧ conn.inFlight = false := by
  have hf := Code.run_follows (Code.init_follows peerAddr weight) h conn hconn
  have hans := Connector.connect_ne_none_of_sleep errs cn tcp handshake timer ht hp
  obtain ⟨fut, polls, phase⟩ := conn
  cases phase
  case failed => exact ⟨.inl rfl, rfl⟩
  case connected => exact ⟨.inr rfl, rfl⟩
  all_goals
    simp only at hsock hpolled
    exact absurd (hsock ▸ hf p hpolled) hans

theorem connect_timeout_settles_connecting_at_first_poll :
    let cn : Connector Unit := Connector.new (some 3) none 0 0 0 0
    let errs : Connector.TimeoutErrors String String := ⟨"timed out", id⟩
    let tcp : Fut String Unit := fun _ => none
    let handshake : Connector.Tls Unit → Unit → Fut String Unit := fun _ _ _ => none
    let timer : Nat → Fut String Unit := fun _ _ => some (.ok ())
    let sock := Connector.connect errs cn tcp handshake timer
    let c : Code String (Connector.Socket Unit Unit) :=
      ⟨{ new ⟨.v4 0, 80⟩ 1 with state.consecutiveFailures := 1 }, [⟨⟨sock⟩, 1, .failed⟩], []⟩
    (Code.init ⟨.v4 0, 80⟩ 1 : Code String _).run 64 [.connect sock, .poll 0] = some c ∧
      cn.connectTimeout = some 3 ∧ timer 3 0 ≠ none ∧ (⟨⟨sock⟩, 1, .failed⟩ : Conn _ _) ∈ c.conns ∧
      (⟨⟨sock⟩, 1, .failed⟩ : Conn String (Connector.Socket Unit Unit)).polls > 0 ∧
      ((⟨⟨sock⟩, 1, .failed⟩ : Conn String (Connector.Socket Unit Unit)).phase = .failed ∨
        (⟨⟨sock⟩, 1, .failed⟩ : Conn String (Connector.Socket Unit Unit)).phase = .connected) ∧
      (⟨⟨sock⟩, 1, .failed⟩ : Conn String (Connector.Socket Unit Unit)).inFlight = false := by
  intro cn errs tcp handshake timer sock c
  exact ⟨rfl, rfl, nofun, List.mem_singleton_self _, Nat.one_pos,
    connect_timeout_settles_connecting 64 ⟨.v4 0, 80⟩ 1 [.connect sock, .poll 0] c rfl errs cn tcp
      handshake timer 3 0 rfl nofun _ (List.mem_singleton_self _) rfl Nat.one_pos⟩

end LinkerdTcp.Balancer
