import LinkerdTcp.Basic

/-! # Connecting an outbound socket

`Connector::connect` builds the future that makes an outbound socket: the TCP
connect, then, when the connector has a TLS configuration, the client
handshake on the new stream, the whole raced against the connect timeout when
one is set. As for the resolver, a future is known by what each of its polls
answers; `and_then`, `map` and `Timer::timeout` are modelled from the futures
and tokio-timer crates, whose code is not among the sources. The timeout wraps
the connect and the handshake together, so it bounds them together
(`connect_resolves_ok`), and once its sleep answers the future has answered
(`connect_ne_none_of_sleep`).
-/

namespace LinkerdTcp.Connector
set_option autoImplicit false

/-- A future by what its polls answer: `f n` answers its `n`-th poll, `none` for `NotReady`. -/
def Fut (ε α : Type) : Type := Nat → Option (Except ε α)

/-- The future resolves at its `p`-th poll, to `r`: it is not polled again. -/
def Fut.Resolves {ε α : Type} (f : Fut ε α) (p : Nat) (r : Except ε α) : Prop :=
  (∀ j < p, f j = none) ∧ f p = some r

def Fut.map {ε α β : Type} (g : α → β) (f : Fut ε α) : Fut ε β := fun n => (f n).map (Except.map g)

/-- `Future::and_then`: `f` is polled until it resolves; on `Ok(t)` the future `g t` is made and
polled in the same call, and from then on only `g t` is polled. -/
def Fut.andThen {ε α β : Type} (g : α → Fut ε β) : Fut ε α → Nat → Option (Except ε β)
  | f, n =>
    match f 0, n with
    | none, 0 => none
    | none, n + 1 => Fut.andThen g (fun j => f (j + 1)) n
    | some (.error e), _ => some (.error e)
    | some (.ok t), n => g t n

/-- What `Timer::timeout` makes of its sleep's answers, through `From<TimeoutError>`:
`TimedOut` when the sleep elapses, `Timer` when it fails. -/
structure TimeoutErrors (ε TimerError : Type) where
  timedOut : ε
  timer : TimerError → ε

/-- `Timer::timeout`, `sleep` being the answers of its sleep: each poll polls the future first
and, if it is not ready, the sleep. -/
def Fut.timeout {ε TimerError α : Type} (errs : TimeoutErrors ε TimerError) (f : Fut ε α)
    (sleep : Fut TimerError Unit) : Fut ε α := fun n =>
  match f n with
  | some r => some r
  | none =>
    match sleep n with
    | none => none
    | some (.ok ()) => some (.error errs.timedOut)
    | some (.error e) => some (.error (errs.timer e))

def TimeoutErrors.ofSleep {ε TimerError : Type} (errs : TimeoutErrors ε TimerError) :
    Option (Except TimerError Unit) → Option ε
  | some (.ok ()) => some errs.timedOut
  | some (.error e) => some (errs.timer e)
  | none => none

structure Tls (ClientConfig : Type) where
  name : String
  config : ClientConfig

inductive Socket (Tcp Session : Type)
  | plain (tcp : Tcp)
  | secureClient (session : Session)

end LinkerdTcp.Connector

namespace LinkerdTcp

structure Connector (ClientConfig : Type) where
  connectTimeout : Option Nat
  tls : Option (Connector.Tls ClientConfig)
  maxWaiters : Nat
  minConnections : Nat
  failLimit : Nat
  failPenalty : Nat

end LinkerdTcp

namespace LinkerdTcp.Connector
set_option autoImplicit false

def new {ClientConfig : Type} (connectTimeout : Option Nat) (tls : Option (Tls ClientConfig))
    (maxWaiters minConnections failLimit failPenalty : Nat) : Connector ClientConfig :=
  ⟨connectTimeout, tls, maxWaiters, minConnections, failLimit, failPenalty⟩

section Connect

variable {ClientConfig ε TimerError Tcp Session : Type} (errs : TimeoutErrors ε TimerError)

def timeout {α : Type} (c : Connector ClientConfig) (fut : Fut ε α)
    (timer : Nat → Fut TimerError Unit) : Fut ε α :=
  match c.connectTimeout with
  | none => fut
  | some t => fut.timeout errs (timer t)

/-- `Connector::connect`: `tcp` is the future of `TcpStream::connect`, `handshake tls stream` that
of `Tls::handshake`. -/
def connect (c : Connector ClientConfig) (tcp : Fut ε Tcp)
    (handshake : Tls ClientConfig → Tcp → Fut ε Session) (timer : Nat → Fut TimerError Unit) :
    Fut ε (Socket Tcp Session) :=
  match c.tls with
  | none => c.timeout errs (tcp.map .plain) timer
  | some tls => c.timeout errs (Fut.map .secureClient (tcp.andThen (handshake tls))) timer

/-- The future `f` that `Connector::connect` builds in each branch and hands to `timeout`. -/
def pipeline (c : Connector ClientConfig) (tcp : Fut ε Tcp)
    (handshake : Tls ClientConfig → Tcp → Fut ε Session) : Fut ε (Socket Tcp Session) :=
  match c.tls with
  | none => tcp.map .plain
  | some tls => Fut.map .secureClient (tcp.andThen (handshake tls))

end Connect

section Resolves

variable {ε α β : Type}

theorem Fut.resolves_zero {f : Fut ε α} {r : Except ε α} : f.Resolves 0 r ↔ f 0 = some r := by
  simp [Fut.Resolves]

theorem Fut.resolves_succ {f : Fut ε α} {p : Nat} {r : Except ε α} :
    f.Resolves (p + 1) r ↔ f 0 = none ∧ Fut.Resolves (fun j => f (j + 1)) p r := by
  simp only [Fut.Resolves, Nat.forall_lt_succ_left]
  tauto

theorem Fut.map_resolves_ok {g : α → β} {f : Fut ε α} {p : Nat} {y : β} :
    (f.map g).Resolves p (.ok y) ↔ ∃ x, f.Resolves p (.ok x) ∧ g x = y := by
  simp only [Fut.Resolves, Fut.map, Option.map_eq_none', Option.map_eq_some']
  constructor
  · rintro ⟨hnone, r, hr, hmap⟩
    cases r <;> simp only [Except.map, Except.ok.injEq, reduceCtorEq] at hmap
    exact ⟨_, ⟨hnone, hr⟩, hmap⟩
  · rintro ⟨x, ⟨hnone, hx⟩, rfl⟩
    exact ⟨hnone, _, hx, rfl⟩

theorem Fut.resolves_iff_of_zero {f : Fut ε α} {p : Nat} {r r' : Except ε α} (h0 : f 0 = some r') :
    f.Resolves p r ↔ p = 0 ∧ r = r' := by
  cases p with
  | zero => simp only [Fut.resolves_zero, h0, Option.some.injEq, true_and, eq_comm]
  | succ p => simp only [Fut.resolves_succ, h0, reduceCtorEq, false_and, Nat.add_one_ne_zero]

theorem Fut.map_resolves_error {g : α → β} {f : Fut ε α} {p : Nat} {e : ε} :
    (f.map g).Resolves p (.error e) ↔ f.Resolves p (.error e) := by
  simp only [Fut.Resolves, Fut.map, Option.map_eq_none', Option.map_eq_some']
  refine and_congr_right fun _ => ⟨fun ⟨r, hr, hm⟩ => ?_, fun h => ⟨_, h, rfl⟩⟩
  cases r <;> simp only [Except.map, Except.error.injEq, reduceCtorEq] at hm
  exact hm ▸ hr

section AndThen

variable {g : α → Fut ε β} {f : Fut ε α}

theorem Fut.andThen_zero_of_none (h0 : f 0 = none) : f.andThen g 0 = none := by
  unfold Fut.andThen
  simp only [h0]

theorem Fut.andThen_succ_of_none (h0 : f 0 = none) (n : Nat) :
    f.andThen g (n + 1) = Fut.andThen g (fun j => f (j + 1)) n := by
  conv_lhs => unfold Fut.andThen
  simp only [h0]

theorem Fut.andThen_of_error {e : ε} (h0 : f 0 = some (.error e)) :
    f.andThen g = fun _ => some (.error e) := by
  funext n
  unfold Fut.andThen
  simp only [h0]

theorem Fut.andThen_of_ok {t : α} (h0 : f 0 = some (.ok t)) : f.andThen g = g t := by
  funext n
  unfold Fut.andThen
  simp only [h0]

theorem Fut.andThen_resolves_of_some {r : Except ε β} {r₀ : Except ε α} {p : Nat}
    (h0 : f 0 = some r₀) : Fut.Resolves (f.andThen g) p r ↔
      (∃ e, r = .error e ∧ f.Resolves p (.error e)) ∨
        ∃ p₁ t, p₁ ≤ p ∧ f.Resolves p₁ (.ok t) ∧ (g t).Resolves (p - p₁) r := by
  rcases r₀ with e | t
  · have ha : f.andThen g 0 = some (.error e) := by rw [Fut.andThen_of_error h0]
    simp only [Fut.resolves_iff_of_zero ha, Fut.resolves_iff_of_zero h0, Except.error.injEq,
      reduceCtorEq, and_false, false_and, exists_false, or_false, exists_eq_right_right]
    exact and_comm
  · simp only [Fut.andThen_of_ok h0, Fut.resolves_iff_of_zero h0, reduceCtorEq, and_false,
      false_and, exists_false, false_or, Except.ok.injEq]
    constructor
    · exact fun h => ⟨0, t, Nat.zero_le _, ⟨rfl, rfl⟩, h⟩
    · rintro ⟨_, _, -, ⟨rfl, rfl⟩, h⟩
      exact h

theorem Fut.andThen_resolves {r : Except ε β} {p : Nat} :
    Fut.Resolves (f.andThen g) p r ↔
      (∃ e, r = .error e ∧ f.Resolves p (.error e)) ∨
        ∃ p₁ t, p₁ ≤ p ∧ f.Resolves p₁ (.ok t) ∧ (g t).Resolves (p - p₁) r := by
  induction p generalizing f with
  | zero =>
    rcases h0 : f 0 with _ | r₀
    · refine iff_of_false (fun h => nomatch (Fut.andThen_zero_of_none h0).symm.trans h.2) ?_
      rintro (⟨e, -, he⟩ | ⟨p₁, t, hp₁, ht, -⟩)
      · exact nomatch h0.symm.trans he.2
      · obtain rfl := Nat.le_zero.mp hp₁
        exact nomatch h0.symm.trans ht.2
    · exact Fut.andThen_resolves_of_some h0
  | succ p ih =>
    rcases h0 : f 0 with _ | r₀
    · rw [Fut.resolves_succ, Fut.andThen_zero_of_none h0]
      simp only [Fut.andThen_succ_of_none h0, true_and]
      rw [ih]
      refine or_congr (by simp only [Fut.resolves_succ, h0, true_and]) ⟨?_, ?_⟩
      · rintro ⟨p₁, t, hp₁, hf, hg⟩
        exact ⟨p₁ + 1, t, by omega, Fut.resolves_succ.mpr ⟨h0, hf⟩, by rwa [Nat.add_sub_add_right]⟩
      · rintro ⟨_ | p₁, t, hp₁, hf, hg⟩
        · simp [Fut.resolves_zero, h0] at hf
        · exact ⟨p₁, t, by omega, (Fut.resolves_succ.mp hf).2, by rwa [Nat.add_sub_add_right] at hg⟩
    · exact Fut.andThen_resolves_of_some h0

end AndThen

theorem Fut.andThen_resolves_ok {g : α → Fut ε β} {b : β} {p : Nat} {f : Fut ε α} :
    Fut.Resolves (f.andThen g) p (.ok b) ↔
      ∃ p₁ t, p₁ ≤ p ∧ f.Resolves p₁ (.ok t) ∧ (g t).Resolves (p - p₁) (.ok b) := by
  simp only [Fut.andThen_resolves, reduceCtorEq, false_and, exists_false, false_or]

end Resolves

section Timeout

variable {ε TimerError α : Type} {errs : TimeoutErrors ε TimerError} {f : Fut ε α}
  {sleep : Fut TimerError Unit} {n : Nat}

theorem Fut.timeout_eq_none : f.timeout errs sleep n = none ↔ f n = none ∧ sleep n = none := by
  unfold Fut.timeout
  split
  · simp_all
  · split <;> simp_all

theorem Fut.timeout_eq_ok {x : α} : f.timeout errs sleep n = some (.ok x) ↔ f n = some (.ok x) := by
  unfold Fut.timeout
  split
  · simp_all
  · split <;> simp_all

theorem Fut.timeout_resolves_ok {p : Nat} {x : α} :
    (f.timeout errs sleep).Resolves p (.ok x) ↔ f.Resolves p (.ok x) ∧ ∀ j < p, sleep j = none := by
  simp only [Fut.Resolves, Fut.timeout_eq_none, Fut.timeout_eq_ok, imp_and, forall_and]
  tauto

theorem Fut.timeout_eq_error {e : ε} : f.timeout errs sleep n = some (.error e) ↔
    f n = some (.error e) ∨ f n = none ∧ errs.ofSleep (sleep n) = some e := by
  unfold Fut.timeout TimeoutErrors.ofSleep
  split
  · simp_all
  · split <;> simp_all

theorem Fut.timeout_resolves_error {p : Nat} {e : ε} :
    (f.timeout errs sleep).Resolves p (.error e) ↔ (∀ j < p, sleep j = none) ∧
      (f.Resolves p (.error e) ∨ (∀ j ≤ p, f j = none) ∧ errs.ofSleep (sleep p) = some e) := by
  simp only [Fut.Resolves, Fut.timeout_eq_none, Fut.timeout_eq_error, ← Nat.lt_succ_iff,
    Nat.forall_lt_succ_right, imp_and, forall_and]
  tauto

end Timeout

section Connect

variable {ClientConfig ε TimerError Tcp Session : Type} (errs : TimeoutErrors ε TimerError)

theorem timeout_resolves_ok {α : Type} (c : Connector ClientConfig) (fut : Fut ε α)
    (timer : Nat → Fut TimerError Unit) {p : Nat} {x : α} :
    (c.timeout errs fut timer).Resolves p (.ok x) ↔
      fut.Resolves p (.ok x) ∧ ∀ t, c.connectTimeout = some t → ∀ j < p, timer t j = none := by
  unfold timeout
  split <;> simp [Fut.timeout_resolves_ok, *]

theorem timeout_resolves_error {α : Type} (c : Connector ClientConfig) (fut : Fut ε α)
    (timer : Nat → Fut TimerError Unit) {p : Nat} {e : ε} :
    (c.timeout errs fut timer).Resolves p (.error e) ↔
      (∀ t, c.connectTimeout = some t → ∀ j < p, timer t j = none) ∧
        (fut.Resolves p (.error e) ∨ (∀ j ≤ p, fut j = none) ∧
          ∃ t, c.connectTimeout = some t ∧ errs.ofSleep (timer t p) = some e) := by
  unfold timeout
  split <;> simp [Fut.timeout_resolves_error, *]

theorem connect_eq_timeout_pipeline (c : Connector ClientConfig) (tcp : Fut ε Tcp)
    (handshake : Tls ClientConfig → Tcp → Fut ε Session) (timer : Nat → Fut TimerError Unit) :
    c.connect errs tcp handshake timer = c.timeout errs (pipeline c tcp handshake) timer := by
  unfold connect pipeline
  split <;> rfl

/-- The socket pipeline of `c`, its timeout apart, has made `sock` at poll `p`: the TCP connect
succeeded and, with TLS, the handshake on its stream then succeeded. -/
def Established (c : Connector ClientConfig) (tcp : Fut ε Tcp)
    (handshake : Tls ClientConfig → Tcp → Fut ε Session) (p : Nat) (sock : Socket Tcp Session) :
    Prop :=
  match c.tls with
  | none => ∃ stream, tcp.Resolves p (.ok stream) ∧ sock = .plain stream
  | some tls => ∃ p₁ stream session, p₁ ≤ p ∧ tcp.Resolves p₁ (.ok stream) ∧
      (handshake tls stream).Resolves (p - p₁) (.ok session) ∧ sock = .secureClient session

/-- The socket pipeline of `c`, its timeout apart, has failed with `e` at poll `p`: the TCP connect
failed, or, with TLS, it succeeded and the handshake on its stream then failed. -/
def Failed (c : Connector ClientConfig) (tcp : Fut ε Tcp)
    (handshake : Tls ClientConfig → Tcp → Fut ε Session) (p : Nat) (e : ε) : Prop :=
  match c.tls with
  | none => tcp.Resolves p (.error e)
  | some tls => tcp.Resolves p (.error e) ∨ ∃ p₁ stream, p₁ ≤ p ∧ tcp.Resolves p₁ (.ok stream) ∧
      (handshake tls stream).Resolves (p - p₁) (.error e)

theorem pipeline_resolves_error (c : Connector ClientConfig) (tcp : Fut ε Tcp)
    (handshake : Tls ClientConfig → Tcp → Fut ε Session) {p : Nat} {e : ε} :
    (pipeline c tcp handshake).Resolves p (.error e) ↔ Failed c tcp handshake p e := by
  unfold pipeline Failed
  split <;> simp only [Fut.map_resolves_error, Fut.andThen_resolves, Except.error.injEq,
    exists_eq_left']

/-- The future of `Connector::connect` yields a socket at poll `p` exactly when the TCP connect
and, with TLS, the handshake after it have succeeded by then, and the sleep of the connect
timeout, if one is set, had not answered at any earlier poll: the timeout bounds the connect and
the handshake together. -/
theorem connect_resolves_ok (c : Connector ClientConfig) (tcp : Fut ε Tcp)
    (handshake : Tls ClientConfig → Tcp → Fut ε Session) (timer : Nat → Fut TimerError Unit)
    (p : Nat) (sock : Socket Tcp Session) :
    (c.connect errs tcp handshake timer).Resolves p (.ok sock) ↔
      Established c tcp handshake p sock ∧
        ∀ t, c.connectTimeout = some t → ∀ j < p, timer t j = none := by
  unfold connect Established
  split <;> simp only [timeout_resolves_ok, Fut.map_resolves_ok, Fut.andThen_resolves_ok]
  · simp only [eq_comm (a := sock)]
  · constructor
    · rintro ⟨⟨session, ⟨p₁, stream, hp₁, htcp, hhs⟩, rfl⟩, ht⟩
      exact ⟨⟨p₁, stream, session, hp₁, htcp, hhs, rfl⟩, ht⟩
    · rintro ⟨⟨p₁, stream, session, hp₁, htcp, hhs, rfl⟩, ht⟩
      exact ⟨⟨session, ⟨p₁, stream, hp₁, htcp, hhs⟩, rfl⟩, ht⟩

theorem connect_ne_none_of_sleep (c : Connector ClientConfig) (tcp : Fut ε Tcp)
    (handshake : Tls ClientConfig → Tcp → Fut ε Session) (timer : Nat → Fut TimerError Unit)
    {t p : Nat} (ht : c.connectTimeout = some t) (hp : timer t p ≠ none) :
    c.connect errs tcp handshake timer p ≠ none := by
  rw [connect_eq_timeout_pipeline, timeout, ht]
  exact fun h => hp (Fut.timeout_eq_none.mp h).2

/-- The future of `Connector::connect` fails at poll `p` with `e` exactly when the sleep of the
connect timeout, if one is set, had not answered at any earlier poll, and either the TCP connect
or, with TLS, the handshake after it failed with `e` by then, or both were still unfinished at
`p` and the timeout's sleep answered there: `e` is then `TimedOut` if it elapsed and the timer's
error if it failed. The timeout's errors come from nowhere else. -/
theorem connect_fails_iff (c : Connector ClientConfig) (tcp : Fut ε Tcp)
    (handshake : Tls ClientConfig → Tcp → Fut ε Session) (timer : Nat → Fut TimerError Unit)
    (p : Nat) (e : ε) :
    (c.connect errs tcp handshake timer).Resolves p (.error e) ↔
      (∀ t, c.connectTimeout = some t → ∀ j < p, timer t j = none) ∧
        (Failed c tcp handshake p e ∨ (∀ j ≤ p, pipeline c tcp handshake j = none) ∧
          ∃ t, c.connectTimeout = some t ∧ errs.ofSleep (timer t p) = some e) := by
  rw [connect_eq_timeout_pipeline, timeout_resolves_error, pipeline_resolves_error]

end Connect

end LinkerdTcp.Connector
