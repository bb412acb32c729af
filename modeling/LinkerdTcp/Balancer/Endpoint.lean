import LinkerdTcp.Basic

/-! # Endpoint state

`balancer/endpoint.rs`: the counters one endpoint shares, through an
`Rc<RefCell<State>>`, with its connect futures and connection contexts, and
the bodies of the closures that update them. Each update is a function on
`State` that returns `none` where a `usize` operation would panic.
-/

namespace LinkerdTcp.Balancer
set_option autoImplicit false

structure State where
  pendingConns : Nat
  openConns : Nat
  consecutiveFailures : Nat
  rxBytes : Nat
  txBytes : Nat
  deriving DecidableEq, Repr

def State.default : State := ⟨0, 0, 0, 0, 0⟩

def State.load (w : Nat) (s : State) : Option Nat := usizeAdd w s.openConns s.pendingConns

def State.isIdle (s : State) : Bool := s.openConns == 0

/-- The lazy block of `Endpoint::connect`, run at the future's first poll. -/
def connecting (w : Nat) (s : State) : Option State := do
  let pendingConns ← usizeAdd w s.pendingConns 1
  pure { s with pendingConns }

/-- The `Err` arm of the `then` in `Endpoint::connect`. -/
def connectFailed (w : Nat) (s : State) : Option State := do
  let consecutiveFailures ← usizeAdd w s.consecutiveFailures 1
  let pendingConns ← usizeSub s.pendingConns 1
  pure { s with consecutiveFailures, pendingConns }

/-- The `Ok` arm of the `then` in `Endpoint::connect`, before it builds the `Ctx`. -/
def connected (w : Nat) (s : State) : Option State := do
  let pendingConns ← usizeSub s.pendingConns 1
  let openConns ← usizeAdd w s.openConns 1
  pure { s with consecutiveFailures := 0, pendingConns, openConns }

def Ctx.read (w sz : Nat) (s : State) : Option State := do
  let rxBytes ← usizeAdd w s.rxBytes sz
  pure { s with rxBytes }

def Ctx.wrote (w sz : Nat) (s : State) : Option State := do
  let txBytes ← usizeAdd w s.txBytes sz
  pure { s with txBytes }

def Ctx.drop (s : State) : Option State := do
  let openConns ← usizeSub s.openConns 1
  pure { s with openConns }

structure Endpoint where
  peerAddr : SocketAddr
  weight : ℚ
  state : State

def new (peerAddr : SocketAddr) (weight : ℚ) : Endpoint := ⟨peerAddr, weight, State.default⟩

def Endpoint.load (w : Nat) (e : Endpoint) : Option Nat := e.state.load w

def Endpoint.isIdle (e : Endpoint) : Bool := e.state.isIdle

/-- `Endpoint::set_weight`; `none` is the failed `assert!`. -/
def Endpoint.setWeight (e : Endpoint) (weight : ℚ) : Option Endpoint :=
  if 0 ≤ weight ∧ weight ≤ 1 then some { e with weight } else none

section Spec

variable {w sz : Nat} {s s' : State}

theorem connecting_eq_some :
    connecting w s = some s' ↔ s.pendingConns + 1 < 2 ^ w ∧
      { s with pendingConns := s.pendingConns + 1 } = s' := by
  simp [connecting, usizeAdd_bind_eq_some]

theorem connectFailed_eq_some :
    connectFailed w s = some s' ↔ s.consecutiveFailures + 1 < 2 ^ w ∧ 1 ≤ s.pendingConns ∧
      { s with consecutiveFailures := s.consecutiveFailures + 1,
               pendingConns := s.pendingConns - 1 } = s' := by
  simp [connectFailed, usizeAdd_bind_eq_some, usizeSub_bind_eq_some]

theorem connected_eq_some :
    connected w s = some s' ↔ 1 ≤ s.pendingConns ∧ s.openConns + 1 < 2 ^ w ∧
      { s with consecutiveFailures := 0, pendingConns := s.pendingConns - 1,
               openConns := s.openConns + 1 } = s' := by
  simp [connected, usizeAdd_bind_eq_some, usizeSub_bind_eq_some]

theorem Ctx.read_eq_some :
    Ctx.read w sz s = some s' ↔ s.rxBytes + sz < 2 ^ w ∧ { s with rxBytes := s.rxBytes + sz } = s' := by
  simp [Ctx.read, usizeAdd_bind_eq_some]

theorem Ctx.wrote_eq_some :
    Ctx.wrote w sz s = some s' ↔ s.txBytes + sz < 2 ^ w ∧ { s with txBytes := s.txBytes + sz } = s' := by
  simp [Ctx.wrote, usizeAdd_bind_eq_some]

@[simp] theorem Ctx.read_eq_none : Ctx.read w sz s = none ↔ 2 ^ w ≤ s.rxBytes + sz := by
  simp [Ctx.read]

@[simp] theorem Ctx.wrote_eq_none : Ctx.wrote w sz s = none ↔ 2 ^ w ≤ s.txBytes + sz := by
  simp [Ctx.wrote]

theorem Ctx.drop_eq_some :
    Ctx.drop s = some s' ↔ 1 ≤ s.openConns ∧ { s with openConns := s.openConns - 1 } = s' := by
  simp [Ctx.drop, usizeSub_bind_eq_some]

@[simp] theorem connecting_eq_none : connecting w s = none ↔ 2 ^ w ≤ s.pendingConns + 1 := by
  simp [connecting]

@[simp] theorem connectFailed_eq_none :
    connectFailed w s = none ↔ 2 ^ w ≤ s.consecutiveFailures + 1 ∨ s.pendingConns = 0 := by
  simp [connectFailed, usizeSub]
  omega

@[simp] theorem connected_eq_none :
    connected w s = none ↔ s.pendingConns = 0 ∨ 2 ^ w ≤ s.openConns + 1 := by
  simp [connected, usizeSub]
  omega

@[simp] theorem Ctx.drop_eq_none : Ctx.drop s = none ↔ s.openConns = 0 := by
  simp [Ctx.drop, usizeSub]

end Spec

theorem Endpoint.setWeight_eq_some {e e' : Endpoint} {weight : ℚ} :
    e.setWeight weight = some e' ↔ (0 ≤ weight ∧ weight ≤ 1) ∧ { e with weight } = e' := by
  unfold Endpoint.setWeight
  split <;> simp_all

end LinkerdTcp.Balancer
