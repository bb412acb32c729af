import Mathlib

/-! # Machine words and socket addresses

A `usize` of the target is `w` bits wide. Its arithmetic is checked, as in a
build with overflow checks: `usizeAdd` and `usizeSub` return `none` where
`+=` or `-=` would panic. Socket addresses are the values `std::net` gives the
resolver and the balancer; only equality of them is ever used.
-/

namespace LinkerdTcp
set_option autoImplicit false

/-- `a + b` on a `w`-bit `usize`; `none` is the overflow panic. -/
def usizeAdd (w a b : Nat) : Option Nat :=
  if a + b < 2 ^ w then some (a + b) else none

/-- `a - b` on a `usize`; `none` is the underflow panic. -/
def usizeSub (a b : Nat) : Option Nat :=
  if b ≤ a then some (a - b) else none

@[simp] theorem usizeAdd_eq_some {w a b c : Nat} :
    usizeAdd w a b = some c ↔ a + b < 2 ^ w ∧ a + b = c := by
  unfold usizeAdd
  split <;> simp_all

@[simp] theorem usizeAdd_eq_none {w a b : Nat} : usizeAdd w a b = none ↔ 2 ^ w ≤ a + b := by
  unfold usizeAdd
  split <;> simp_all

theorem usizeAdd_bind_eq_some {α : Type} {w a b : Nat} {f : Nat → Option α} {x : α} :
    (usizeAdd w a b).bind f = some x ↔ a + b < 2 ^ w ∧ f (a + b) = some x := by
  unfold usizeAdd
  split <;> simp_all

theorem usizeSub_bind_eq_some {α : Type} {a b : Nat} {f : Nat → Option α} {x : α} :
    (usizeSub a b).bind f = some x ↔ b ≤ a ∧ f (a - b) = some x := by
  unfold usizeSub
  split <;> simp_all

inductive IpAddr
  | v4 (octets : UInt32)
  | v6 (segments : BitVec 128)
  deriving DecidableEq, Repr

structure SocketAddr where
  ip : IpAddr
  port : UInt16
  deriving DecidableEq, Repr

end LinkerdTcp
