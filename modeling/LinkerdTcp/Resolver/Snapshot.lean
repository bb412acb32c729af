import LinkerdTcp.Balancer.Endpoint

/-! # Resolver snapshots and weight normalisation

`resolver/namerd.rs`: the addresses of a bound namerd response become
`WeightedAddr`s whose weights are divided by their sum. The weights are
`f32` in the source; here a finite weight is an exact rational, and a
division by a zero sum gives the infinity or the `NaN` that IEEE 754 gives.
Parsing an ip string is `str::parse::<IpAddr>`, a parameter `parseIp` of the
model; `unwrap` on its failure is a panic, `none`.
-/

namespace LinkerdTcp.Resolver
set_option autoImplicit false

inductive Error
  | hyper (msg : String)
  | unexpectedStatus (code : Nat)
  | serde (msg : String)
  | notBound
  | timer (msg : String)
  deriving DecidableEq, Repr

/-- An `f32` weight: a finite value, kept exact, or an infinity or `NaN`. -/
inductive Weight
  | finite (q : ℚ)
  | inf (negative : Bool)
  | nan
  deriving DecidableEq, Repr

/-- `/` on `f32` by a finite `sum`, exact where the quotient is finite. A sum that is zero is
`+0.0` (the loop starts from `0.0`, and `x + -x` rounds to `+0.0`), so a nonzero weight goes to
the infinity of its sign and a zero weight to `NaN`. -/
def Weight.div (x : Weight) (sum : ℚ) : Weight :=
  match x with
  | .finite q => if sum = 0 then (if q = 0 then .nan else .inf (decide (q < 0))) else .finite (q / sum)
  | .inf negative => .inf (negative != decide (sum < 0))
  | .nan => .nan

theorem Weight.finite_div_of_ne {q sum : ℚ} (h : sum ≠ 0) :
    (Weight.finite q).div sum = .finite (q / sum) := by
  simp [Weight.div, h]

theorem Weight.finite_div_zero (q : ℚ) :
    (Weight.finite q).div 0 = .nan ∨ ∃ negative, (Weight.finite q).div 0 = .inf negative := by
  by_cases hq : q = 0 <;> simp [Weight.div, hq]

structure WeightedAddr where
  addr : SocketAddr
  weight : Weight
  deriving DecidableEq, Repr

def WeightedAddr.new (addr : SocketAddr) (weight : ℚ) : WeightedAddr := ⟨addr, .finite weight⟩

structure Meta where
  endpointAddrWeight : Option ℚ
  deriving DecidableEq, Repr

structure NamerdAddr where
  ip : String
  port : UInt16
  «meta» : Meta
  deriving DecidableEq, Repr

structure NamerdResponse where
  kind : String
  addrs : List NamerdAddr
  deriving DecidableEq, Repr

def NamerdAddr.weight (na : NamerdAddr) : ℚ := na.meta.endpointAddrWeight.getD 1

/-- The `sum` of the weights that `to_weighted_addrs` divides by. -/
def totalWeight (namerdAddrs : List NamerdAddr) : ℚ := (namerdAddrs.map NamerdAddr.weight).sum

theorem sum_div_totalWeight {namerdAddrs : List NamerdAddr} (hne : totalWeight namerdAddrs ≠ 0) :
    (namerdAddrs.map fun na => na.weight / totalWeight namerdAddrs).sum = 1 := by
  simp only [div_eq_mul_inv]
  rw [List.sum_map_mul_right]
  exact mul_inv_cancel₀ hne

theorem div_totalWeight_mem_unit {namerdAddrs : List NamerdAddr}
    (hnonneg : ∀ na ∈ namerdAddrs, 0 ≤ na.weight) (hne : totalWeight namerdAddrs ≠ 0)
    {na : NamerdAddr} (hna : na ∈ namerdAddrs) :
    0 ≤ na.weight / totalWeight namerdAddrs ∧ na.weight / totalWeight namerdAddrs ≤ 1 := by
  have hweights : ∀ q ∈ namerdAddrs.map NamerdAddr.weight, 0 ≤ q := by simpa using hnonneg
  have hpos : 0 < totalWeight namerdAddrs := (List.sum_nonneg hweights).lt_of_ne (Ne.symm hne)
  have hle : na.weight ≤ totalWeight namerdAddrs :=
    List.single_le_sum hweights _ (List.mem_map_of_mem _ hna)
  exact ⟨div_nonneg (hnonneg na hna) hpos.le, (div_le_one hpos).mpr hle⟩

def splitDots : List Char → List (List Char)
  | [] => [[]]
  | c :: cs =>
    match c, splitDots cs with
    | '.', parts => [] :: parts
    | c, part :: parts => (c :: part) :: parts
    | c, [] => [[c]]

/-- One decimal octet of a dotted quad as `Ipv4Addr::from_str` reads it: one to three digits,
no leading zero unless the octet is `0`, at most 255. -/
def octet (digits : List Char) : Option Nat :=
  if 0 < digits.length ∧ digits.length ≤ 3 ∧ digits.all Char.isDigit ∧
      ¬(1 < digits.length ∧ digits.head? = some '0') then
    let n := digits.foldl (fun n c => 10 * n + (c.toNat - '0'.toNat)) 0
    if n < 256 then some n else none
  else none

/-- `str::parse::<IpAddr>` on the dotted quads of `Ipv4Addr::from_str`: four octets, leading
zeros refused. It reads no IPv6 address, so it refuses what the source would parse as one; the
general results take any parser `parseIp`, and only the concrete inputs below use this one. -/
def parseIpv4 (s : String) : Option IpAddr :=
  match (splitDots s.toList).mapM octet with
  | some [a, b, c, d] => some (.v4 (((a * 256 + b) * 256 + c) * 256 + d).toUInt32)
  | _ => none

example : parseIpv4 "10.0.0.1" = some (.v4 167772161) ∧ parseIpv4 "0.0.0.0" = some (.v4 0) ∧
    parseIpv4 "010.0.0.1" = none ∧ parseIpv4 "256.0.0.1" = none ∧ parseIpv4 "" = none ∧
    parseIpv4 "localhost" = none := by decide

section Normalize

variable (parseIp : String → Option IpAddr)

/-- The first loop of `to_weighted_addrs`: push one `WeightedAddr` per address and add its
weight to `sum`. -/
def collectAddrs : List NamerdAddr → List WeightedAddr → ℚ → Option (List WeightedAddr × ℚ)
  | [], dsts, sum => some (dsts, sum)
  | na :: rest, dsts, sum => do
    let ip ← parseIp na.ip
    collectAddrs rest (dsts ++ [WeightedAddr.new ⟨ip, na.port⟩ na.weight]) (sum + na.weight)

/-- `to_weighted_addrs`: the second loop divides every weight by the sum. -/
def toWeightedAddrs (namerdAddrs : List NamerdAddr) : Option (List WeightedAddr) := do
  let (dsts, sum) ← collectAddrs parseIp namerdAddrs [] 0
  pure (dsts.map fun dst => { dst with weight := dst.weight.div sum })

def Collected (na : NamerdAddr) (dst : WeightedAddr) : Prop :=
  parseIp na.ip = some dst.addr.ip ∧ dst.addr.port = na.port ∧ dst.weight = .finite na.weight

theorem collectAddrs_eq_some (namerdAddrs : List NamerdAddr)
    (hip : ∀ na ∈ namerdAddrs, (parseIp na.ip).isSome) (acc : List WeightedAddr) (sum : ℚ) :
    ∃ dsts, collectAddrs parseIp namerdAddrs acc sum =
        some (acc ++ dsts, sum + (namerdAddrs.map NamerdAddr.weight).sum) ∧
      List.Forall₂ (Collected parseIp) namerdAddrs dsts := by
  induction namerdAddrs generalizing acc sum with
  | nil => exact ⟨[], by simp [collectAddrs], .nil⟩
  | cons na rest ih =>
    obtain ⟨ip, hip₁⟩ := Option.isSome_iff_exists.mp (hip na (List.mem_cons_self _ _))
    obtain ⟨dsts, hdsts, hrel⟩ := ih (fun na' h => hip na' (List.mem_cons_of_mem _ h))
      (acc ++ [WeightedAddr.new ⟨ip, na.port⟩ na.weight]) (sum + na.weight)
    refine ⟨WeightedAddr.new ⟨ip, na.port⟩ na.weight :: dsts, ?_, .cons ⟨hip₁, rfl, rfl⟩ hrel⟩
    simp [collectAddrs, hip₁, hdsts, add_assoc]

theorem collectAddrs_eq_none (namerdAddrs : List NamerdAddr) (acc : List WeightedAddr) (sum : ℚ)
    (hbad : ∃ na ∈ namerdAddrs, parseIp na.ip = none) :
    collectAddrs parseIp namerdAddrs acc sum = none := by
  induction namerdAddrs generalizing acc sum with
  | nil => simp at hbad
  | cons na rest ih =>
    obtain ⟨na', hmem, hnone⟩ := hbad
    cases hna : parseIp na.ip with
    | none => simp [collectAddrs, hna]
    | some ip =>
      rcases List.mem_cons.mp hmem with rfl | hmem
      · simp [hna] at hnone
      · simp [collectAddrs, hna, ih _ _ ⟨na', hmem, hnone⟩]

theorem toWeightedAddrs_eq_none_iff (namerdAddrs : List NamerdAddr) :
    toWeightedAddrs parseIp namerdAddrs = none ↔ ∃ na ∈ namerdAddrs, parseIp na.ip = none := by
  refine ⟨fun h => ?_, fun hbad => by
    simp [toWeightedAddrs, collectAddrs_eq_none parseIp namerdAddrs [] 0 hbad]⟩
  by_contra! hall
  obtain ⟨dsts, hcollect, -⟩ := collectAddrs_eq_some parseIp namerdAddrs
    (fun na hna => Option.isSome_iff_ne_none.mpr (hall na hna)) [] 0
  simp [toWeightedAddrs, hcollect] at h

theorem Collected.weights {namerdAddrs : List NamerdAddr} {dsts : List WeightedAddr}
    (h : List.Forall₂ (Collected parseIp) namerdAddrs dsts) :
    dsts.map WeightedAddr.weight = namerdAddrs.map fun na => .finite na.weight := by
  induction h with
  | nil => rfl
  | cons hd _ ih => simp [hd.2.2, ih]

theorem toWeightedAddrs_of_collect {namerdAddrs : List NamerdAddr} {dsts : List WeightedAddr}
    (hcollect : collectAddrs parseIp namerdAddrs [] 0 = some (dsts, totalWeight namerdAddrs))
    (hrel : List.Forall₂ (Collected parseIp) namerdAddrs dsts) :
    ∃ dsts', toWeightedAddrs parseIp namerdAddrs = some dsts' ∧
      List.Forall₂ (fun na dst => parseIp na.ip = some dst.addr.ip ∧ dst.addr.port = na.port ∧
        dst.weight = (Weight.finite na.weight).div (totalWeight namerdAddrs)) namerdAddrs dsts' ∧
      dsts'.map WeightedAddr.weight =
        namerdAddrs.map fun na => (Weight.finite na.weight).div (totalWeight namerdAddrs) := by
  refine ⟨dsts.map fun dst => { dst with weight := dst.weight.div (totalWeight namerdAddrs) },
    by simp [toWeightedAddrs, hcollect], ?_, ?_⟩
  · rw [List.forall₂_map_right_iff]
    exact hrel.imp fun na dst ⟨hparse, hport, hw⟩ => ⟨hparse, hport, by rw [hw]⟩
  · rw [List.map_map, Function.comp_def]
    simpa [List.map_map, Function.comp_def] using
      congrArg (List.map fun x => Weight.div x (totalWeight namerdAddrs)) (Collected.weights parseIp hrel)

theorem toWeightedAddrs_eq_some {namerdAddrs : List NamerdAddr} {dsts : List WeightedAddr}
    (h : toWeightedAddrs parseIp namerdAddrs = some dsts) :
    List.Forall₂ (fun na dst => parseIp na.ip = some dst.addr.ip ∧ dst.addr.port = na.port ∧
      dst.weight = (Weight.finite na.weight).div (totalWeight namerdAddrs)) namerdAddrs dsts := by
  have hip : ∀ na ∈ namerdAddrs, (parseIp na.ip).isSome := fun na hna =>
    Option.isSome_iff_ne_none.mpr fun hnone => by
      simp [(toWeightedAddrs_eq_none_iff parseIp namerdAddrs).mpr ⟨na, hna, hnone⟩] at h
  obtain ⟨dsts', hcollect, hrel⟩ := collectAddrs_eq_some parseIp namerdAddrs hip [] 0
  obtain ⟨dsts'', hto, hrel', -⟩ :=
    toWeightedAddrs_of_collect parseIp (by simpa [totalWeight] using hcollect) hrel
  rw [h, Option.some.injEq] at hto
  exact hto ▸ hrel'

end Normalize

end LinkerdTcp.Resolver
