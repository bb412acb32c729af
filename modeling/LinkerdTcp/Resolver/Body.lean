import LinkerdTcp.Resolver.Snapshot

/-! # Reading a namerd response

`resolver/namerd.rs`: `handle_response` takes the HTTP result, `parse_body`
collects the body's chunks, `to_buf` copies them into one buffer sized by
`bytes_in`, and `parse_chunks` decodes it. The chunks of one body are in
memory together, so their total length fits a `usize` and `bytes_in` is a
plain sum. The JSON decoder is a parameter `decode`.
-/

namespace LinkerdTcp.Resolver
set_option autoImplicit false

def bytesIn (chunks : List (List UInt8)) : Nat :=
  chunks.foldl (fun sz c => sz + c.length) 0

/-- `BytesMut`: the bytes written so far, within the capacity it was made with. -/
structure BytesMut where
  bytes : List UInt8
  capacity : Nat
  fits : bytes.length ≤ capacity

def BytesMut.withCapacity (n : Nat) : BytesMut := ⟨[], n, Nat.zero_le n⟩

/-- `BufMut::put_slice`, which asserts that `src` fits the remaining capacity. -/
def BytesMut.putSlice (buf : BytesMut) (src : List UInt8) : Option BytesMut :=
  if h : buf.bytes.length + src.length ≤ buf.capacity then
    some ⟨buf.bytes ++ src, buf.capacity, by simpa using h⟩
  else none

/-- `to_buf`: one `put_slice` per chunk into a buffer of capacity `bytes_in chunks`. -/
def toBuf (chunks : List (List UInt8)) : Option (List UInt8) :=
  (chunks.foldlM BytesMut.putSlice (BytesMut.withCapacity (bytesIn chunks))).map BytesMut.bytes

section Parse

variable (parseIp : String → Option IpAddr) (decode : List UInt8 → Except String NamerdResponse)

/-- `parse_chunks`; `none` is a panic. -/
def parseChunks (chunks : List (List UInt8)) : Option (Except Error (List WeightedAddr)) := do
  let buf ← toBuf chunks
  match decode buf with
  | .ok nrsp =>
    if nrsp.kind = "bound" then (toWeightedAddrs parseIp nrsp.addrs).map .ok
    else some (.error .notBound)
  | .error e => some (.error (.serde e))

def parseBody (body : Except String (List (List UInt8))) : Option (Except Error (List WeightedAddr)) :=
  match body with
  | .ok chunks => parseChunks parseIp decode chunks
  | .error e => some (.error (.hyper e))

structure Response where
  status : Nat
  body : Except String (List (List UInt8))

def handleResponse (result : Except String Response) : Option (Except Error (List WeightedAddr)) :=
  match result with
  | .ok rsp =>
    if rsp.status = 200 then parseBody parseIp decode rsp.body
    else some (.error (.unexpectedStatus rsp.status))
  | .error e => some (.error (.hyper e))

end Parse

theorem bytesIn_eq_length_flatten (chunks : List (List UInt8)) :
    bytesIn chunks = chunks.flatten.length := by
  suffices h : ∀ n, chunks.foldl (fun sz c => sz + c.length) n = n + chunks.flatten.length from
    (h 0).trans (Nat.zero_add _)
  induction chunks with
  | nil => simp
  | cons c cs ih => intro n; simp [ih, Nat.add_assoc]

theorem foldlM_putSlice (chunks : List (List UInt8)) :
    ∀ buf : BytesMut, buf.bytes.length + chunks.flatten.length ≤ buf.capacity →
      ∃ buf', chunks.foldlM BytesMut.putSlice buf = some buf' ∧ buf'.bytes = buf.bytes ++ chunks.flatten := by
  induction chunks with
  | nil => exact fun buf _ => ⟨buf, rfl, by simp⟩
  | cons c cs ih =>
    intro buf hcap
    have hc : buf.bytes.length + c.length ≤ buf.capacity := by simp at hcap; omega
    obtain ⟨buf', hfold, hbytes⟩ := ih ⟨buf.bytes ++ c, buf.capacity, by simpa using hc⟩
      (by simp at hcap ⊢; omega)
    exact ⟨buf', by simp [BytesMut.putSlice, hc, hfold], by simp [hbytes]⟩

theorem toBuf_eq_some (chunks : List (List UInt8)) : toBuf chunks = some chunks.flatten := by
  obtain ⟨buf, hfold, hbytes⟩ := foldlM_putSlice chunks (BytesMut.withCapacity (bytesIn chunks))
    (by simp [BytesMut.withCapacity, bytesIn_eq_length_flatten])
  rw [toBuf, hfold, Option.map_some', hbytes]
  rfl

/-- `to_buf` never panics: it returns the chunks concatenated, whose length `bytes_in` counts; so
`parse_chunks` reads only the concatenation, wherever the body was cut into chunks. -/
theorem toBuf_concatenates (parseIp : String → Option IpAddr)
    (decode : List UInt8 → Except String NamerdResponse) (chunks : List (List UInt8)) :
    toBuf chunks = some chunks.flatten ∧ chunks.flatten.length = bytesIn chunks ∧
    ∀ chunks' : List (List UInt8), chunks'.flatten = chunks.flatten →
      parseChunks parseIp decode chunks' = parseChunks parseIp decode chunks := by
  refine ⟨toBuf_eq_some chunks, (bytesIn_eq_length_flatten chunks).symm, fun chunks' h => ?_⟩
  simp only [parseChunks, toBuf_eq_some, h]

/-- `parse_chunks` panics, rather than returning an error, exactly on a body that decodes to a
bound response one of whose ip strings does not parse. -/
theorem parseChunks_eq_none_iff (parseIp : String → Option IpAddr)
    (decode : List UInt8 → Except String NamerdResponse) (chunks : List (List UInt8)) :
    parseChunks parseIp decode chunks = none ↔
      ∃ nrsp, decode chunks.flatten = .ok nrsp ∧ nrsp.kind = "bound" ∧
        ∃ na ∈ nrsp.addrs, parseIp na.ip = none := by
  simp only [parseChunks, toBuf_eq_some, Option.bind_eq_bind, Option.some_bind]
  cases decode chunks.flatten with
  | error e => simp
  | ok nrsp =>
    by_cases hkind : nrsp.kind = "bound"
    · simp [hkind, toWeightedAddrs_eq_none_iff]
    · simp [hkind]

section Handle

variable {parseIp : String → Option IpAddr} {decode : List UInt8 → Except String NamerdResponse}

theorem handleResponse_eq_some_ok {result : Except String Response} {addrs : List WeightedAddr}
    (h : handleResponse parseIp decode result = some (.ok addrs)) :
    ∃ chunks nrsp, result = .ok ⟨200, .ok chunks⟩ ∧ decode chunks.flatten = .ok nrsp ∧
      nrsp.kind = "bound" ∧ toWeightedAddrs parseIp nrsp.addrs = some addrs := by
  rcases result with e | ⟨status, body⟩
  · cases h
  simp only [handleResponse] at h
  split_ifs at h with hs
  · subst hs
    rcases body with e | chunks
    · cases h
    simp only [parseBody, parseChunks, toBuf_eq_some, Option.bind_eq_bind, Option.some_bind] at h
    rcases hd : decode chunks.flatten with e | nrsp <;> simp only [hd] at h
    · cases h
    split_ifs at h with hk
    · obtain ⟨_, hto, ⟨⟩⟩ := Option.map_eq_some'.mp h
      exact ⟨chunks, nrsp, rfl, hd, hk, hto⟩
    · cases h
  · cases h

end Handle

end LinkerdTcp.Resolver
