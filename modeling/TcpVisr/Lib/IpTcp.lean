import TcpVisr.Lib.Readers
import Mathlib.Data.BitVec

/-!
The headers of an unfragmented TCP segment over IPv4 or IPv6, as they lie on the wire.

Each header is a reader, and the stack of them is one: the IP header, the chain of extension
headers inside what the IP length field bounds, and the TCP header. All are steady, so a
capture that cuts the packet behind the TCP header reads like the whole packet, and one that
cuts it earlier runs short.
-/

namespace TcpVisr.Lib.IpTcp

open Readers

abbrev Bytes := List (BitVec 8)

/-- The byte at `i`; zero past the end. -/
def byteAt (b : Bytes) (i : ℕ) : ℕ := (b[i]?.map BitVec.toNat).getD 0

/-- The big-endian value of the `n` bytes at `i`. -/
def bigEndian (b : Bytes) (i n : ℕ) : ℕ :=
  ((b.drop i).take n).foldl (fun acc x => acc * 256 + x.toNat) 0

/-- Two bytes make less than `2 ^ 16`. -/
lemma bigEndian_two_lt (b : Bytes) (i : ℕ) : bigEndian b i 2 < 2 ^ 16 := by
  unfold bigEndian
  match b.drop i with
  | [] => simp
  | [x] =>
      have := x.isLt
      simp only [List.take_succ_cons, List.take_nil, List.foldl_cons, List.foldl_nil]
      omega
  | x :: y :: rest =>
      have := x.isLt
      have := y.isLt
      simp only [List.take_succ_cons, List.take_zero, List.foldl_cons, List.foldl_nil]
      omega

/-! ### IP -/

inductive IpHeader
  | v4 (headerLen : ℕ) (source destination : BitVec 32) (totalLen : BitVec 16) (protocol : ℕ)
  | v6 (source destination : BitVec 128) (payloadLen : BitVec 16) (nextHeader : ℕ)
  deriving DecidableEq

namespace IpHeader

/-- The length of the header itself. -/
def headerLen : IpHeader → ℕ
  | v4 n _ _ _ _ => n
  | v6 _ _ _ _ => 40

/-- The length of the whole packet, by its length field. -/
def onwire : IpHeader → ℕ
  | v4 _ _ _ totalLen _ => totalLen.toNat
  | v6 _ _ payloadLen _ => 40 + payloadLen.toNat

lemma onwire_lt (h : IpHeader) : h.onwire < 2 ^ 32 := by
  cases h with
  | v4 n source destination totalLen protocol =>
      have := totalLen.isLt
      simp only [onwire]
      omega
  | v6 source destination payloadLen nextHeader =>
      have := payloadLen.isLt
      simp only [onwire]
      omega

end IpHeader

def ipHeaderLen (l : Bytes) : Option ℕ :=
  let version := byteAt l 0 / 16
  let ihl := byteAt l 0 % 16
  if version = 4 then if 5 ≤ ihl then some (4 * ihl) else none
  else if version = 6 then some 40
  else none

/-- The fields of a header that is no fragment and whose length field covers it. -/
def ipFields (h : Bytes) : Option IpHeader :=
  if byteAt h 0 / 16 = 4 then
    -- more fragments, or an offset
    if bigEndian h 6 2 % 2 ^ 14 ≠ 0 then none
    else if bigEndian h 2 2 < h.length then none
    else some (.v4 h.length (BitVec.ofNat 32 (bigEndian h 12 4))
      (BitVec.ofNat 32 (bigEndian h 16 4)) (BitVec.ofNat 16 (bigEndian h 2 2)) (byteAt h 9))
  else if bigEndian h 4 2 = 0 then none
  else some (.v6 (BitVec.ofNat 128 (bigEndian h 8 16)) (BitVec.ofNat 128 (bigEndian h 24 16))
    (BitVec.ofNat 16 (bigEndian h 4 2)) (byteAt h 6))

def readIp : Bytes → Read IpHeader := sized 1 ipHeaderLen ipFields

/-! ### Extension headers -/

def protoHopByHop : ℕ := 0
def protoTcp : ℕ := 6
def protoRoute : ℕ := 43
def protoFragment : ℕ := 44
def protoAuth : ℕ := 51
def protoDestOptions : ℕ := 60

/-- A header of `8 * (n + 1)` bytes that names the next one. -/
def readRawExt : Bytes → Read ℕ :=
  sized 2 (fun l => some ((byteAt l 1 + 1) * 8)) fun h => some (byteAt h 0)

/-- A fragment header that fragments nothing. -/
def readFragment : Bytes → Read ℕ :=
  sized 8 (fun _ => some 8) fun h =>
    if bigEndian h 2 2 / 8 ≠ 0 ∨ byteAt h 3 % 2 = 1 then none else some (byteAt h 0)

def readAuth : Bytes → Read ℕ :=
  sized 2 (fun l => if byteAt l 1 = 0 then none else some ((byteAt l 1 + 2) * 4))
    fun h => some (byteAt h 0)

/-- The reader of the extension header `next`, if it is one. -/
def extension (next : ℕ) : Option (Bytes → Read ℕ) :=
  if next = protoDestOptions ∨ next = protoRoute then some readRawExt
  else if next = protoFragment then some readFragment
  else if next = protoAuth then some readAuth
  else none

/-- A chain of at most `n` extension headers, and the protocol it ends in. -/
def readChain : ℕ → ℕ → Bytes → Read ℕ
  | 0, _ => refuse
  | n + 1, next =>
    match extension next with
    | some p => seq p (readChain n)
    | none => stop next

/-- An IP payload is shorter than `2 ^ 16` and an extension header takes 8 bytes or more. -/
def maxExtensions : ℕ := 2 ^ 13

/-- What stands between the IP header and the transport header. Hop-by-hop options come
first or not at all; IPv4 knows the authentication header only. -/
def readExtensions : IpHeader → Bytes → Read ℕ
  | .v4 _ _ _ _ protocol =>
    if protocol = protoAuth then readAuth else stop protocol
  | .v6 _ _ _ next =>
    if next = protoHopByHop then seq readRawExt (readChain maxExtensions)
    else readChain maxExtensions next

/-! ### TCP -/

structure TcpHeader where
  sourcePort : BitVec 16
  destinationPort : BitVec 16
  seq : BitVec 32
  ack : BitVec 32
  dataOffset : ℕ
  /-- NS, CWR, ECE, URG, ACK, PSH, RST, SYN, FIN, from bit 8 down. -/
  flags : BitVec 16
  window : BitVec 16
  options : Bytes
  deriving DecidableEq

def tcpHeaderLen (l : Bytes) : Option ℕ :=
  if 5 ≤ byteAt l 12 / 16 then some (4 * (byteAt l 12 / 16)) else none

def tcpFields (h : Bytes) : Option TcpHeader :=
  some
    { sourcePort := BitVec.ofNat 16 (bigEndian h 0 2)
      destinationPort := BitVec.ofNat 16 (bigEndian h 2 2)
      seq := BitVec.ofNat 32 (bigEndian h 4 4)
      ack := BitVec.ofNat 32 (bigEndian h 8 4)
      dataOffset := byteAt h 12 / 16
      flags := BitVec.ofNat 16 (bigEndian h 12 2 % 512)
      window := BitVec.ofNat 16 (bigEndian h 14 2)
      options := h.drop 20 }

def readTcp : Bytes → Read TcpHeader := sized 13 tcpHeaderLen tcpFields

/-! ### The stack -/

/-- The extension headers and the TCP header. -/
def readSegment (h : IpHeader) : Bytes → Read TcpHeader :=
  seq (readExtensions h) fun proto => if proto = protoTcp then readTcp else refuse

/-- Everything behind the IP header, within what its length field bounds. -/
def readTransport (h : IpHeader) : Bytes → Read TcpHeader :=
  limit (h.onwire - h.headerLen) (readSegment h)

/-! ### Steadiness -/

lemma steady_readIp : Steady readIp := by
  apply steady_sized
  intro l k h
  unfold ipHeaderLen at h
  simp only at h
  split_ifs at h <;> obtain rfl := Option.some.inj h <;> omega

lemma steady_readRawExt : Steady readRawExt := by
  apply steady_sized
  intro l k h
  obtain rfl := Option.some.inj h
  omega

lemma steady_readFragment : Steady readFragment := by
  apply steady_sized
  intro l k h
  obtain rfl := Option.some.inj h
  exact le_rfl

lemma steady_readAuth : Steady readAuth := by
  apply steady_sized
  intro l k h
  split_ifs at h
  obtain rfl := Option.some.inj h
  omega

lemma steady_extension {next : ℕ} {p : Bytes → Read ℕ} (h : extension next = some p) :
    Steady p := by
  unfold extension at h
  split_ifs at h <;> obtain rfl := Option.some.inj h
  · exact steady_readRawExt
  · exact steady_readFragment
  · exact steady_readAuth

lemma steady_readChain (n next : ℕ) : Steady (readChain n next) := by
  induction n generalizing next with
  | zero => exact steady_refuse
  | succ n ih =>
      unfold readChain
      cases h : extension next with
      | none => exact steady_stop next
      | some p => exact (steady_extension h).seq ih

lemma steady_readExtensions (h : IpHeader) : Steady (readExtensions h) := by
  cases h with
  | v4 n source destination totalLen protocol =>
      change Steady (if protocol = protoAuth then readAuth else stop protocol)
      split
      · exact steady_readAuth
      · exact steady_stop protocol
  | v6 source destination payloadLen next =>
      change Steady (if next = protoHopByHop then seq readRawExt (readChain maxExtensions)
        else readChain maxExtensions next)
      split
      · exact steady_readRawExt.seq (steady_readChain maxExtensions)
      · exact steady_readChain maxExtensions next

lemma steady_readTcp : Steady readTcp := by
  apply steady_sized
  intro l k h
  unfold tcpHeaderLen at h
  split_ifs at h
  obtain rfl := Option.some.inj h
  omega

lemma steady_readSegment (h : IpHeader) : Steady (readSegment h) := by
  apply (steady_readExtensions h).seq
  intro proto
  split
  · exact steady_readTcp
  · exact steady_refuse

lemma steady_readTransport (h : IpHeader) : Steady (readTransport h) :=
  (steady_readSegment h).limit _

/-! ### Lengths -/

lemma byteAt_take {b : Bytes} {i n : ℕ} (h : i < n) : byteAt (b.take n) i = byteAt b i := by
  unfold byteAt
  rw [List.getElem?_take_of_lt h]

/-- The IP reader uses the header it read. -/
lemma headerLen_of_readIp {b : Bytes} {h : IpHeader} {k : ℕ} (hr : readIp b = .done h k) :
    h.headerLen = k := by
  obtain ⟨hlen, hle, hf⟩ := of_sized_eq_done hr
  unfold ipHeaderLen at hlen
  unfold ipFields at hf
  simp only at hlen
  have hk : 0 < k := by
    split_ifs at hlen <;> obtain rfl := Option.some.inj hlen <;> omega
  rw [byteAt_take Nat.one_pos] at hlen
  rw [byteAt_take hk] at hf
  split_ifs at hlen hf with h4
  all_goals
    obtain rfl := Option.some.inj hf
    try contradiction
  · exact List.length_take_of_le hle
  · exact Option.some.inj hlen

/-- The length field of an IP header that was read covers the header. -/
lemma headerLen_le_onwire {b : Bytes} {h : IpHeader} {k : ℕ} (hr : readIp b = .done h k) :
    h.headerLen ≤ h.onwire := by
  obtain ⟨-, -, hf⟩ := of_sized_eq_done hr
  unfold ipFields at hf
  split_ifs at hf with h4 hfrag hcover
  · obtain rfl := Option.some.inj hf
    change (b.take k).length ≤ (BitVec.ofNat 16 (bigEndian (b.take k) 2 2)).toNat
    rw [BitVec.toNat_ofNat, Nat.mod_eq_of_lt (bigEndian_two_lt _ _)]
    omega
  · obtain rfl := Option.some.inj hf
    exact Nat.le_add_right 40 _

/-- The TCP reader uses the header it read. -/
lemma dataOffset_of_readTcp {b : Bytes} {t : TcpHeader} {k : ℕ} (hr : readTcp b = .done t k) :
    4 * t.dataOffset = k := by
  obtain ⟨hlen, -, hf⟩ := of_sized_eq_done hr
  unfold tcpHeaderLen at hlen
  rw [byteAt_take (by omega)] at hlen
  split_ifs at hlen with h5
  obtain rfl := Option.some.inj hlen
  obtain rfl := Option.some.inj hf
  exact congrArg (fun x => 4 * (x / 16)) (byteAt_take (by omega))

/-- The TCP header is the last of what the transport reader used. -/
lemma dataOffset_le_of_readTransport {h : IpHeader} {b : Bytes} {t : TcpHeader} {u : ℕ}
    (hr : readTransport h b = .done t u) : 4 * t.dataOffset ≤ u := by
  obtain ⟨proto, j, m, -, hp, rfl⟩ := seq_eq_done.mp hr
  split at hp
  · rw [dataOffset_of_readTcp hp]
    omega
  · simp [refuse] at hp

end TcpVisr.Lib.IpTcp
