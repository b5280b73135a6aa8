import Mathlib.Data.BitVec
import Mathlib.Data.Prod.Lex
import Mathlib.Tactic

/-!
The shared types: capture time, sequence numbers, endpoints, decoded segments and the
engine's input items.

Machine words that are only compared, maximised or subtracted with saturation are natural
numbers under their bound; sequence numbers and payload lengths, which wrap, are bit
vectors.
-/

namespace TcpVisr

/-- The largest `u64`. -/
def u64Max : ℕ := 2 ^ 64 - 1

/-- Nanoseconds since the capture's first packet record. -/
@[ext] structure Nanos where
  ns : ℕ
  le_max : ns ≤ u64Max
  deriving DecidableEq

namespace Nanos

/-- `u64::try_from(n).unwrap_or(u64::MAX)`. -/
def sat (n : ℕ) : Nanos := ⟨min n u64Max, min_le_right n u64Max⟩

instance : Max Nanos := ⟨fun a b => if a.ns ≤ b.ns then b else a⟩

/-- `a.0.saturating_sub(b.0)`. -/
def saturatingSub (a b : Nanos) : Nanos := ⟨a.ns - b.ns, (Nat.sub_le a.ns b.ns).trans a.le_max⟩

@[simp] lemma ns_max (a b : Nanos) : (max a b).ns = max a.ns b.ns := by
  change (if a.ns ≤ b.ns then b else a).ns = _
  split <;> omega

lemma max_eq_right {a b : Nanos} (h : a.ns ≤ b.ns) : max a b = b := by
  ext
  simp [h]

end Nanos

/-- A TCP sequence or acknowledgement number, a `u32` that wraps. -/
abbrev TcpSeq := BitVec 32

namespace TcpSeq

def half : BitVec 32 := 0x80000000#32

/-- `self` precedes `other` in serial order. -/
def serialLt (self other : TcpSeq) : Bool :=
  let forward := other - self
  forward != 0 && decide (forward < half)

/-- `self` follows `other` in serial order. -/
def serialGt (self other : TcpSeq) : Bool := serialLt other self

/-- The forward distance, wrapping, from `earlier` to `self`. -/
def serialDiff (self earlier : TcpSeq) : BitVec 32 := self - earlier

/-! Serial comparison sees differences only. -/

@[simp] lemma serialLt_add_right (a b k : TcpSeq) : serialLt (a + k) (b + k) = serialLt a b := by
  simp [serialLt]

@[simp] lemma serialGt_add_right (a b k : TcpSeq) : serialGt (a + k) (b + k) = serialGt a b := by
  simp [serialGt]

@[simp] lemma serialDiff_add_right (a b k : TcpSeq) :
    serialDiff (a + k) (b + k) = serialDiff a b := by
  simp [serialDiff]

end TcpSeq

inductive IpAddr
  | v4 (a : BitVec 32)
  | v6 (a : BitVec 128)
  deriving DecidableEq

/-- The derived order of addresses: every V4 before every V6, numerically within each. -/
def IpAddr.rank : IpAddr → ℕ
  | .v4 a => a.toNat
  | .v6 a => 2 ^ 32 + a.toNat

/-- One side of a TCP connection. -/
structure Endpoint where
  ip : IpAddr
  port : BitVec 16
  deriving DecidableEq

/-- The derived order of endpoints, by address and then by port. -/
def Endpoint.key (e : Endpoint) : ℕ := e.ip.rank * 2 ^ 16 + e.port.toNat

/-- `a <= b`. -/
def Endpoint.le (a b : Endpoint) : Bool := a.key ≤ b.key

lemma IpAddr.rank_inj {a b : IpAddr} (h : a.rank = b.rank) : a = b := by
  cases a with
  | v4 a =>
      cases b with
      | v4 b => exact congrArg v4 (BitVec.eq_of_toNat_eq h)
      | v6 b => have := a.isLt; simp only [rank] at h; omega
  | v6 a =>
      cases b with
      | v4 b => have := b.isLt; simp only [rank] at h; omega
      | v6 b => exact congrArg v6 (BitVec.eq_of_toNat_eq (by simp only [rank] at h; omega))

lemma Endpoint.key_inj {a b : Endpoint} (h : a.key = b.key) : a = b := by
  obtain ⟨ip, port⟩ := a
  obtain ⟨ip', port'⟩ := b
  have h1 := port.isLt
  have h2 := port'.isLt
  simp only [key] at h
  obtain rfl := IpAddr.rank_inj (a := ip) (b := ip') (by omega)
  obtain rfl := BitVec.eq_of_toNat_eq (x := port) (y := port') (by omega)
  rfl

/-- The TCP 4-tuple as seen on the wire. -/
structure FlowKey where
  srcIp : IpAddr
  srcPort : BitVec 16
  dstIp : IpAddr
  dstPort : BitVec 16
  deriving DecidableEq

def FlowKey.source (f : FlowKey) : Endpoint := ⟨f.srcIp, f.srcPort⟩
def FlowKey.destination (f : FlowKey) : Endpoint := ⟨f.dstIp, f.dstPort⟩

/-- TCP control bits, as on the wire. -/
structure TcpFlags where
  bits : BitVec 16
  deriving DecidableEq

namespace TcpFlags

def FIN : BitVec 16 := 0x01#16
def SYN : BitVec 16 := 0x02#16
def RST : BitVec 16 := 0x04#16
def PSH : BitVec 16 := 0x08#16
def ACK : BitVec 16 := 0x10#16
def URG : BitVec 16 := 0x20#16
def ECE : BitVec 16 := 0x40#16
def CWR : BitVec 16 := 0x80#16
def NS : BitVec 16 := 0x100#16

def fin (f : TcpFlags) : Bool := f.bits &&& FIN != 0
def syn (f : TcpFlags) : Bool := f.bits &&& SYN != 0
def rst (f : TcpFlags) : Bool := f.bits &&& RST != 0
def ack (f : TcpFlags) : Bool := f.bits &&& ACK != 0

end TcpFlags

/-- The TCP options of a segment. -/
structure TcpOptions where
  mss : Option (BitVec 16) := none
  windowScale : Option (BitVec 8) := none
  sackPermitted : Bool := false
  timestamp : Option (BitVec 32 × BitVec 32) := none
  sackBlocks : List (TcpSeq × TcpSeq) := []
  deriving DecidableEq

/-- One decoded TCP segment. -/
structure Segment where
  ts : Nanos
  flow : FlowKey
  seq : TcpSeq
  ack : TcpSeq
  flags : TcpFlags
  window : BitVec 16 := 0
  options : TcpOptions := {}
  payloadLen : BitVec 32
  deriving DecidableEq

/-- A segment between two V4 hosts at fixed ports, for concrete runs. -/
def Segment.between (src dst : BitVec 32) (ts : ℕ) (bits : BitVec 16) (seq : TcpSeq)
    (payloadLen : BitVec 32 := 0) (ack : TcpSeq := 0) : Segment where
  ts := Nanos.sat ts
  flow := ⟨.v4 src, 80, .v4 dst, 80⟩
  seq := seq
  ack := ack
  flags := ⟨bits⟩
  payloadLen := payloadLen

/-- Engine input. -/
inductive Item
  | segment (seg : Segment)
  | tick (t : Nanos)
  deriving DecidableEq

/-- The time an item carries. -/
def Item.ts : Item → Nanos
  | .segment seg => seg.ts
  | .tick t => t

/-- The direction a sample pertains to, relative to the connection's origin. -/
inductive SampleDir
  | originToResponder | responderToOrigin
  deriving DecidableEq

/-- One metric sample, derived from one segment. -/
structure MetricSample where
  t : Nanos
  dir : SampleDir
  inFlightBytes : ℕ
  throughputBps : ℕ
  rtt : Option Nanos
  retransmit : Bool
  outOfOrder : Bool
  sack : Bool
  deriving DecidableEq

end TcpVisr
