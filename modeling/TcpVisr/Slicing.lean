import TcpVisr.Decode
import TcpVisr.Lib.IpTcp

/-!
What the decoder relies on from `LaxSlicedPacket::from_ip`: on an unfragmented TCP segment it
slices along the headers, and where the bytes run out it stops with a `Len` error. A slicer
made of the header readers does so.
-/

namespace TcpVisr

open Lib.Readers Lib.IpTcp

/-- The slice of an IP header that fragments nothing. -/
def netSlice : IpHeader → LaxNetSlice
  | .v4 _ source destination totalLen _ => .ipv4 source destination totalLen false
  | .v6 source destination payloadLen _ => .ipv6 source destination payloadLen false

/-- What the IP length field counts as payload, behind `headers` bytes of headers. -/
def payloadBytes (ip : Frame) (h : IpHeader) (headers : ℕ) : Frame :=
  (ip.take h.onwire).drop headers

/-- The TCP slice of a packet whose headers, the TCP header last, take `headers` bytes. -/
def tcpSlice (options : Bytes → List (Option TcpOptionElement)) (ip : Frame) (h : IpHeader)
    (t : TcpHeader) (headers : ℕ) : TcpSlice where
  start := (headers : ℤ) - 4 * t.dataOffset
  sourcePort := t.sourcePort
  destinationPort := t.destinationPort
  sequenceNumber := t.seq
  acknowledgmentNumber := t.ack
  dataOffset := t.dataOffset
  fin := t.flags.getLsbD 0
  syn := t.flags.getLsbD 1
  rst := t.flags.getLsbD 2
  psh := t.flags.getLsbD 3
  ack := t.flags.getLsbD 4
  urg := t.flags.getLsbD 5
  ece := t.flags.getLsbD 6
  cwr := t.flags.getLsbD 7
  ns := t.flags.getLsbD 8
  windowSize := t.window
  optionsIterator := options t.options
  payload := payloadBytes ip h headers

/-- `from_ip` as documented, with `options` the iterator over the option bytes. -/
structure Documented (lib : Etherparse) (options : Bytes → List (Option TcpOptionElement)) :
    Prop where
  ipShort : ∀ ip, readIp ip = .short → lib.fromIp ip = .error .len
  restShort : ∀ ip h k, readIp ip = .done h k → readTransport h (ip.drop k) = .short →
    ∃ layer, lib.fromIp ip = .ok ⟨some (netSlice h), none, some (.len, layer)⟩
  whole : ∀ ip h k t u, readIp ip = .done h k → readTransport h (ip.drop k) = .done t u →
    lib.fromIp ip =
      .ok ⟨some (netSlice h), some (.tcp (tcpSlice options ip h t (k + u))), none⟩

/-! ### A slicer made of the readers -/

/-- The big-endian pairs of words of a SACK option. -/
def sackPairs : ℕ → Bytes → List (TcpSeq × TcpSeq)
  | n + 1, b =>
    (BitVec.ofNat 32 (bigEndian b 0 4), BitVec.ofNat 32 (bigEndian b 4 4)) ::
      sackPairs n (b.drop 8)
  | 0, _ => []

/-- One option of kind `kind` whose body is `body`. -/
def tcpOption (kind : ℕ) (body : Bytes) : Option TcpOptionElement :=
  match kind, body.length with
  | 2, 2 => some (.maximumSegmentSize (BitVec.ofNat 16 (bigEndian body 0 2)))
  | 3, 1 => some (.windowScale (BitVec.ofNat 8 (bigEndian body 0 1)))
  | 4, 0 => some .selectiveAcknowledgementPermitted
  | 5, n =>
    match sackPairs (n / 8) body with
    | first :: rest =>
      if n % 8 = 0 ∧ n ≤ 32 then some (.selectiveAcknowledgement first (rest.map some)) else none
    | [] => none
  | 8, 8 => some (.timestamp (BitVec.ofNat 32 (bigEndian body 0 4))
      (BitVec.ofNat 32 (bigEndian body 4 4)))
  | _, _ => none

/-- The options of a TCP header: an end mark ends them, and so does a malformed one. -/
def tcpOptions : ℕ → Bytes → List (Option TcpOptionElement)
  | fuel + 1, kind :: rest =>
    if kind = 0 then []
    else if kind = 1 then some .noop :: tcpOptions fuel rest
    else
      let len := byteAt rest 0
      if len < 2 ∨ rest.length + 1 < len then [none]
      else
        match tcpOption kind.toNat ((rest.drop 1).take (len - 2)) with
        | some element => some element :: tcpOptions fuel (rest.drop (len - 1))
        | none => [none]
  | _, _ => []

/-- The option bytes of a header are 40 at most. -/
def optionsOf (b : Bytes) : List (Option TcpOptionElement) := tcpOptions 40 b

/-- Slices along the headers. -/
def headerSlicer : Etherparse where
  fromIp ip :=
    match readIp ip with
    | .short => .error .len
    | .bad => .error .content
    | .done h k =>
      match readTransport h (ip.drop k) with
      | .done t u =>
        .ok ⟨some (netSlice h), some (.tcp (tcpSlice optionsOf ip h t (k + u))), none⟩
      | .short => .ok ⟨some (netSlice h), none, some (.len, .tcpHeader)⟩
      | .bad => .ok ⟨some (netSlice h), none, none⟩
  parseDns _ := none

theorem documented_headerSlicer : Documented headerSlicer optionsOf := by
  constructor
  · intro ip hip
    simp only [headerSlicer, hip]
  · intro ip h k hip hrest
    refine ⟨.tcpHeader, ?_⟩
    simp only [headerSlicer, hip, hrest]
  · intro ip h k t u hip hrest
    simp only [headerSlicer, hip, hrest]

/-- A SYN over IPv4, no options. -/
def synPacket : Frame :=
  ([0x45, 0, 0, 40, 0, 0, 0, 0, 64, 6, 0, 0, 10, 0, 0, 1, 10, 0, 0, 2,
    0x04, 0xd2, 0, 80, 0, 0, 3, 0xe8, 0, 0, 0, 0, 0x50, 2, 0xfa, 0xf0, 0, 0, 0, 0]
    : List ℕ).map (BitVec.ofNat 8)

example : decodeFrame headerSlicer .rawIp ⟨7, by decide⟩ synPacket 40#32 = .decoded
    { ts := ⟨7, by decide⟩
      flow := ⟨.v4 0x0a000001#32, 1234#16, .v4 0x0a000002#32, 80#16⟩
      seq := 1000#32
      ack := 0#32
      flags := ⟨TcpFlags.SYN⟩
      window := 64240#16
      options := {}
      payloadLen := 0#32 } := by decide +kernel

end TcpVisr
