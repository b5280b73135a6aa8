import TcpVisr.Framing
import TcpVisr.Lib.Writing

/-!
Captures of segments that were sent.

A host writes a segment: an IP header, extension headers, a TCP header, the payload. A
capture keeps the headers, and of what follows them as much as its snapshot length left. The
faucet must give the segment back, and count the payload as it was on the wire.
-/

namespace TcpVisr.Packets

open Lib.Readers Lib.IpTcp Framing

/-! ### One packet -/

section Decoded

variable (options : Bytes → List (Option TcpOptionElement))

/-- Nine bits put together again. -/
lemma foldl_flags : ∀ flags : BitVec 9,
    [((flags.setWidth 16).getLsbD 0, TcpFlags.FIN), ((flags.setWidth 16).getLsbD 1, TcpFlags.SYN),
      ((flags.setWidth 16).getLsbD 2, TcpFlags.RST), ((flags.setWidth 16).getLsbD 3, TcpFlags.PSH),
      ((flags.setWidth 16).getLsbD 4, TcpFlags.ACK), ((flags.setWidth 16).getLsbD 5, TcpFlags.URG),
      ((flags.setWidth 16).getLsbD 6, TcpFlags.ECE), ((flags.setWidth 16).getLsbD 7, TcpFlags.CWR),
      ((flags.setWidth 16).getLsbD 8, TcpFlags.NS)].foldl
        (fun (bits : BitVec 16) (p : Bool × BitVec 16) => if p.1 then bits ||| p.2 else bits) 0 =
      flags.setWidth 16 := by
  decide +kernel

/-- Each flag is read off the bit it stands at. -/
lemma buildFlags_bits (ip : Frame) (h : IpHeader) (t : Tcp) (headers : ℕ) :
    buildFlags (tcpSlice options ip h t.header headers) = ⟨t.flags.setWidth 16⟩ :=
  congrArg TcpFlags.mk (foldl_flags t.flags)

/-- The endpoints of a packet. -/
def flowOf (p : Packet) : FlowKey :=
  match p.ip with
  | .v4 h => ⟨.v4 h.source, p.tcp.sourcePort, .v4 h.destination, p.tcp.destinationPort⟩
  | .v6 h => ⟨.v6 h.source, p.tcp.sourcePort, .v6 h.destination, p.tcp.destinationPort⟩

/-- The segment that was sent. -/
def segmentSent (ts : Nanos) (p : Packet) : Segment where
  ts := ts
  flow := flowOf p
  seq := p.tcp.seq
  ack := p.tcp.ack
  flags := ⟨p.tcp.flags.setWidth 16⟩
  window := p.tcp.window
  options := parseOptions (options p.tcp.options) {}
  payloadLen := BitVec.ofNat 32 p.payload.length

lemma payload_lt (p : Packet) : p.payload.length < 2 ^ 32 := by
  have := p.fits
  omega

/-- The headers spell the segment, payload length and all. -/
lemma headerSegment_headers (ts : Nanos) (p : Packet) (rest : Frame) :
    headerSegment options ts (p.headers ++ rest) p.ipHeader p.tcp.header p.headers.length =
      segmentSent options ts p := by
  have hused := p.length_headers
  have hwire := p.onwire_ipHeader
  have hlen : p.headers.length ≤ (p.headers ++ rest).length := by
    rw [List.length_append]
    exact Nat.le_add_right _ _
  have hdata : 4 * p.tcp.header.dataOffset ≤ p.headers.length := by
    rw [hused, Packet.used, p.tcp.length_bytes]
    change 4 * (5 + p.tcp.words.val) ≤ _
    omega
  have hpay : derivePayloadLen (p.headers ++ rest) (netSlice p.ipHeader)
      (tcpSlice options (p.headers ++ rest) p.ipHeader p.tcp.header p.headers.length) =
      BitVec.ofNat 32 p.payload.length := by
    rw [netSlice_payload options hdata hlen (by omega), hwire, Nat.add_sub_cancel_left,
      u32OfUsize, if_pos (payload_lt p)]
  have hflow : FlowKey.mk (IpHeader.source p.ipHeader) p.tcp.sourcePort
      (IpHeader.destination p.ipHeader) p.tcp.destinationPort = flowOf p := by
    unfold flowOf Packet.ipHeader
    cases p.ip <;> rfl
  unfold headerSegment segmentOf segmentSent
  rw [hpay, buildFlags_bits options, ← hflow]
  rfl

/-- A frame with the headers of a packet in it decodes to the segment that was sent. -/
lemma decodeFrame_sent {lib : Etherparse} {options : Bytes → List (Option TcpOptionElement)}
    (hdoc : Documented lib options) {h : Header} (hip : h.CarriesIp) (p : Packet) (rest : Frame)
    (ts : Nanos) (wireLen : BitVec 32) :
    decodeFrame lib h.link ts (h.encode ++ (p.headers ++ rest)) wireLen =
      .decoded (segmentSent options ts p) := by
  rw [decodeFrame_whole hdoc (Header.strip_encode hip _) (p.readIp_headers rest)
    (p.readTransport_headers rest), ← p.length_headers, headerSegment_headers]

end Decoded

/-! ### A capture -/

/-- A packet as it was captured: when, in nanoseconds, and what. -/
structure Shot where
  absNs : ℕ
  packet : Packet

/-- What the first blocks of a capture file on `link` say of the ones that follow. -/
inductive Opens (link : LinkType) : ℕ → List Block → Prop
  | pcap {network : BitVec 32} (magic : BitVec 32) (h : dltToLink network = .ok link) :
      Opens link (if magic = NANO_MAGIC then 1 else MICRO_TICK_NS) [.legacyHeader network magic]
  | pcapng {linktype : BitVec 32} {ticksPerSec npt : ℕ} (h : dltToLink linktype = .ok link)
      (hres : nanosPerTick ticksPerSec = some npt) :
      Opens link npt [.sectionHeader, .interfaceDescription linktype (some ticksPerSec)]

/-- A frame with the headers of a packet in it. What follows them is the payload, cut short
or with padding behind it. -/
def Frames (link : LinkType) (frame : Frame) (p : Packet) : Prop :=
  ∃ h : Header, h.link = link ∧ h.CarriesIp ∧ ∃ rest, frame = h.encode ++ (p.headers ++ rest)

/-- The blocks that hold the packets, and others without packets between them. A record's time
is capped at what 64 bits hold. -/
inductive Holds (link : LinkType) (npt : ℕ) : List Block → List Shot → Prop
  | nil : Holds link npt [] []
  | legacy (sec usec wireLen : BitVec 32) {frame : Frame} {p : Packet} {blocks : List Block}
      {shots : List Shot} (hf : Frames link frame p) (h : Holds link npt blocks shots) :
      Holds link npt (.legacy sec usec wireLen frame :: blocks)
        (⟨min (sec.toNat * NS_PER_SEC + usec.toNat * npt) u64Max, p⟩ :: shots)
  | enhanced (ifId high low wireLen : BitVec 32) {frame : Frame} {p : Packet}
      {blocks : List Block} {shots : List Shot} (hf : Frames link frame p)
      (h : Holds link npt blocks shots) :
      Holds link npt (.enhancedPacket ifId high low wireLen frame :: blocks)
        (⟨min (ticksOf high low * npt) u64Max, p⟩ :: shots)
  | between {b : Block} {blocks : List Block} {shots : List Shot}
      (hb : b = .sectionHeader ∨ b = .other) (h : Holds link npt blocks shots) :
      Holds link npt (b :: blocks) shots

section Recorded

variable {lib : Etherparse} {options : Bytes → List (Option TcpOptionElement)} {path : String}
  {link : LinkType} {npt : ℕ}

/-- The items that the packets come to, with `base` the time of the first. -/
def itemsSent (options : Bytes → List (Option TcpOptionElement)) (base : ℕ)
    (shots : List Shot) : List Item :=
  shots.map fun s => .segment (segmentSent options (Nanos.sat (s.absNs - base)) s.packet)

/-- A reading that has gone well, on one link layer, and seen no packet but TCP segments. -/
structure Well (link : LinkType) (npt : ℕ) (r : Reading) : Prop where
  failed : r.failed = none
  linkType : r.state.linkType = some link
  nanosPerTick : r.state.nanosPerTick = npt
  skipped : r.state.skipped = {}
  names : r.names = []

/-- A packet's block adds its segment. -/
lemma Well.packet (path : String) (hdoc : Documented lib options) {r : Reading}
    (h : Well link npt r) {frame : Frame} {p : Packet} (hf : Frames link frame p) {b : Block}
    {absNs : ℕ} {wireLen : BitVec 32}
    (hb : handleBlock lib path r.state b = processPacket lib path r.state absNs wireLen frame) :
    Well link npt (r.next lib path b) ∧
      (r.next lib path b).items = r.items ++
        itemsSent options (baselineOf r.state absNs) [⟨absNs, p⟩] ∧
      (r.next lib path b).state.baseline = some (baselineOf r.state absNs) := by
  obtain ⟨header, rfl, hip, rest, rfl⟩ := hf
  have hok : handleBlock lib path r.state b =
      .ok ({ r.state with baseline := some (baselineOf r.state absNs) },
        { items := itemsSent options (baselineOf r.state absNs) [⟨absNs, p⟩] }) := by
    rw [hb, processPacket]
    simp only [h.linkType, decodeFrame_sent hdoc hip]
    rfl
  unfold Reading.next
  simp only [h.failed, hok]
  exact ⟨⟨rfl, h.linkType, h.nanosPerTick, h.skipped, by rw [h.names]; rfl⟩, trivial, trivial⟩

/-- A block without a packet changes nothing. -/
lemma Well.between {r : Reading} (h : Well link npt r) {b : Block}
    (hb : b = .sectionHeader ∨ b = .other) : r.next lib path b = r := by
  have hok : handleBlock lib path r.state b = .ok (r.state, {}) := by
    rcases hb with rfl | rfl <;> rfl
  have hfailed := h.failed
  obtain ⟨state, items, names, failed⟩ := r
  obtain rfl : failed = none := hfailed
  simp only [Reading.next, hok, List.append_nil]

/-- The sum saturates once. -/
lemma satAdd_satMul (a b c d : ℕ) :
    satAdd (satMul a b) (satMul c d) = min (a * b + c * d) u64Max := by
  unfold satAdd satMul
  omega

/-- The time that times are relative to, when `shots` are what is read next. -/
def baseOf (s : State) (shots : List Shot) : ℕ :=
  (s.baseline.or (shots.head?.map Shot.absNs)).getD 0

lemma baseOf_cons (s : State) (x : Shot) (shots : List Shot) :
    baseOf s (x :: shots) = baselineOf s x.absNs := by
  unfold baseOf baselineOf
  cases s.baseline <;> rfl

lemma baseOf_some {s : State} {base : ℕ} (h : s.baseline = some base) (shots : List Shot) :
    baseOf s shots = base := by
  rw [baseOf, h]
  rfl

/-- **The packets of a reading under way** come to their segments, one by one. -/
lemma Well.holds (path : String) (hdoc : Documented lib options) {blocks : List Block}
    {shots : List Shot} (hb : Holds link npt blocks shots) {r : Reading} (h : Well link npt r) :
    Well link npt (Lib.Runs.run (Reading.next lib path) r blocks) ∧
      (Lib.Runs.run (Reading.next lib path) r blocks).items =
        r.items ++ itemsSent options (baseOf r.state shots) shots := by
  -- one packet, and the others relative to the same time
  have step : ∀ {r : Reading} {b : Block} {x : Shot} {shots : List Shot} {items : List Item},
      (r.next lib path b).items = r.items ++ itemsSent options (baselineOf r.state x.absNs) [x] →
      (r.next lib path b).state.baseline = some (baselineOf r.state x.absNs) →
      items = (r.next lib path b).items ++
        itemsSent options (baseOf (r.next lib path b).state shots) shots →
      items = r.items ++ itemsSent options (baseOf r.state (x :: shots)) (x :: shots) := by
    intro r b x shots items hitems hbase heq
    rw [heq, hitems, baseOf_some hbase, baseOf_cons, List.append_assoc]
    rfl
  induction hb generalizing r with
  | nil => exact ⟨h, (List.append_nil _).symm⟩
  | legacy sec usec wireLen hf hb ih =>
      obtain ⟨hwell, hitems, hbase⟩ := h.packet path hdoc hf
        (b := .legacy sec usec wireLen _) (by
          rw [handleBlock, h.nanosPerTick, satAdd_satMul])
      obtain ⟨hrun, heq⟩ := ih hwell
      exact ⟨hrun, step hitems hbase heq⟩
  | enhanced ifId high low wireLen hf hb ih =>
      obtain ⟨hwell, hitems, hbase⟩ := h.packet path hdoc hf
        (b := .enhancedPacket ifId high low wireLen _) (by
          rw [handleBlock, h.nanosPerTick, satMul])
      obtain ⟨hrun, heq⟩ := ih hwell
      exact ⟨hrun, step hitems hbase heq⟩
  | between hb' hb ih =>
      rw [Lib.Runs.run_cons, h.between hb']
      exact ih h

/-- The first blocks of a file. -/
lemma Opens.well (lib : Etherparse) (path : String) {first : List Block}
    (h : Opens link npt first) :
    Well link npt (readBlocks lib path first) ∧ (readBlocks lib path first).items = [] ∧
      (readBlocks lib path first).state.baseline = none := by
  cases h with
  | pcap magic h =>
      simp only [readBlocks, Lib.Runs.run_cons, Lib.Runs.run_nil, Reading.next, handleBlock, h]
      exact ⟨⟨rfl, rfl, rfl, rfl, rfl⟩, rfl, trivial⟩
  | pcapng h hres =>
      simp only [readBlocks, Lib.Runs.run_cons, Lib.Runs.run_nil, Reading.next, handleBlock,
        describeInterface, h, hres, ne_eq, not_true_eq_false, false_and, if_false]
      exact ⟨⟨rfl, rfl, rfl, rfl, rfl⟩, rfl, trivial⟩

end Recorded

/-- A SYN over IPv4. -/
def sentSyn : Packet where
  ip := .v4
    { tos := 0, ident := 1, bits := 1, ttl := 64, checksum := 0
      source := 0x0a000001#32, destination := 0x0a000002#32
      words := 0, options := [], length_options := rfl, auth := none }
  tcp :=
    { sourcePort := 1234, destinationPort := 80, seq := 1000, ack := 0, reserved := 0
      flags := 2, window := 64240, checksum := 0, urgent := 0
      words := 1, options := [2, 4, 5, 0xb4], length_options := rfl }
  payload := []
  fits := by decide +kernel

/-- Three bytes over IPv6, behind a header of destination options. -/
def sentData : Packet where
  ip := .v6
    { traffic := 0, hopLimit := 64, source := 1, destination := 2, hopByHop := none
      exts := [.destOptions ⟨0, [1, 4, 0, 0, 0, 0], rfl⟩] }
  tcp :=
    { sourcePort := 1234, destinationPort := 80, seq := 1001, ack := 1, reserved := 0
      flags := 24, window := 64240, checksum := 0, urgent := 0
      words := 0, options := [], length_options := rfl }
  payload := [1, 2, 3]
  fits := by decide +kernel

/-- The first with its padding, behind a VLAN tag, and the second cut behind its headers. -/
def sentBlocks : List Block :=
  [.legacy 5 0 64 (tagged.encode ++ (sentSyn.headers ++ [0, 0])),
    .legacy 5 7 117 (tagged.encode ++ (sentData.headers ++ []))]

def sentShots : List Shot := [⟨5000000000, sentSyn⟩, ⟨5000007000, sentData⟩]

lemma opens_sentBlocks : Opens .ethernet MICRO_TICK_NS [.legacyHeader 1 0xa1b2c3d4#32] := by
  have h : Opens .ethernet _ [.legacyHeader 1 0xa1b2c3d4#32] := .pcap _ (by decide +kernel)
  rwa [if_neg (by decide)] at h

lemma holds_sentBlocks : Holds .ethernet MICRO_TICK_NS sentBlocks sentShots := by
  have hsyn : min ((5#32).toNat * NS_PER_SEC + (0#32).toNat * MICRO_TICK_NS) u64Max =
      5000000000 := by decide +kernel
  have hdata : min ((5#32).toNat * NS_PER_SEC + (7#32).toNat * MICRO_TICK_NS) u64Max =
      5000007000 := by decide +kernel
  rw [sentShots, ← hsyn, ← hdata]
  exact .legacy 5 0 64 ⟨tagged, rfl, .inl rfl, _, rfl⟩
    (.legacy 5 7 117 ⟨tagged, rfl, .inl rfl, _, rfl⟩ .nil)

end TcpVisr.Packets
