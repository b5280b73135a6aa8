import TcpVisr.Names

/-!
From a captured frame to a segment: link-layer stripping, the one header decoder that both
faucets share, and the names that DNS answers carry.

The two packet libraries are parameters: `Etherparse.fromIp` slices IP bytes leniently and
`Etherparse.parseDns` parses a DNS message. A slice is recorded by what the decoder asks of
it; the TCP slice also by where it starts in the bytes it was cut from.
-/

namespace TcpVisr

/-- The bytes of a frame. -/
abbrev Frame := List (BitVec 8)

/-! ### The packet libraries -/

/-- `LaxHeaderSliceError`. -/
inductive LaxHeaderSliceError
  | len | content
  deriving DecidableEq

/-- `SliceError`: a byte shortage, or anything else. -/
inductive SliceError
  | len | content
  deriving DecidableEq

/-- The layer a stop error is about. -/
inductive Layer
  | ipHeader | ipv6ExtHeader | tcpHeader | other
  deriving DecidableEq

/-- `LaxNetSlice`. -/
inductive LaxNetSlice
  | ipv4 (sourceAddr destinationAddr : BitVec 32) (totalLen : BitVec 16)
      (isPayloadFragmented : Bool)
  | ipv6 (sourceAddr destinationAddr : BitVec 128) (payloadLength : BitVec 16)
      (isPayloadFragmented : Bool)
  | arp
  deriving DecidableEq

/-- `TcpOptionElement`. -/
inductive TcpOptionElement
  | maximumSegmentSize (v : BitVec 16)
  | windowScale (v : BitVec 8)
  | selectiveAcknowledgementPermitted
  | selectiveAcknowledgement (first : TcpSeq × TcpSeq) (rest : List (Option (TcpSeq × TcpSeq)))
  | timestamp (a b : BitVec 32)
  | noop
  deriving DecidableEq

/-- `TcpSlice`. `start` is the distance from the bytes given to `from_ip`; an option that
does not parse is `none`. -/
structure TcpSlice where
  start : ℤ
  sourcePort : BitVec 16
  destinationPort : BitVec 16
  sequenceNumber : BitVec 32
  acknowledgmentNumber : BitVec 32
  dataOffset : ℕ
  fin : Bool
  syn : Bool
  rst : Bool
  psh : Bool
  ack : Bool
  urg : Bool
  ece : Bool
  cwr : Bool
  ns : Bool
  windowSize : BitVec 16
  optionsIterator : List (Option TcpOptionElement)
  payload : Frame
  deriving DecidableEq

/-- `TransportSlice`. -/
inductive TransportSlice
  | tcp (tcp : TcpSlice)
  | udp (sourcePort : BitVec 16) (payload : Frame)
  | other
  deriving DecidableEq

/-- `LaxSlicedPacket`. -/
structure LaxSlicedPacket where
  net : Option LaxNetSlice
  transport : Option TransportSlice
  stopErr : Option (SliceError × Layer)
  deriving DecidableEq

/-- The data of a DNS answer. -/
inductive RData
  | a (address : BitVec 32)
  | aaaa (address : BitVec 128)
  | other
  deriving DecidableEq

/-- A DNS answer: its owner name and its data. -/
structure DnsAnswer where
  name : List Char
  rdata : RData
  deriving DecidableEq

/-- What the decoder calls of its two packet libraries. -/
structure Etherparse where
  fromIp : Frame → Except LaxHeaderSliceError LaxSlicedPacket
  parseDns : Frame → Option (List DnsAnswer)

/-! ### Link layer -/

/-- Why a packet was skipped. -/
inductive SkipReason
  | nonTcp | malformed | unsupportedLinkType | ipv6Fragment | unsupportedExtChain | truncated
  deriving DecidableEq

inductive LinkType
  | ethernet | linuxSll | linuxSll2 | rawIp | null
  deriving DecidableEq

/-- Maps a data-link type number to a supported link type. -/
def LinkType.fromDlt (dlt : ℕ) : Option LinkType :=
  match dlt with
  | 1 => some .ethernet
  | 0 => some .null
  | 12 | 14 | 101 => some .rawIp
  | 113 => some .linuxSll
  | 276 => some .linuxSll2
  | _ => none

inductive Stripped
  | ip (bytes : Frame)
  | skip (reason : SkipReason)
  deriving DecidableEq

def ETHERTYPE_IPV4 : ℕ := 0x0800
def ETHERTYPE_IPV6 : ℕ := 0x86DD
def VLAN_8021Q : ℕ := 0x8100
def VLAN_8021AD : ℕ := 0x88A8

/-- The big-endian `u16` in front. -/
def be16 : Frame → Option ℕ
  | x :: y :: _ => some (x.toNat * 256 + y.toNat)
  | _ => none

/-- `frame.get(off..)`. -/
def getFrom (frame : Frame) (off : ℕ) : Option Frame :=
  if off ≤ frame.length then some (frame.drop off) else none

/-- SLL and SLL2: an ethertype at `et_off`, IP from `ip_off` on. -/
def stripAfterEthertype (frame : Frame) (etOff ipOff : ℕ) : Stripped :=
  match be16 (frame.drop etOff) with
  | some et =>
    if et = ETHERTYPE_IPV4 ∨ et = ETHERTYPE_IPV6 then
      match getFrom frame ipOff with
      | some ip => .ip ip
      | none => .skip .malformed
    else .skip .nonTcp
  | none => .skip .malformed

/-- The loop of `strip_ethernet`, on the bytes from the ethertype on. A tag is a 2-byte TCI
with an ethertype behind it. -/
def stripTags : Frame → Stripped
  | x :: y :: rest =>
    let et := x.toNat * 256 + y.toNat
    if et = ETHERTYPE_IPV4 ∨ et = ETHERTYPE_IPV6 then .ip rest
    else if et = VLAN_8021Q ∨ et = VLAN_8021AD then
      match rest with
      | _ :: _ :: inner => stripTags inner
      | _ => .skip .malformed
    else .skip .nonTcp
  | _ => .skip .malformed

/-- The ethertype stands behind the two addresses. -/
def stripEthernet (frame : Frame) : Stripped := stripTags (frame.drop 12)

def stripLink (link : LinkType) (frame : Frame) : Stripped :=
  match link with
  | .rawIp => .ip frame
  | .null =>
    match getFrom frame 4 with
    | some ip => .ip ip
    | none => .skip .malformed
  | .linuxSll2 => stripAfterEthertype frame 0 20
  | .linuxSll => stripAfterEthertype frame 14 16
  | .ethernet => stripEthernet frame

/-! ### Names -/

/-- One observation for each address answer whose name survives sanitizing. -/
def parseDnsAnswers (lib : Etherparse) (ts : Nanos) (payload : Frame) : List NameObservation :=
  match lib.parseDns payload with
  | none => []
  | some answers =>
    answers.filterMap fun answer =>
      match answer.rdata with
      | .a address => (HostName.new answer.name).map fun name => ⟨ts, .v4 address, name⟩
      | .aaaa address => (HostName.new answer.name).map fun name => ⟨ts, .v6 address, name⟩
      | .other => none

/-! ### The decoder -/

/-- The outcome of decoding one frame. -/
inductive DecodeOutcome
  | decoded (seg : Segment)
  | names (obs : List NameObservation)
  | skipped (reason : SkipReason)
  deriving DecidableEq

/-- Bytes in the fixed IPv6 header. -/
def IPV6_HEADER_LEN : ℕ := 40

/-- Classifies a frame with an IP header and no transport: on a cut frame a byte shortage
means that the TCP header itself was cut off. -/
def classifyNoTcp (sliced : LaxSlicedPacket) (truncated : Bool) : SkipReason :=
  match sliced.stopErr with
  | some (.len, layer) =>
    if truncated then .truncated
    else if layer = .ipv6ExtHeader ∨ layer = .ipHeader then .unsupportedExtChain
    else .nonTcp
  | some (.content, layer) =>
    if layer = .ipv6ExtHeader ∨ layer = .ipHeader then .unsupportedExtChain else .nonTcp
  | none => .nonTcp

/-- The byte offset of an inner slice, when it starts within the outer one. -/
def subsliceOffset (outer : Frame) (start : ℤ) : Option ℕ :=
  if 0 ≤ start ∧ start ≤ outer.length then some start.toNat else none

/-- `u32::try_from(n).unwrap_or(u32::MAX)`. -/
def u32OfUsize (n : ℕ) : BitVec 32 := if n < 2 ^ 32 then BitVec.ofNat 32 n else BitVec.allOnes 32

/-- The on-wire payload length, from the IP length field; what was captured, when the field
is implausible. -/
def derivePayloadLen (ip : Frame) (net : LaxNetSlice) (tcp : TcpSlice) : BitVec 32 :=
  let captured := u32OfUsize tcp.payload.length
  let onwireIpLen := match net with
    | .ipv4 _ _ totalLen _ => some totalLen.toNat
    | .ipv6 _ _ payloadLength _ => some (IPV6_HEADER_LEN + payloadLength.toNat)
    | .arp => none
  match onwireIpLen, subsliceOffset ip tcp.start with
  | some onwire, some tcpOffset =>
    let need := tcpOffset + tcp.dataOffset * 4
    if need ≤ ip.length ∧ need ≤ onwire then u32OfUsize (onwire - need) else captured
  | _, _ => captured

def buildFlags (tcp : TcpSlice) : TcpFlags :=
  let set := [(tcp.fin, TcpFlags.FIN), (tcp.syn, TcpFlags.SYN), (tcp.rst, TcpFlags.RST),
    (tcp.psh, TcpFlags.PSH), (tcp.ack, TcpFlags.ACK), (tcp.urg, TcpFlags.URG),
    (tcp.ece, TcpFlags.ECE), (tcp.cwr, TcpFlags.CWR), (tcp.ns, TcpFlags.NS)]
  ⟨set.foldl (fun bits p => if p.1 then bits ||| p.2 else bits) 0⟩

/-- One option added to those parsed so far. -/
def applyOption (opts : TcpOptions) : TcpOptionElement → TcpOptions
  | .maximumSegmentSize v => { opts with mss := some v }
  | .windowScale v => { opts with windowScale := some v }
  | .selectiveAcknowledgementPermitted => { opts with sackPermitted := true }
  | .selectiveAcknowledgement first rest =>
    { opts with sackBlocks := opts.sackBlocks ++ [first] ++ rest.filterMap id }
  | .timestamp a b => { opts with timestamp := some (a, b) }
  | .noop => opts

/-- Malformed options keep what was parsed before. -/
def parseOptions : List (Option TcpOptionElement) → TcpOptions → TcpOptions
  | some element :: rest, opts => parseOptions rest (applyOption opts element)
  | none :: _, opts => opts
  | [], opts => opts

/-- The segment of a TCP slice between two addresses. -/
def segmentOf (ts : Nanos) (ip : Frame) (net : LaxNetSlice) (srcIp dstIp : IpAddr)
    (tcp : TcpSlice) : Segment where
  ts := ts
  flow := ⟨srcIp, tcp.sourcePort, dstIp, tcp.destinationPort⟩
  seq := tcp.sequenceNumber
  ack := tcp.acknowledgmentNumber
  flags := buildFlags tcp
  window := tcp.windowSize
  options := parseOptions tcp.optionsIterator {}
  payloadLen := derivePayloadLen ip net tcp

/-- The transport of a packet whose payload is no fragment. -/
def decodeTransport (lib : Etherparse) (ts : Nanos) (ip : Frame) (sliced : LaxSlicedPacket)
    (net : LaxNetSlice) (srcIp dstIp : IpAddr) (truncated : Bool) : DecodeOutcome :=
  match sliced.transport with
  | some (.tcp tcp) => .decoded (segmentOf ts ip net srcIp dstIp tcp)
  | some (.udp sourcePort payload) =>
    if sourcePort = 53 then
      let obs := parseDnsAnswers lib ts payload
      if obs.isEmpty then .skipped .nonTcp else .names obs
    else .skipped (classifyNoTcp sliced truncated)
  | _ => .skipped (classifyNoTcp sliced truncated)

/-- Decodes a link-layer frame into a segment, DNS names, or a counted skip reason. -/
def decodeFrame (lib : Etherparse) (link : LinkType) (ts : Nanos) (frame : Frame)
    (wireLen : BitVec 32) : DecodeOutcome :=
  let truncated := decide (frame.length < wireLen.toNat)
  match stripLink link frame with
  | .skip reason => .skipped reason
  | .ip ip =>
    match lib.fromIp ip with
    | .error .len => .skipped (if truncated then .truncated else .malformed)
    | .error .content => .skipped .malformed
    | .ok sliced =>
      match sliced.net with
      | none => .skipped .malformed
      | some .arp => .skipped .nonTcp
      | some (.ipv4 src dst totalLen fragmented) =>
        if fragmented then .skipped .ipv6Fragment
        else decodeTransport lib ts ip sliced (.ipv4 src dst totalLen fragmented) (.v4 src)
          (.v4 dst) truncated
      | some (.ipv6 src dst payloadLength fragmented) =>
        if fragmented then .skipped .ipv6Fragment
        else decodeTransport lib ts ip sliced (.ipv6 src dst payloadLength fragmented) (.v6 src)
          (.v6 dst) truncated

section Outcomes

variable {lib : Etherparse} {link : LinkType} {ts : Nanos} {frame : Frame} {wireLen : BitVec 32}

/-- An outcome is a skip, or comes from a transport. -/
lemma decodeFrame_cases {P : DecodeOutcome → Prop} (hskip : ∀ reason, P (.skipped reason))
    (htransport : ∀ ip sliced net src dst truncated,
      P (decodeTransport lib ts ip sliced net src dst truncated)) :
    P (decodeFrame lib link ts frame wireLen) := by
  unfold decodeFrame
  simp only
  split
  · exact hskip _
  · split
    · exact hskip _
    · exact hskip _
    · split
      · exact hskip _
      · exact hskip _
      · split
        · exact hskip _
        · exact htransport ..
      · split
        · exact hskip _
        · exact htransport ..

/-- The decoder never hands over an empty list of names. -/
lemma names_ne_nil {obs : List NameObservation}
    (h : decodeFrame lib link ts frame wireLen = .names obs) : obs ≠ [] := by
  have key : ∀ obs, decodeFrame lib link ts frame wireLen = .names obs → obs ≠ [] := by
    apply decodeFrame_cases (P := fun o => ∀ obs, o = .names obs → obs ≠ [])
    · simp
    · intro ip sliced net src dst truncated obs h
      unfold decodeTransport at h
      split at h
      · simp at h
      · split_ifs at h with hport
        simp only at h
        split_ifs at h with hempty
        obtain rfl := DecodeOutcome.names.inj h
        exact fun hnil => hempty (List.isEmpty_iff.mpr hnil)
      · simp at h
  exact key obs h

/-- The outcome with its times replaced. -/
def DecodeOutcome.stamp (ts : Nanos) : DecodeOutcome → DecodeOutcome
  | .decoded seg => .decoded { seg with ts := ts }
  | .names obs => .names (obs.map fun o => { o with ts := ts })
  | .skipped reason => .skipped reason

lemma parseDnsAnswers_stamp (lib : Etherparse) (ts ts' : Nanos) (payload : Frame) :
    parseDnsAnswers lib ts payload
      = (parseDnsAnswers lib ts' payload).map fun o => { o with ts := ts } := by
  unfold parseDnsAnswers
  cases lib.parseDns payload with
  | none => rfl
  | some answers =>
      simp only [List.map_filterMap]
      congr 1
      funext answer
      cases answer.rdata with
      | a address => simp only [Option.map_map]; rfl
      | aaaa address => simp only [Option.map_map]; rfl
      | other => rfl

lemma decodeTransport_stamp (lib : Etherparse) (ts ts' : Nanos) (ip : Frame)
    (sliced : LaxSlicedPacket) (net : LaxNetSlice) (src dst : IpAddr) (truncated : Bool) :
    decodeTransport lib ts ip sliced net src dst truncated
      = (decodeTransport lib ts' ip sliced net src dst truncated).stamp ts := by
  unfold decodeTransport
  split
  · rfl
  · split_ifs with hport
    · rw [parseDnsAnswers_stamp lib ts ts']
      simp only [List.isEmpty_map]
      split_ifs with hempty
      · rfl
      · rfl
    · rfl
  · rfl

/-- **The time only stamps.** -/
theorem decodeFrame_stamp (lib : Etherparse) (link : LinkType) (ts ts' : Nanos) (frame : Frame)
    (wireLen : BitVec 32) :
    decodeFrame lib link ts frame wireLen
      = (decodeFrame lib link ts' frame wireLen).stamp ts := by
  unfold decodeFrame
  simp only
  split
  · rfl
  · split
    · rfl
    · rfl
    · split
      · rfl
      · rfl
      · split
        · rfl
        · exact decodeTransport_stamp ..
      · split
        · rfl
        · exact decodeTransport_stamp ..

end Outcomes

end TcpVisr
