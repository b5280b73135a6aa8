import TcpVisr.Slicing

/-!
Snapshot lengths: a frame cut short at capture decodes to the very segment of the whole
frame as long as its headers are there, and is counted as truncated otherwise.

The link layer takes the same bytes off a frame and off every cut that leaves them, the
header readers are steady, and the payload length comes from the IP length field.
-/

namespace TcpVisr

open Lib.Readers Lib.IpTcp

/-! ### The link layer -/

/-- `strip` takes `l` bytes off `frame`, and off every cut of it that leaves them. -/
structure Peels (strip : Frame → Stripped) (frame ip : Frame) (l : ℕ) : Prop where
  le : l ≤ frame.length
  eq : ip = frame.drop l
  cut : ∀ n, l ≤ n → strip (frame.take n) = .ip (ip.take (n - l))

lemma be16_take {frame : Frame} {n : ℕ} (hn : 2 ≤ n) : be16 (frame.take n) = be16 frame := by
  match frame, n, hn with
  | [], n, _ => rw [List.take_nil]
  | [x], n + 2, _ => rfl
  | x :: y :: rest, n + 2, _ => rfl

lemma getFrom_take {frame : Frame} {off n : ℕ} (hoff : off ≤ frame.length) (hn : off ≤ n) :
    getFrom (frame.take n) off = some ((frame.drop off).take (n - off)) := by
  have hlen : off ≤ (frame.take n).length := by
    rw [List.length_take]
    omega
  rw [getFrom, if_pos hlen, List.drop_take]

lemma of_getFrom {frame ip : Frame} {off : ℕ} (h : getFrom frame off = some ip) :
    off ≤ frame.length ∧ ip = frame.drop off := by
  unfold getFrom at h
  split_ifs at h with hoff
  exact ⟨hoff, (Option.some.inj h).symm⟩

lemma peels_afterEthertype {frame ip : Frame} {etOff ipOff : ℕ} (hoff : etOff + 2 ≤ ipOff)
    (h : stripAfterEthertype frame etOff ipOff = .ip ip) :
    Peels (fun f => stripAfterEthertype f etOff ipOff) frame ip ipOff := by
  unfold stripAfterEthertype at h
  split at h
  · next et het =>
      split_ifs at h with hip
      split at h
      · next ip' hget =>
          obtain rfl := Stripped.ip.inj h
          obtain ⟨hle, rfl⟩ := of_getFrom hget
          refine ⟨hle, rfl, fun n hn => ?_⟩
          unfold stripAfterEthertype
          rw [List.drop_take, be16_take (by omega), het]
          simp only [if_pos hip, getFrom_take hle hn]
      · simp at h
  · simp at h

lemma stripTags_ip {x y : BitVec 8} {rest : Frame}
    (h : x.toNat * 256 + y.toNat = ETHERTYPE_IPV4 ∨ x.toNat * 256 + y.toNat = ETHERTYPE_IPV6) :
    stripTags (x :: y :: rest) = .ip rest := by
  rw [stripTags.eq_def]
  exact if_pos h

lemma peels_tags {frame ip : Frame} (h : stripTags frame = .ip ip) :
    ∃ l, Peels stripTags frame ip l := by
  fun_induction stripTags frame with
  | case1 x y rest et het =>
      -- IPv4 or IPv6: the ethertype is all there is
      obtain rfl := Stripped.ip.inj h
      refine ⟨2, by simp, rfl, fun n hn => ?_⟩
      obtain ⟨n, rfl⟩ := Nat.exists_eq_add_of_le' hn
      rw [List.take_succ_cons, List.take_succ_cons]
      exact stripTags_ip het
  | case2 x y et hip hvlan a b inner ih =>
      -- a tag, and the rest behind it
      obtain ⟨l, hl⟩ := ih h
      refine ⟨l + 4, ?_, ?_, fun n hn => ?_⟩
      · have := hl.le
        simp only [List.length_cons]
        omega
      · rw [hl.eq]
        rfl
      · obtain ⟨n, rfl⟩ := Nat.exists_eq_add_of_le' (show 4 ≤ n by omega)
        have hcut := hl.cut n (by omega)
        rw [List.take_succ_cons, List.take_succ_cons, List.take_succ_cons, List.take_succ_cons,
          stripTags, if_neg hip, if_pos hvlan]
        rw [show n + 4 - (l + 4) = n - l by omega]
        exact hcut
  | case3 => simp at h
  | case4 => simp at h
  | case5 => simp at h

lemma peels_ethernet {frame ip : Frame} (h : stripEthernet frame = .ip ip) :
    ∃ l, Peels stripEthernet frame ip l := by
  obtain ⟨l, hl⟩ := peels_tags h
  have hlen := hl.le
  rw [List.length_drop] at hlen
  by_cases h12 : frame.length < 12
  · rw [stripEthernet, List.drop_of_length_le h12.le] at h
    simp [stripTags] at h
  · refine ⟨12 + l, by omega, ?_, fun n hn => ?_⟩
    · rw [hl.eq, List.drop_drop]
    · have hcut := hl.cut (n - 12) (by omega)
      rw [stripEthernet, List.drop_take, hcut, Nat.sub_sub]

/-- **A link layer peels off.** -/
theorem peels_link {link : LinkType} {frame ip : Frame} (h : stripLink link frame = .ip ip) :
    ∃ l, Peels (stripLink link) frame ip l := by
  cases link with
  | ethernet => exact peels_ethernet h
  | linuxSll => exact ⟨16, peels_afterEthertype (by omega) h⟩
  | linuxSll2 => exact ⟨20, peels_afterEthertype (by omega) h⟩
  | rawIp =>
      obtain rfl := Stripped.ip.inj h
      exact ⟨0, Nat.zero_le _, rfl, fun n _ => rfl⟩
  | null =>
      unfold stripLink at h
      simp only at h
      split at h
      · next ip' hget =>
          obtain rfl := Stripped.ip.inj h
          obtain ⟨hle, rfl⟩ := of_getFrom hget
          refine ⟨4, hle, rfl, fun n hn => ?_⟩
          simp only [stripLink, getFrom_take hle hn]
      · simp at h

/-! ### The payload length -/

lemma netSlice_onwire (h : IpHeader) (ip : Frame) (tcp : TcpSlice) (need : ℕ)
    (hoff : subsliceOffset ip tcp.start = some (need - 4 * tcp.dataOffset))
    (hdata : 4 * tcp.dataOffset ≤ need) (hlen : need ≤ ip.length) (hwire : need ≤ h.onwire) :
    derivePayloadLen ip (netSlice h) tcp = u32OfUsize (h.onwire - need) := by
  have hneed : need - 4 * tcp.dataOffset + tcp.dataOffset * 4 = need := by omega
  cases h with
  | v4 n source destination totalLen protocol =>
      simp only [netSlice, derivePayloadLen, hoff, hneed]
      exact if_pos ⟨hlen, hwire⟩
  | v6 source destination payloadLen nextHeader =>
      simp only [netSlice, derivePayloadLen, hoff, hneed]
      exact if_pos ⟨hlen, hwire⟩

lemma toNat_u32OfUsize {n : ℕ} (hn : n < 2 ^ 32) : (u32OfUsize n).toNat = n := by
  rw [u32OfUsize, if_pos hn, BitVec.toNat_ofNat, Nat.mod_eq_of_lt hn]

lemma netSlice_payload (options : Bytes → List (Option TcpOptionElement)) {ip : Frame}
    {h : IpHeader} {t : TcpHeader} {need : ℕ} (hdata : 4 * t.dataOffset ≤ need)
    (hlen : need ≤ ip.length) (hwire : need ≤ h.onwire) :
    derivePayloadLen ip (netSlice h) (tcpSlice options ip h t need)
      = u32OfUsize (h.onwire - need) := by
  have hstart : subsliceOffset ip (tcpSlice options ip h t need).start
      = some (need - 4 * t.dataOffset) := by
    have hdef : (tcpSlice options ip h t need).start = (need : ℤ) - 4 * t.dataOffset := rfl
    rw [subsliceOffset, hdef, if_pos (by omega)]
    congr 1
    omega
  exact netSlice_onwire h ip _ need hstart hdata hlen hwire

/-! ### The decoder along the headers -/

def IpHeader.source : IpHeader → IpAddr
  | .v4 _ source _ _ _ => .v4 source
  | .v6 source _ _ _ => .v6 source

def IpHeader.destination : IpHeader → IpAddr
  | .v4 _ _ destination _ _ => .v4 destination
  | .v6 _ destination _ _ => .v6 destination

/-- The segment that a packet's headers spell. -/
def headerSegment (options : Bytes → List (Option TcpOptionElement)) (ts : Nanos) (ip : Frame)
    (h : IpHeader) (t : TcpHeader) (headers : ℕ) : Segment :=
  segmentOf ts ip (netSlice h) (IpHeader.source h) (IpHeader.destination h)
    (tcpSlice options ip h t headers)

section Decoder

variable {lib : Etherparse} {options : Bytes → List (Option TcpOptionElement)}
  (hdoc : Documented lib options) {link : LinkType} {ts : Nanos} {frame ip : Frame}
  {wireLen : BitVec 32} {h : IpHeader} {t : TcpHeader} {k u : ℕ}

include hdoc

lemma decodeFrame_whole (hlink : stripLink link frame = .ip ip) (hip : readIp ip = .done h k)
    (htcp : readTransport h (ip.drop k) = .done t u) :
    decodeFrame lib link ts frame wireLen
      = .decoded (headerSegment options ts ip h t (k + u)) := by
  simp only [decodeFrame, hlink, hdoc.whole ip h k t u hip htcp]
  cases h with
  | v4 n source destination totalLen protocol => rfl
  | v6 source destination payloadLen nextHeader => rfl

lemma decodeFrame_restShort (hlink : stripLink link frame = .ip ip)
    (hip : readIp ip = .done h k) (htcp : readTransport h (ip.drop k) = .short)
    (hcut : frame.length < wireLen.toNat) :
    decodeFrame lib link ts frame wireLen = .skipped .truncated := by
  obtain ⟨layer, hlib⟩ := hdoc.restShort ip h k hip htcp
  simp only [decodeFrame, hlink, hlib, hcut]
  cases h with
  | v4 n source destination totalLen protocol => rfl
  | v6 source destination payloadLen nextHeader => rfl

lemma decodeFrame_ipShort (hlink : stripLink link frame = .ip ip) (hip : readIp ip = .short)
    (hcut : frame.length < wireLen.toNat) :
    decodeFrame lib link ts frame wireLen = .skipped .truncated := by
  simp only [decodeFrame, hlink, hdoc.ipShort ip hip, hcut]
  rfl

end Decoder

/-! ### Cuts -/

/-- An unfragmented TCP frame: a link layer that peels off, an IP header, and within what its
length field bounds, the extension headers and the TCP header. The length field stays within
the frame; what the frame has beyond it is padding. -/
structure TcpFrame (link : LinkType) (frame ip : Frame) (h : IpHeader) (k : ℕ) (t : TcpHeader)
    (u : ℕ) : Prop where
  strip : stripLink link frame = .ip ip
  ip_header : readIp ip = .done h k
  tcp_header : readTransport h (ip.drop k) = .done t u
  onwire_le : h.onwire ≤ ip.length

namespace TcpFrame

variable {link : LinkType} {frame ip : Frame} {h : IpHeader} {k : ℕ} {t : TcpHeader} {u : ℕ}

lemma headers_le_onwire (hf : TcpFrame link frame ip h k t u) : k + u ≤ h.onwire := by
  have hk := headerLen_of_readIp hf.ip_header
  have hle := headerLen_le_onwire hf.ip_header
  have hu := (steady_readSegment h).used_le_limit hf.tcp_header
  omega

lemma headers_le (hf : TcpFrame link frame ip h k t u) : k + u ≤ ip.length :=
  hf.headers_le_onwire.trans hf.onwire_le

/-- The payload length of the segment is what the length field leaves behind the headers. -/
lemma payloadLen (hf : TcpFrame link frame ip h k t u)
    (options : Bytes → List (Option TcpOptionElement)) (ts : Nanos) :
    (headerSegment options ts ip h t (k + u)).payloadLen
      = u32OfUsize (h.onwire - (k + u)) := by
  have hd := dataOffset_le_of_readTransport hf.tcp_header
  exact netSlice_payload options (by omega) hf.headers_le hf.headers_le_onwire

/-- A cut behind the headers spells the same segment. -/
lemma headerSegment_take (hf : TcpFrame link frame ip h k t u)
    (options : Bytes → List (Option TcpOptionElement)) (ts : Nanos) {n : ℕ} (hn : k + u ≤ n) :
    headerSegment options ts (ip.take n) h t (k + u) = headerSegment options ts ip h t (k + u) := by
  have hd := dataOffset_le_of_readTransport hf.tcp_header
  have hle := hf.headers_le
  have hlen : k + u ≤ (ip.take n).length := by
    rw [List.length_take]
    omega
  have hpay : (headerSegment options ts (ip.take n) h t (k + u)).payloadLen
      = (headerSegment options ts ip h t (k + u)).payloadLen := by
    rw [hf.payloadLen]
    exact netSlice_payload options (by omega) hlen hf.headers_le_onwire
  unfold headerSegment segmentOf at hpay ⊢
  simp only at hpay
  rw [hpay]
  rfl

lemma length_payloadBytes (hf : TcpFrame link frame ip h k t u) :
    (payloadBytes ip h (k + u)).length = h.onwire - (k + u) := by
  rw [payloadBytes, List.length_drop, List.length_take, min_eq_left hf.onwire_le]

lemma toNat_payloadLen (hf : TcpFrame link frame ip h k t u)
    (options : Bytes → List (Option TcpOptionElement)) (ts : Nanos) :
    (headerSegment options ts ip h t (k + u)).payloadLen.toNat
      = (payloadBytes ip h (k + u)).length := by
  have hlt := h.onwire_lt
  rw [hf.payloadLen, toNat_u32OfUsize (by omega), hf.length_payloadBytes]

end TcpFrame

/-- **The snaplen law.** A TCP frame decodes to a segment whose payload length is the length
of the payload bytes, padding left out. Cut at or behind the end of its link header, it
decodes to the same segment if the cut leaves the IP and TCP headers, and counts as truncated
otherwise. -/
theorem decodeFrame_take {lib : Etherparse} {options : Bytes → List (Option TcpOptionElement)}
    (hdoc : Documented lib options) (ts : Nanos) {link : LinkType} {frame ip : Frame}
    {h : IpHeader} {t : TcpHeader} {k u : ℕ} (hf : TcpFrame link frame ip h k t u)
    {wireLen : BitVec 32} (hwire : wireLen.toNat = frame.length) :
    ∃ seg, decodeFrame lib link ts frame wireLen = .decoded seg ∧
      seg.payloadLen.toNat = (payloadBytes ip h (k + u)).length ∧
      ∀ n, n < frame.length → frame.length - ip.length ≤ n →
        decodeFrame lib link ts (frame.take n) wireLen =
          if frame.length - ip.length + (k + u) ≤ n then .decoded seg
          else .skipped .truncated := by
  obtain ⟨l, hl⟩ := peels_link hf.strip
  have hll : frame.length - ip.length = l := by
    have := hl.le
    rw [hl.eq, List.length_drop]
    omega
  refine ⟨headerSegment options ts ip h t (k + u),
    decodeFrame_whole hdoc hf.strip hf.ip_header hf.tcp_header, hf.toNat_payloadLen options ts,
    fun n hn hln => ?_⟩
  rw [hll] at hln ⊢
  have hstrip := hl.cut n hln
  have hcut : (frame.take n).length < wireLen.toNat := by
    rw [List.length_take]
    omega
  have hip := steady_readIp.cut hf.ip_header (n - l)
  have htcp := (steady_readTransport h).cut hf.tcp_header (n - l - k)
  rw [← List.drop_take] at htcp
  by_cases hk : k ≤ n - l
  · rw [if_pos hk] at hip
    by_cases hu : u ≤ n - l - k
    · -- both headers are there
      rw [if_pos hu] at htcp
      rw [if_pos (by omega), decodeFrame_whole hdoc hstrip hip htcp,
        hf.headerSegment_take options ts (by omega)]
    · rw [if_neg hu] at htcp
      rw [if_neg (by omega)]
      exact decodeFrame_restShort hdoc hstrip hip htcp hcut
  · rw [if_neg hk] at hip
    rw [if_neg (by omega)]
    exact decodeFrame_ipShort hdoc hstrip hip hcut

/-- Behind a VLAN tag, an IPv4 header with options, a TCP header with an MSS option, three
bytes of payload and two of padding. -/
def taggedFrame : Frame :=
  ([2, 0, 0, 0, 0, 2, 2, 0, 0, 0, 0, 1, 0x81, 0, 0, 5, 0x08, 0,
    0x46, 0, 0, 51, 0, 1, 0, 0, 64, 6, 0, 0, 10, 0, 0, 1, 10, 0, 0, 2, 1, 1, 1, 0,
    0x04, 0xd2, 0, 80, 0, 0, 3, 0xe8, 0, 0, 0, 0, 0x60, 0x18, 0xfa, 0xf0, 0, 0, 0, 0,
    2, 4, 5, 0xb4,
    0xaa, 0xbb, 0xcc, 0, 0] : List ℕ).map (BitVec.ofNat 8)

def taggedIp : IpHeader := .v4 24 0x0a000001#32 0x0a000002#32 51#16 6

def taggedTcp : TcpHeader where
  sourcePort := 1234
  destinationPort := 80
  seq := 1000
  ack := 0
  dataOffset := 6
  flags := 0x18
  window := 64240
  options := [2, 4, 5, 0xb4]

theorem decodeFrame_take_tagged :
    ∃ seg, decodeFrame headerSlicer .ethernet ⟨0, by decide⟩ taggedFrame 71#32 = .decoded seg ∧
      seg.payloadLen.toNat = (payloadBytes (taggedFrame.drop 18) taggedIp (24 + 24)).length ∧
      ∀ n, n < taggedFrame.length → taggedFrame.length - (taggedFrame.drop 18).length ≤ n →
        decodeFrame headerSlicer .ethernet ⟨0, by decide⟩ (taggedFrame.take n) 71#32 =
          if taggedFrame.length - (taggedFrame.drop 18).length + (24 + 24) ≤ n then .decoded seg
          else .skipped .truncated :=
  decodeFrame_take documented_headerSlicer ⟨0, by decide⟩ (t := taggedTcp)
    ⟨by decide +kernel, by decide +kernel, by decide +kernel, by decide +kernel⟩
    (by decide +kernel)

end TcpVisr
