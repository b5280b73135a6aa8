import TcpVisr.Replay
import TcpVisr.Snaplen

/-!
What a link layer puts in front of IP bytes.

A header is given here by what it is made of, so that it can be written; the stripping loop
only ever reads. The two are inverse: a frame is stripped to IP bytes exactly if it is a
header that announces IP with those bytes behind it. Which link layer a capture was taken on,
and how many tags its frames carry, can then not be told from what is decoded of it.
-/

namespace TcpVisr.Framing

/-- Two bytes, a big-endian `u16`. -/
structure Pair where
  hi : BitVec 8
  lo : BitVec 8
  deriving DecidableEq

namespace Pair

def value (p : Pair) : ℕ := p.hi.toNat * 256 + p.lo.toNat

def bytes (p : Pair) : Frame := [p.hi, p.lo]

def IsIp (p : Pair) : Prop := p.value = ETHERTYPE_IPV4 ∨ p.value = ETHERTYPE_IPV6

def IsVlan (p : Pair) : Prop := p.value = VLAN_8021Q ∨ p.value = VLAN_8021AD

instance (p : Pair) : Decidable p.IsIp := inferInstanceAs (Decidable (_ ∨ _))

instance (p : Pair) : Decidable p.IsVlan := inferInstanceAs (Decidable (_ ∨ _))

lemma not_isVlan_of_isIp {p : Pair} (h : p.IsIp) : ¬ p.IsVlan := by
  simp only [IsIp, IsVlan, ETHERTYPE_IPV4, ETHERTYPE_IPV6, VLAN_8021Q, VLAN_8021AD] at *
  omega

end Pair

/-- `n` bytes. -/
abbrev Octets (n : ℕ) := { b : Frame // b.length = n }

/-- A VLAN tag. -/
structure Tag where
  tpid : Pair
  tci : Pair
  vlan : tpid.IsVlan

def Tag.bytes (t : Tag) : Frame := t.tpid.bytes ++ t.tci.bytes

/-- A link-layer header. -/
inductive Header
  | ethernet (addresses : Octets 12) (tags : List Tag) (type : Pair) (untagged : ¬ type.IsVlan)
  | linuxSll (lead : Octets 14) (type : Pair)
  | linuxSll2 (type : Pair) (rest : Octets 18)
  | rawIp
  | null (family : Octets 4)

namespace Header

def link : Header → LinkType
  | ethernet .. => .ethernet
  | linuxSll .. => .linuxSll
  | linuxSll2 .. => .linuxSll2
  | rawIp => .rawIp
  | null _ => .null

/-- Whether IP bytes follow. Where nothing says so they are taken to. -/
def CarriesIp : Header → Prop
  | ethernet _ _ type _ | linuxSll _ type | linuxSll2 type _ => type.IsIp
  | rawIp | null _ => True

/-- The bytes up to the end of the ethertype. -/
def upToType : Header → Frame
  | ethernet addresses tags type _ => addresses.val ++ tags.flatMap Tag.bytes ++ type.bytes
  | linuxSll lead type => lead.val ++ type.bytes
  | linuxSll2 type _ => type.bytes
  | rawIp => []
  | null family => family.val

/-- The bytes behind the ethertype. -/
def behind : Header → Frame
  | linuxSll2 _ rest => rest.val
  | _ => []

def encode (h : Header) : Frame := h.upToType ++ h.behind

instance : ∀ h : Header, Decidable h.CarriesIp
  | ethernet _ _ type _ | linuxSll _ type | linuxSll2 type _ =>
    inferInstanceAs (Decidable type.IsIp)
  | rawIp | null _ => isTrue trivial

/-- The bytes that tell what follows. -/
def telling (h : Header) : Frame := if h.CarriesIp then h.encode else h.upToType

end Header

/-! ### Reading what was written -/

section Strip

variable {rest ip frame : Frame}

lemma be16_bytes (p : Pair) (rest : Frame) : be16 (p.bytes ++ rest) = some p.value := rfl

lemma drop_octets {n : ℕ} (b : Octets n) (rest : Frame) : (b.val ++ rest).drop n = rest := by
  rw [List.drop_append_of_le_length b.property.ge, List.drop_of_length_le b.property.le]
  rfl

/-- A frame of `n` bytes or more starts with `n` bytes. -/
lemma split_octets {n : ℕ} (h : n ≤ frame.length) :
    ∃ b : Octets n, frame = b.val ++ frame.drop n :=
  ⟨⟨frame.take n, by simp [h]⟩, (List.take_append_drop n frame).symm⟩

lemma be16_eq_some {v : ℕ} (h : be16 frame = some v) :
    ∃ p : Pair, p.value = v ∧ frame = p.bytes ++ frame.drop 2 := by
  match frame with
  | x :: y :: rest => exact ⟨⟨x, y⟩, Option.some.inj h, rfl⟩
  | [_] => simp [be16] at h
  | [] => simp [be16] at h

/-- One turn of the loop. -/
lemma stripTags_pair (p : Pair) (rest : Frame) : stripTags (p.bytes ++ rest) =
    if p.IsIp then .ip rest
    else if p.IsVlan then
      match rest with
      | _ :: _ :: inner => stripTags inner
      | _ => .skip .malformed
    else .skip .nonTcp := by
  change stripTags (p.hi :: p.lo :: rest) = _
  rw [stripTags.eq_def]
  rfl

/-- The tags are skipped one by one. -/
lemma stripTags_tags (tags : List Tag) (rest : Frame) :
    stripTags (tags.flatMap Tag.bytes ++ rest) = stripTags rest := by
  induction tags with
  | nil => rfl
  | cons t tags ih =>
      rw [List.flatMap_cons, Tag.bytes, List.append_assoc, List.append_assoc, stripTags_pair,
        if_neg fun h => Pair.not_isVlan_of_isIp h t.vlan, if_pos t.vlan]
      exact ih

/-- What follows the last tag decides. -/
lemma stripTags_type {type : Pair} (h : ¬ type.IsVlan) (rest : Frame) :
    stripTags (type.bytes ++ rest) = if type.IsIp then .ip rest else .skip .nonTcp := by
  rw [stripTags_pair, if_neg h]

/-- **The loop** comes to an ethertype behind any number of tags, or to the end of the frame. -/
lemma stripTags_cases (frame : Frame) :
    (∃ (tags : List Tag) (type : Pair) (rest : Frame), ¬ type.IsVlan ∧
      frame = tags.flatMap Tag.bytes ++ (type.bytes ++ rest)) ∨
    stripTags frame = .skip .malformed := by
  fun_induction stripTags frame with
  | case1 x y rest et hip =>
      exact .inl ⟨[], ⟨x, y⟩, rest, Pair.not_isVlan_of_isIp hip, rfl⟩
  | case2 x y et hip hvlan a b inner ih =>
      rcases ih with ⟨tags, type, rest, htype, rfl⟩ | heq
      · exact .inl ⟨⟨⟨x, y⟩, ⟨a, b⟩, hvlan⟩ :: tags, type, rest, htype, rfl⟩
      · exact .inr heq
  | case3 => exact .inr rfl
  | case4 x y rest et hip hvlan => exact .inl ⟨[], ⟨x, y⟩, rest, hvlan, rfl⟩
  | case5 => exact .inr rfl

/-- **Where an ethertype decides**, IP bytes are what is `n` bytes in. -/
lemma stripAfterEthertype_bytes {lead : Frame} {type : Pair} {etOff ipOff : ℕ}
    (h : lead.length = etOff) (rest : Frame) :
    stripAfterEthertype (lead ++ (type.bytes ++ rest)) etOff ipOff =
      if type.IsIp then
        match getFrom (lead ++ (type.bytes ++ rest)) ipOff with
        | some ip => .ip ip
        | none => .skip .malformed
      else .skip .nonTcp := by
  subst h
  unfold stripAfterEthertype
  rw [List.drop_left, be16_bytes]
  rfl

lemma stripAfterEthertype_cases (frame : Frame) (etOff ipOff : ℕ) :
    (∃ (lead : Octets etOff) (type : Pair) (rest : Frame),
      frame = lead.val ++ (type.bytes ++ rest)) ∨
    stripAfterEthertype frame etOff ipOff = .skip .malformed := by
  cases h : be16 (frame.drop etOff) with
  | none => exact .inr (by simp [stripAfterEthertype, h])
  | some v =>
      obtain ⟨type, -, hdrop⟩ := be16_eq_some h
      have hlen : etOff ≤ frame.length := by
        by_contra hlt
        rw [List.drop_of_length_le (by omega)] at h
        simp [be16] at h
      obtain ⟨lead, hlead⟩ := split_octets hlen
      exact .inl ⟨lead, type, _, by rw [← hdrop]; exact hlead⟩

end Strip

namespace Header

variable {h : Header}

/-- **What was written is read.** -/
lemma strip_encode (hip : h.CarriesIp) (ip : Frame) :
    stripLink h.link (h.encode ++ ip) = .ip ip := by
  unfold encode
  cases h with
  | ethernet addresses tags type untagged =>
      change stripTags (List.drop 12 _) = _
      simp only [upToType, behind, List.append_nil, List.append_assoc, drop_octets]
      rw [stripTags_tags, stripTags_type untagged]
      exact if_pos hip
  | linuxSll lead type =>
      change stripAfterEthertype _ 14 16 = _
      have hget : getFrom (lead.val ++ (type.bytes ++ ip)) 16 = some ip := by
        have hlen : (lead.val ++ type.bytes).length = 16 := by simp [lead.property, Pair.bytes]
        rw [← List.append_assoc, getFrom, if_pos (by simp [← hlen]), ← hlen, List.drop_left]
      simp only [upToType, behind, List.append_nil, List.append_assoc]
      rw [stripAfterEthertype_bytes lead.property, hget]
      exact if_pos hip
  | linuxSll2 type rest =>
      have hget : getFrom ([] ++ (type.bytes ++ (rest.val ++ ip))) 20 = some ip := by
        have hlen : (type.bytes ++ rest.val).length = 20 := by simp [rest.property, Pair.bytes]
        rw [List.nil_append, ← List.append_assoc, getFrom, if_pos (by simp [← hlen]), ← hlen,
          List.drop_left]
      simp only [link, stripLink, upToType, behind, List.append_assoc]
      rw [← List.nil_append (type.bytes ++ _), stripAfterEthertype_bytes List.length_nil, hget]
      exact if_pos hip
  | rawIp => rfl
  | null family =>
      have hget : getFrom (family.val ++ ip) 4 = some ip := by
        rw [getFrom, if_pos (by simp [family.property]), drop_octets]
      simp only [upToType, behind, List.append_nil, link, stripLink, hget]

/-- Another protocol is seen at the ethertype. -/
lemma strip_other (hip : ¬ h.CarriesIp) (rest : Frame) :
    stripLink h.link (h.upToType ++ rest) = .skip .nonTcp := by
  cases h with
  | ethernet addresses tags type untagged =>
      change stripTags (List.drop 12 _) = _
      simp only [upToType, List.append_assoc, drop_octets]
      rw [stripTags_tags, stripTags_type untagged]
      exact if_neg hip
  | linuxSll lead type =>
      change stripAfterEthertype _ 14 16 = _
      simp only [upToType, List.append_assoc]
      rw [stripAfterEthertype_bytes lead.property]
      exact if_neg hip
  | linuxSll2 type trail =>
      simp only [link, stripLink, upToType]
      rw [← List.nil_append (type.bytes ++ _), stripAfterEthertype_bytes List.length_nil]
      exact if_neg hip
  | rawIp => exact absurd trivial hip
  | null family => exact absurd trivial hip

end Header

/-- A stripped frame is IP bytes, another protocol's, or too short. -/
lemma strip_outcome (link : LinkType) (frame : Frame) :
    (∃ h : Header, h.link = link ∧ h.CarriesIp ∧ ∃ ip, frame = h.encode ++ ip) ∨
    (∃ h : Header, h.link = link ∧ ¬ h.CarriesIp ∧ h.upToType <+: frame) ∨
    stripLink link frame = .skip .malformed := by
  cases link with
  | ethernet =>
      rcases stripTags_cases (frame.drop 12) with ⟨tags, type, rest, htype, hdrop⟩ | hbad
      · have hlen : 12 ≤ frame.length := by
          by_contra hlt
          have := congrArg List.length hdrop
          simp [Pair.bytes] at this
          omega
        obtain ⟨addresses, haddr⟩ := split_octets hlen
        rw [hdrop, ← List.append_assoc, ← List.append_assoc] at haddr
        by_cases hip : type.IsIp
        · refine .inl ⟨.ethernet addresses tags type htype, rfl, hip, rest, ?_⟩
          simpa [Header.encode, Header.upToType, Header.behind] using haddr
        · exact .inr (.inl ⟨.ethernet addresses tags type htype, rfl, hip, rest, haddr.symm⟩)
      · exact .inr (.inr hbad)
  | linuxSll =>
      rcases stripAfterEthertype_cases frame 14 16 with ⟨lead, type, rest, hf⟩ | hbad
      · rw [← List.append_assoc] at hf
        by_cases hip : type.IsIp
        · refine .inl ⟨.linuxSll lead type, rfl, hip, rest, ?_⟩
          simpa [Header.encode, Header.upToType, Header.behind] using hf
        · exact .inr (.inl ⟨.linuxSll lead type, rfl, hip, rest, hf.symm⟩)
      · exact .inr (.inr hbad)
  | linuxSll2 =>
      rcases stripAfterEthertype_cases frame 0 20 with ⟨⟨lead, hlead⟩, type, rest, hf⟩ | hbad
      · obtain rfl := List.length_eq_zero_iff.mp hlead
        by_cases hip : type.IsIp
        · by_cases hlen : 18 ≤ rest.length
          · obtain ⟨trail, htrail⟩ := split_octets hlen
            refine .inl ⟨.linuxSll2 type trail, rfl, hip, rest.drop 18, ?_⟩
            simpa [Header.encode, Header.upToType, Header.behind, ← htrail] using hf
          · refine .inr (.inr ?_)
            have hget : getFrom ([] ++ (type.bytes ++ rest)) 20 = none := by
              rw [getFrom, if_neg (by simp [Pair.bytes]; omega)]
            rw [hf, stripLink, stripAfterEthertype_bytes List.length_nil, if_pos hip, hget]
        · refine .inr (.inl ⟨.linuxSll2 type ⟨List.replicate 18 0, by simp⟩, rfl, hip, rest, ?_⟩)
          exact hf.symm
      · exact .inr (.inr hbad)
  | rawIp => exact .inl ⟨.rawIp, rfl, trivial, frame, rfl⟩
  | null =>
      by_cases hlen : 4 ≤ frame.length
      · obtain ⟨family, hf⟩ := split_octets hlen
        refine .inl ⟨.null family, rfl, trivial, frame.drop 4, ?_⟩
        simpa [Header.encode, Header.upToType, Header.behind] using hf
      · exact .inr (.inr (by simp [stripLink, getFrom, hlen]))

/-- **What is accepted is well formed.** A frame is stripped to IP bytes exactly if it is a
header of its link type that announces IP with those bytes behind it; it is another protocol's
exactly if its header says so; and it is malformed exactly if it ends before it tells. -/
theorem strips_iff (link : LinkType) (frame : Frame) :
    (∀ ip, stripLink link frame = .ip ip ↔
      ∃ h : Header, h.link = link ∧ h.CarriesIp ∧ frame = h.encode ++ ip) ∧
    (stripLink link frame = .skip .nonTcp ↔
      ∃ h : Header, h.link = link ∧ ¬ h.CarriesIp ∧ h.upToType <+: frame) ∧
    (stripLink link frame = .skip .malformed ↔
      ∀ h : Header, h.link = link → ¬ h.telling <+: frame) := by
  have hip : ∀ h : Header, h.link = link → h.CarriesIp → ∀ ip, frame = h.encode ++ ip →
      stripLink link frame = .ip ip := by
    rintro h rfl hc ip rfl
    exact Header.strip_encode hc ip
  have hother : ∀ h : Header, h.link = link → ¬ h.CarriesIp → h.upToType <+: frame →
      stripLink link frame = .skip .nonTcp := by
    rintro h rfl hc ⟨rest, rfl⟩
    exact Header.strip_other hc rest
  have hcases := strip_outcome link frame
  refine ⟨fun ip => ⟨fun heq => ?_, fun ⟨h, hl, hc, hf⟩ => hip h hl hc ip hf⟩,
    ⟨fun heq => ?_, fun ⟨h, hl, hc, hf⟩ => hother h hl hc hf⟩, fun heq h hl hpre => ?_,
    fun hno => ?_⟩
  · rcases hcases with ⟨h, hl, hc, ip', hf⟩ | ⟨h, hl, hc, hf⟩ | hbad
    · obtain rfl := Stripped.ip.inj ((hip h hl hc ip' hf).symm.trans heq)
      exact ⟨h, hl, hc, hf⟩
    · simp [hother h hl hc hf] at heq
    · simp [hbad] at heq
  · rcases hcases with ⟨h, hl, hc, ip', hf⟩ | ⟨h, hl, hc, hf⟩ | hbad
    · simp [hip h hl hc ip' hf] at heq
    · exact ⟨h, hl, hc, hf⟩
    · simp [hbad] at heq
  · unfold Header.telling at hpre
    split_ifs at hpre with hc
    · obtain ⟨ip, hf⟩ := hpre
      simp [hip h hl hc ip hf.symm] at heq
    · simp [hother h hl hc hpre] at heq
  · rcases hcases with ⟨h, hl, hc, ip, hf⟩ | ⟨h, hl, hc, hf⟩ | hbad
    · refine absurd ?_ (hno h hl)
      rw [Header.telling, if_pos hc, hf]
      exact List.prefix_append _ _
    · refine absurd ?_ (hno h hl)
      rwa [Header.telling, if_neg hc]
    · exact hbad

/-! ### Captures that differ in their link layer -/

/-- The link-type number of raw IP. -/
def rawIpDlt : BitVec 32 := 101

lemma dltToLink_rawIpDlt : dltToLink rawIpDlt = .ok .rawIp := by
  decide +kernel

section Reframed

variable {lib : Etherparse} {path : String} {link : LinkType}

/-- A frame of `link` that carries the IP bytes `ip`, and their lengths on the wire. -/
def Carries (link : LinkType) (frame : Frame) (wireLen : BitVec 32) (ip : Frame)
    (ipLen : BitVec 32) : Prop :=
  ∃ h : Header, h.link = link ∧ h.CarriesIp ∧ frame = h.encode ++ ip ∧
    wireLen.toNat = h.encode.length + ipLen.toNat

/-- What is decoded of a frame is what is decoded of the IP bytes it carries. -/
lemma decodeFrame_carries {frame ip : Frame} {wireLen ipLen : BitVec 32}
    (h : Carries link frame wireLen ip ipLen) (ts : Nanos) :
    decodeFrame lib link ts frame wireLen = decodeFrame lib .rawIp ts ip ipLen := by
  obtain ⟨header, rfl, hip, rfl, hlen⟩ := h
  have hcut : decide ((header.encode ++ ip).length < wireLen.toNat) =
      decide (ip.length < ipLen.toNat) := by
    rw [decide_eq_decide, List.length_append, hlen]
    omega
  unfold decodeFrame
  rw [Header.strip_encode hip ip, hcut]
  rfl

/-- The same block of a capture on `link`, and of one of raw IP. -/
inductive Reframed (link : LinkType) : Block → Block → Prop
  | legacyHeader {network : BitVec 32} (magic : BitVec 32) (h : dltToLink network = .ok link) :
      Reframed link (.legacyHeader network magic) (.legacyHeader rawIpDlt magic)
  | legacy (sec usec : BitVec 32) {frame ip : Frame} {wireLen ipLen : BitVec 32}
      (h : Carries link frame wireLen ip ipLen) :
      Reframed link (.legacy sec usec wireLen frame) (.legacy sec usec ipLen ip)
  | sectionHeader : Reframed link .sectionHeader .sectionHeader
  | interfaceDescription {linktype : BitVec 32} (resolution : Option ℕ)
      (h : dltToLink linktype = .ok link) :
      Reframed link (.interfaceDescription linktype resolution)
        (.interfaceDescription rawIpDlt resolution)
  | enhancedPacket (ifId high low : BitVec 32) {frame ip : Frame} {wireLen ipLen : BitVec 32}
      (h : Carries link frame wireLen ip ipLen) :
      Reframed link (.enhancedPacket ifId high low wireLen frame)
        (.enhancedPacket ifId high low ipLen ip)
  | simplePacket (wireLen ipLen : BitVec 32) (frame ip : Frame) :
      Reframed link (.simplePacket wireLen frame) (.simplePacket ipLen ip)
  | other : Reframed link .other .other

/-- A state of the faucet on raw IP, as it is on another link layer. -/
def relink (link : LinkType) (s : State) : State :=
  { s with linkType := s.linkType.map fun _ => link }

/-- No other link type was described. -/
def OnRawIp (s : State) : Prop := ∀ l ∈ s.linkType, l = .rawIp

/-- What a step on raw IP comes to on another link layer. -/
def relinked (link : LinkType) (e : Except IngestError (State × Yield)) :
    Except IngestError (State × Yield) :=
  e.map fun p => (relink link p.1, p.2)

lemma processPacket_relink {s : State} {frame ip : Frame} {wireLen ipLen : BitVec 32}
    (h : Carries link frame wireLen ip ipLen) (hs : OnRawIp s) (absNs : ℕ) :
    processPacket lib path (relink link s) absNs wireLen frame =
      relinked link (processPacket lib path s absNs ipLen ip) := by
  unfold processPacket
  cases hl : s.linkType with
  | none => simp [relink, hl, relinked, Except.map]
  | some l =>
      obtain rfl := hs l hl
      have hts : relativeTs (relink link s) absNs = relativeTs s absNs := rfl
      simp only [relink, hl, Option.map_some] at hts ⊢
      rw [hts, decodeFrame_carries h]
      cases decodeFrame lib .rawIp (relativeTs s absNs) ip ipLen with
      | decoded seg => simp [relinked, Except.map, relink, baselineOf]
      | names obs => simp [relinked, Except.map, relink, baselineOf]
      | skipped reason => simp [relinked, Except.map, relink, baselineOf]

lemma describeInterface_relink {s : State} {linktype : BitVec 32}
    (h : dltToLink linktype = .ok link) (hs : OnRawIp s) (resolution : Option ℕ) :
    describeInterface path (relink link s) linktype resolution =
      relinked link (describeInterface path s rawIpDlt resolution) := by
  have hmixed : ¬ ((relink link s).linkType ≠ none ∧ (relink link s).linkType ≠ some link) := by
    cases hl : s.linkType <;> simp [relink, hl]
  have hmixed' : ¬ (s.linkType ≠ none ∧ s.linkType ≠ some .rawIp) := by
    cases hl : s.linkType with
    | none => simp
    | some l => simp [hs l hl]
  unfold describeInterface
  simp only [h, dltToLink_rawIpDlt, if_neg hmixed, if_neg hmixed']
  cases resolution with
  | none => rfl
  | some ticks =>
      cases hn : nanosPerTick ticks with
      | none => simp [hn, relinked, Except.map]
      | some npt => simp [hn, relinked, Except.map, relink]

/-- One block. -/
lemma handleBlock_relink {b b' : Block} (h : Reframed link b b') {s : State} (hs : OnRawIp s) :
    handleBlock lib path (relink link s) b = relinked link (handleBlock lib path s b') := by
  cases h with
  | legacyHeader magic h =>
      simp [handleBlock, h, dltToLink_rawIpDlt, relinked, Except.map, relink]
  | legacy sec usec h => exact processPacket_relink h hs _
  | interfaceDescription resolution h => exact describeInterface_relink h hs resolution
  | enhancedPacket ifId high low h => exact processPacket_relink h hs _
  | sectionHeader => rfl
  | simplePacket => rfl
  | other => rfl

lemma linkType_processPacket {s s' : State} {y : Yield} {absNs : ℕ} {wireLen : BitVec 32}
    {frame : Frame} (hok : processPacket lib path s absNs wireLen frame = .ok (s', y)) :
    s'.linkType = s.linkType := by
  unfold processPacket at hok
  simp only at hok
  split at hok
  · simp at hok
  · split at hok <;> (obtain ⟨rfl, rfl⟩ := Prod.mk.inj (Except.ok.inj hok); rfl)

lemma onRawIp_handleBlock {b b' : Block} (h : Reframed link b b') {s s' : State} {y : Yield}
    (hs : OnRawIp s) (hok : handleBlock lib path s b' = .ok (s', y)) : OnRawIp s' := by
  unfold OnRawIp
  cases h with
  | legacyHeader magic h =>
      simp only [handleBlock, dltToLink_rawIpDlt] at hok
      obtain ⟨rfl, rfl⟩ := Prod.mk.inj (Except.ok.inj hok)
      simp
  | interfaceDescription resolution h =>
      have hdesc : describeInterface path s rawIpDlt resolution = .ok (s', y) := hok
      obtain ⟨l, npt, hl, -, -, rfl⟩ := describeInterface_ok hdesc
      obtain rfl := Except.ok.inj (hl.symm.trans dltToLink_rawIpDlt)
      simp
  | legacy sec usec h => rwa [linkType_processPacket hok]
  | enhancedPacket ifId high low h => rwa [linkType_processPacket hok]
  | sectionHeader | simplePacket | other =>
      obtain ⟨rfl, rfl⟩ := Prod.mk.inj (Except.ok.inj hok)
      exact hs

/-- A reading on another link layer than raw IP, beside one on raw IP. -/
def Alike (link : LinkType) (r r' : Reading) : Prop :=
  OnRawIp r'.state ∧ r = { r' with state := relink link r'.state }

lemma alike_next {r r' : Reading} {b b' : Block} (hr : Alike link r r')
    (hb : Reframed link b b') : Alike link (r.next lib path b) (r'.next lib path b') := by
  obtain ⟨state, items, names, failed⟩ := r'
  obtain ⟨hraw, rfl⟩ := hr
  cases failed with
  | some e => exact ⟨hraw, rfl⟩
  | none =>
      simp only [Reading.next, handleBlock_relink hb hraw]
      cases hok : handleBlock lib path state b' with
      | error e => exact ⟨hraw, rfl⟩
      | ok p => exact ⟨onRawIp_handleBlock hb hraw hok, rfl⟩

lemma alike_readBlocks {blocks blocks' : List Block}
    (h : List.Forall₂ (Reframed link) blocks blocks') :
    Alike link (readBlocks lib path blocks) (readBlocks lib path blocks') := by
  have hstart : Alike link ({} : Reading) {} := ⟨by simp [OnRawIp], rfl⟩
  exact List.rel_foldl (R := Reframed link) (fun _ _ hr _ _ hb => alike_next hr hb) hstart h

/-- **The link layer does not show.** A capture on any link layer, each frame with its own
header and tags, comes to the same segments, names, skip counts and errors as one of the IP
packets alone. -/
theorem reads_as_rawIp {blocks blocks' : List Block}
    (h : List.Forall₂ (Reframed link) blocks blocks') (failure : Option String) :
    parseFile lib path (.ok (.ok ⟨blocks, failure⟩)) =
      (parseFile lib path (.ok (.ok ⟨blocks', failure⟩))).map fun parse =>
        { parse with linkType := link } := by
  have halike : Alike link (readBlocks lib path blocks) (readBlocks lib path blocks') :=
    alike_readBlocks h
  obtain ⟨-, heq⟩ := halike
  unfold parseFile parseFileVisitNamed
  simp only [heq]
  generalize readBlocks lib path blocks' = r
  cases r.failed with
  | some e => rfl
  | none =>
      cases failure with
      | some detail => rfl
      | none => cases hl : r.state.linkType <;> simp [relink, hl, Except.map]

end Reframed

/-- An Ethernet header with a VLAN tag, in front of IPv4. -/
def tagged : Header :=
  .ethernet ⟨List.replicate 12 0, rfl⟩ [⟨⟨0x81, 0⟩, ⟨0, 5⟩, .inl rfl⟩] ⟨0x08, 0⟩ (by decide)

/-- A capture of one packet behind that header. -/
def taggedCapture (ip : Frame) : List Block :=
  [.legacyHeader 1 0xa1b2c3d4#32,
    .legacy 5 0 (BitVec.ofNat 32 (18 + ip.length)) (tagged.encode ++ ip)]

theorem reads_as_rawIp_tagged :
    parseFile headerSlicer "cap" (.ok (.ok ⟨taggedCapture [0x45, 0], none⟩)) =
      (parseFile headerSlicer "cap" (.ok (.ok ⟨[.legacyHeader rawIpDlt 0xa1b2c3d4#32,
        .legacy 5 0 2 [0x45, 0]], none⟩))).map fun parse => { parse with linkType := .ethernet } :=
  reads_as_rawIp
    (.cons (.legacyHeader _ (by decide +kernel)) (.cons
      (.legacy 5 0 ⟨tagged, rfl, .inl rfl, rfl, by decide +kernel⟩) .nil)) none

end TcpVisr.Framing
