import TcpVisr.Scaling

/-!
The libpcap file faucet, beside the pure one.

libpcap hands out a packet's time as seconds and microseconds, where the pure faucet reads
ticks. Both make nanoseconds of it and subtract those of the first packet. They agree on a
file of microsecond interfaces exactly as long as the nanoseconds fit a `u64`: past that the
pure faucet saturates, and this one does not.
-/

namespace TcpVisr

open Lib.Runs

/-- What becomes of `u64` arithmetic that leaves the range: a debug build panics, a release
build wraps. -/
inductive Build
  | debug | release
  deriving DecidableEq

/-- The `u64` an operation leaves whose exact result is `n`, unless it panics. -/
def Build.word (build : Build) (n : ℕ) : Option ℕ :=
  if n ≤ u64Max then some n
  else
    match build with
    | .debug => none
    | .release => some (n % 2 ^ 64)

namespace Libpcap

/-- A packet as libpcap delivers it: the `timeval` of its header, its length on the wire and
the bytes captured. -/
structure Packet where
  tvSec : ℤ
  tvUsec : ℤ
  len : BitVec 32
  data : Frame
  deriving DecidableEq

/-- What libpcap makes of an open file: its link type, the packets it delivers, and the error
that ends them unless there are no more. -/
structure Capture where
  datalink : BitVec 32
  packets : List Packet
  failure : Option String := none

/-- `sec * 1_000_000_000 + usec * 1_000`, where a negative field counts as zero. -/
def Packet.absNs (build : Build) (p : Packet) : Option ℕ := do
  let sec := p.tvSec.toNat
  let usec := p.tvUsec.toNat
  let whole ← build.word (sec * NS_PER_SEC)
  let part ← build.word (usec * 1000)
  build.word (whole + part)

/-- The faucet between two packets. -/
structure Taking where
  items : List Item := []
  names : List NameObservation := []
  skipped : SkipCounts := {}
  baseline : Option ℕ := none
  deriving DecidableEq

/-- `absNs` after the baseline, which is the first packet's. -/
def Taking.relativeTs (t : Taking) (absNs : ℕ) : Nanos :=
  Nanos.sat (absNs - t.baseline.getD absNs)

/-- One packet of the loop. -/
def Taking.next (build : Build) (lib : Etherparse) (link : LinkType) (t : Taking) (p : Packet) :
    Option Taking := do
  let absNs ← p.absNs build
  let ts := t.relativeTs absNs
  let t := { t with baseline := some (t.baseline.getD absNs) }
  return match decodeFrame lib link ts p.data p.len with
    | .decoded seg => { t with items := t.items ++ [.segment seg] }
    | .names obs => { t with names := t.names ++ obs }
    | .skipped reason => { t with skipped := t.skipped.record reason }

/-- Parses a capture file via libpcap's offline reader. -/
def parseFileLibpcap (build : Build) (lib : Etherparse) (path : String)
    (file : Except String Capture) : Option (Except IngestError ReplayParse) :=
  match file with
  | .error detail => some (.error (.container path detail))
  | .ok capture =>
    match dltToLink capture.datalink with
    | .error e => some (.error e)
    | .ok link => do
      let t ← capture.packets.foldlM (Taking.next build lib link) {}
      return match capture.failure with
        | some detail => .error (.container path detail)
        | none => .ok ⟨t.items, t.skipped, link, t.names⟩

/-! ### Times -/

/-- The times this faucet computes, packet by packet. -/
def stamps (build : Build) (lib : Etherparse) (link : LinkType) :
    Taking → List Packet → Option (List Nanos)
  | _, [] => some []
  | t, p :: ps => do
    let absNs ← p.absNs build
    let next ← t.next build lib link p
    let rest ← stamps build lib link next ps
    return t.relativeTs absNs :: rest

end Libpcap

/-- The nanoseconds `handle_block` makes of a packet's timestamp. -/
def State.absNs (s : State) : Block → Option ℕ
  | .legacy tsSec tsUsec _ _ =>
    some (satAdd (satMul tsSec.toNat NS_PER_SEC) (satMul tsUsec.toNat s.nanosPerTick))
  | .enhancedPacket _ tsHigh tsLow _ _ => some (satMul (ticksOf tsHigh tsLow) s.nanosPerTick)
  | _ => none

/-- The times the pure faucet computes, packet by packet. -/
def stamps (lib : Etherparse) (path : String) : Reading → List Block → List Nanos
  | _, [] => []
  | r, b :: bs =>
    ((r.state.absNs b).map (relativeTs r.state)).toList ++ stamps lib path (r.next lib path b) bs

/-! ### Files of microsecond ticks -/

/-- A packet record of a file: the microseconds of its timestamp, its length on the wire and
the bytes captured. -/
structure PacketRecord where
  ticks : ℕ
  origlen : BitVec 32
  data : Frame
  deriving DecidableEq

namespace Block

/-- The packet record of a block that carries one. -/
def record : Block → Option PacketRecord
  | .legacy tsSec tsUsec origlen data =>
    some ⟨tsSec.toNat * 1000000 + tsUsec.toNat, origlen, data⟩
  | .enhancedPacket _ tsHigh tsLow origlen data => some ⟨ticksOf tsHigh tsLow, origlen, data⟩
  | _ => none

/-- No product and no sum that `handle_block` makes of a packet's timestamp leaves the `u64`
range. -/
def Fits : Block → Prop
  | .legacy tsSec tsUsec _ _ =>
    tsSec.toNat * NS_PER_SEC ≤ u64Max ∧ tsUsec.toNat * MICRO_TICK_NS ≤ u64Max ∧
      tsSec.toNat * NS_PER_SEC + tsUsec.toNat * MICRO_TICK_NS ≤ u64Max
  | .enhancedPacket _ tsHigh tsLow _ _ => ticksOf tsHigh tsLow * MICRO_TICK_NS ≤ u64Max
  | _ => True

end Block

/-- No product and no sum that the libpcap faucet makes of a packet's timestamp leaves the
`u64` range. -/
def Libpcap.Packet.Fits (p : Libpcap.Packet) : Prop :=
  p.tvSec.toNat * NS_PER_SEC ≤ u64Max ∧ p.tvUsec.toNat * 1000 ≤ u64Max ∧
    p.tvSec.toNat * NS_PER_SEC + p.tvUsec.toNat * 1000 ≤ u64Max

/-- The blocks of a file whose packets have link type `link` and microsecond timestamps, an
interface described before them; `known` says that one has been described already. -/
def Microsecond (link : LinkType) : Bool → List Block → Prop
  | _, [] => True
  | _, .legacyHeader network magicNumber :: bs =>
    dltToLink network = .ok link ∧ magicNumber ≠ NANO_MAGIC ∧ Microsecond link true bs
  | _, .interfaceDescription linktype tsResolution :: bs =>
    dltToLink linktype = .ok link ∧ tsResolution = some 1000000 ∧ Microsecond link true bs
  | known, .legacy _ _ _ _ :: bs | known, .enhancedPacket _ _ _ _ _ :: bs =>
    known = true ∧ Microsecond link known bs
  | known, .sectionHeader :: bs | known, .other :: bs => Microsecond link known bs
  | _, .simplePacket _ _ :: _ => False

/-- libpcap delivers a record: its timestamp as seconds and microseconds, be it
`(ticks / 10^6, ticks % 10^6)` or a legacy record's own two fields, its length and its
bytes. -/
structure Delivers (rec : PacketRecord) (p : Libpcap.Packet) : Prop where
  tvSec : 0 ≤ p.tvSec
  tvUsec : 0 ≤ p.tvUsec
  ticks : p.tvSec * 1000000 + p.tvUsec = rec.ticks
  len : p.len = rec.origlen
  data : p.data = rec.data

variable {build : Build} {lib : Etherparse} {path : String} {link : LinkType} {known : Bool}
  {r : Reading} {t : Libpcap.Taking} {s : State} {b : Block} {rec : PacketRecord}
  {p : Libpcap.Packet} {n : ℕ}

/-! ### Nanoseconds -/

lemma word_of_le {n : ℕ} (h : n ≤ u64Max) : build.word n = some n := if_pos h

/-- What fits is what fits as one product. -/
lemma Delivers.fits_iff (h : Delivers rec p) : p.Fits ↔ rec.ticks * 1000 ≤ u64Max := by
  obtain ⟨sec, hsec⟩ := Int.eq_ofNat_of_zero_le h.tvSec
  obtain ⟨usec, husec⟩ := Int.eq_ofNat_of_zero_le h.tvUsec
  have ht := h.ticks
  unfold Libpcap.Packet.Fits NS_PER_SEC
  rw [hsec, husec] at ht ⊢
  simp only [Int.toNat_natCast]
  omega

/-- Within the range the libpcap faucet computes the ticks' nanoseconds. -/
lemma Delivers.absNs (h : Delivers rec p) (hfit : rec.ticks * 1000 ≤ u64Max) :
    p.absNs build = some (rec.ticks * 1000) := by
  have hsum : p.tvSec.toNat * NS_PER_SEC + p.tvUsec.toNat * 1000 = rec.ticks * 1000 := by
    have ht := h.ticks
    have hsec := h.tvSec
    have husec := h.tvUsec
    unfold NS_PER_SEC
    omega
  obtain ⟨h1, h2, h3⟩ := h.fits_iff.mpr hfit
  change (build.word (p.tvSec.toNat * NS_PER_SEC)).bind _ = _
  rw [word_of_le h1, Option.bind_some]
  change (build.word (p.tvUsec.toNat * 1000)).bind _ = _
  rw [word_of_le h2, Option.bind_some, word_of_le h3, hsum]

lemma fits_iff (h : b.record = some rec) : b.Fits ↔ rec.ticks * 1000 ≤ u64Max := by
  cases b with
  | legacy tsSec tsUsec origlen data =>
      obtain rfl := Option.some.inj h
      simp only [Block.Fits, NS_PER_SEC, MICRO_TICK_NS]
      omega
  | enhancedPacket ifId tsHigh tsLow origlen data =>
      obtain rfl := Option.some.inj h
      simp only [Block.Fits, MICRO_TICK_NS]
  | _ => simp [Block.record] at h

/-- Within the range the pure faucet computes the ticks' nanoseconds. -/
lemma absNs_eq (hs : s.nanosPerTick = MICRO_TICK_NS) (h : b.record = some rec)
    (hfit : rec.ticks * 1000 ≤ u64Max) : s.absNs b = some (rec.ticks * 1000) := by
  cases b with
  | legacy tsSec tsUsec origlen data =>
      obtain rfl := Option.some.inj h
      simp only [State.absNs, hs, satAdd, satMul, NS_PER_SEC, MICRO_TICK_NS,
        Option.some.injEq] at hfit ⊢
      omega
  | enhancedPacket ifId tsHigh tsLow origlen data =>
      obtain rfl := Option.some.inj h
      simp only [State.absNs, hs, satMul, MICRO_TICK_NS, Option.some.injEq] at hfit ⊢
      omega
  | _ => simp [Block.record] at h

/-- A legacy timestamp always fits. -/
lemma fits_legacy (tsSec tsUsec origlen : BitVec 32) (data : Frame) :
    (Block.legacy tsSec tsUsec origlen data).Fits := by
  have h1 := tsSec.isLt
  have h2 := tsUsec.isLt
  simp only [Block.Fits, NS_PER_SEC, MICRO_TICK_NS, u64Max]
  omega

/-! ### The two faucets side by side -/

/-- The two faucets have made the same of the packets so far. -/
structure Level (link : LinkType) (known : Bool) (r : Reading) (t : Libpcap.Taking) : Prop where
  reading : r.failed = none
  scale : r.state.nanosPerTick = MICRO_TICK_NS
  linkType : r.state.linkType = none ∨ r.state.linkType = some link
  described : known = true → r.state.linkType = some link
  items : t.items = r.items
  names : t.names = r.names
  skipped : t.skipped = r.state.skipped
  baseline : t.baseline = r.state.baseline

lemma Level.relativeTs (h : Level link known r t) (absNs : ℕ) :
    t.relativeTs absNs = relativeTs r.state absNs := by
  unfold Libpcap.Taking.relativeTs TcpVisr.relativeTs baselineOf
  rw [h.baseline]

/-- A block that carries a packet has it processed. -/
lemma handleBlock_record (lib : Etherparse) (path : String) (h : b.record = some rec)
    (hs : s.absNs b = some n) :
    handleBlock lib path s b = processPacket lib path s n rec.origlen rec.data := by
  cases b with
  | legacy tsSec tsUsec origlen data =>
      obtain rfl := Option.some.inj h
      obtain rfl := Option.some.inj hs
      rfl
  | enhancedPacket ifId tsHigh tsLow origlen data =>
      obtain rfl := Option.some.inj h
      obtain rfl := Option.some.inj hs
      rfl
  | _ => simp [Block.record] at h

/-- A block of the file after which the one faucet stands where the other does. -/
lemma Level.step {t' : Libpcap.Taking} {y : Yield} (h : Level link known r t)
    (hok : handleBlock lib path r.state b = .ok (s, y)) (hscale : s.nanosPerTick = MICRO_TICK_NS)
    (hlink : s.linkType = some link) (hitems : t'.items = t.items ++ y.items)
    (hnames : t'.names = t.names ++ y.names) (hskipped : t'.skipped = s.skipped)
    (hbase : t'.baseline = s.baseline) : Level link true (r.next lib path b) t' := by
  rw [Reading.next_of_ok h.reading hok]
  exact ⟨h.reading, hscale, .inr hlink, fun _ => hlink, by rw [hitems, h.items],
    by rw [hnames, h.names], hskipped, hbase⟩

/-- **One packet** in range keeps the faucets level. -/
lemma Level.packet (h : Level link true r t) (hrec : b.record = some rec) (hd : Delivers rec p)
    (hfit : rec.ticks * 1000 ≤ u64Max) :
    ∃ t', t.next build lib link p = some t' ∧ Level link true (r.next lib path b) t' := by
  have hns := absNs_eq h.scale hrec hfit
  have hstep := handleBlock_record lib path hrec hns
  unfold Libpcap.Taking.next
  rw [hd.absNs hfit]
  simp only [Option.bind_eq_bind, Option.bind_some, h.relativeTs, hd.len, hd.data]
  refine ⟨_, rfl, ?_⟩
  have hbase : some (t.baseline.getD (rec.ticks * 1000)) =
      some (baselineOf r.state (rec.ticks * 1000)) := by rw [h.baseline, baselineOf]
  unfold processPacket at hstep
  simp only [h.described rfl] at hstep
  cases hdec : decodeFrame lib link (TcpVisr.relativeTs r.state (rec.ticks * 1000)) rec.data
      rec.origlen with
  | decoded seg =>
      rw [hdec] at hstep
      exact h.step hstep h.scale rfl rfl (List.append_nil _).symm h.skipped hbase
  | names obs =>
      rw [hdec] at hstep
      exact h.step hstep h.scale rfl (List.append_nil _).symm rfl h.skipped hbase
  | skipped reason =>
      rw [hdec] at hstep
      exact h.step hstep h.scale rfl (List.append_nil _).symm (List.append_nil _).symm
        (congrArg (SkipCounts.record · reason) h.skipped) hbase

/-- A block that describes the link type and a microsecond scale. -/
lemma Level.describe (h : Level link known r t)
    (hok : handleBlock lib path r.state b =
      .ok ({ r.state with linkType := some link, nanosPerTick := MICRO_TICK_NS }, {})) :
    Level link true (r.next lib path b) t := by
  exact h.step hok rfl rfl (List.append_nil _).symm (List.append_nil _).symm h.skipped h.baseline

/-- A block that says nothing of packets or interfaces. -/
lemma Level.pass (h : Level link known r t)
    (hok : handleBlock lib path r.state b = .ok (r.state, {})) :
    Level link known (r.next lib path b) t := by
  rw [Reading.next_of_ok h.reading hok]
  exact ⟨h.reading, h.scale, h.linkType, h.described, by simp [h.items], by simp [h.names],
    h.skipped, h.baseline⟩

/-- The faucets over one file: the same times on the way, and level at the end, where the
link type is known once there was a packet. -/
structure InStep (build : Build) (lib : Etherparse) (path : String) (link : LinkType)
    (known : Bool) (r : Reading) (t : Libpcap.Taking) (blocks : List Block)
    (packets : List Libpcap.Packet) : Prop where
  times : Libpcap.stamps build lib link t packets = some (stamps lib path r blocks)
  level : ∃ known' t', packets.foldlM (Libpcap.Taking.next build lib link) t = some t' ∧
    Level link known' (run (Reading.next lib path) r blocks) t' ∧
      (known = true ∨ packets ≠ [] → known' = true)

section InStep

variable {bs : List Block} {ps : List Libpcap.Packet}

lemma stamps_quiet (hb : b.record = none) (bs : List Block) :
    stamps lib path r (b :: bs) = stamps lib path (r.next lib path b) bs := by
  have hns : r.state.absNs b = none := by
    cases b <;> first | rfl | simp [Block.record] at hb
  simp [stamps, hns]

/-- A block without a packet, in front. -/
lemma InStep.quiet {known' : Bool} (hb : b.record = none) (hk : known = true → known' = true)
    (h : InStep build lib path link known' (r.next lib path b) t bs ps) :
    InStep build lib path link known r t (b :: bs) ps := by
  obtain ⟨htimes, known'', t', hfold, hlast, hknown⟩ := h
  refine ⟨by rw [stamps_quiet hb, htimes], known'', t', hfold, hlast, fun hor => ?_⟩
  exact hknown (hor.imp_left hk)

/-- A packet in range, in front. -/
lemma InStep.packet {t' : Libpcap.Taking} (hl : Level link true r t) (hb : b.record = some rec)
    (hd : Delivers rec p) (hfit : rec.ticks * 1000 ≤ u64Max)
    (hnext : t.next build lib link p = some t')
    (h : InStep build lib path link true (r.next lib path b) t' bs ps) :
    InStep build lib path link true r t (b :: bs) (p :: ps) := by
  obtain ⟨htimes, known', t'', hfold, hlast, hknown⟩ := h
  have hns := absNs_eq hl.scale hb hfit
  refine ⟨?_, known', t'', ?_, hlast, fun _ => hknown (.inl rfl)⟩
  · simp [Libpcap.stamps, stamps, hd.absNs hfit, hnext, htimes, hns, hl.relativeTs]
  · rw [List.foldlM_cons, hnext]
    exact hfold

/-- **A whole file** in range keeps the faucets in step. -/
lemma inStep_of_level (hl : Level link known r t) (hfile : Microsecond link known bs)
    (hdel : List.Forall₂ Delivers (bs.filterMap Block.record) ps)
    (hfit : ∀ rec ∈ bs.filterMap Block.record, rec.ticks * 1000 ≤ u64Max) :
    InStep build lib path link known r t bs ps := by
  induction bs generalizing known r t ps with
  | nil =>
      obtain rfl := List.forall₂_nil_left_iff.mp hdel
      exact ⟨rfl, known, t, rfl, hl, fun hor => hor.resolve_right (by simp)⟩
  | cons b bs ih =>
      have hquiet (hb : b.record = none) {known' : Bool} (hk : known = true → known' = true)
          (hl' : Level link known' (r.next lib path b) t) (hf : Microsecond link known' bs) :
          InStep build lib path link known r t (b :: bs) ps := by
        rw [List.filterMap_cons_none hb] at hdel hfit
        exact (ih hl' hf hdel hfit).quiet hb hk
      have hpacket {rec : PacketRecord} (hb : b.record = some rec) (hl : Level link true r t)
          (hf : Microsecond link true bs) :
          InStep build lib path link true r t (b :: bs) ps := by
        rw [List.filterMap_cons_some hb] at hdel hfit
        obtain ⟨p, ps, hd, hds, rfl⟩ := List.forall₂_cons_left_iff.mp hdel
        have hrec := hfit rec List.mem_cons_self
        obtain ⟨t', hnext, hl'⟩ := hl.packet hb hd hrec
        exact .packet hl hb hd hrec hnext
          (ih hl' hf hds fun rec' hr => hfit rec' (List.mem_cons_of_mem rec hr))
      cases b with
      | legacyHeader network magicNumber =>
          obtain ⟨hlink, hmagic, hf⟩ := hfile
          exact hquiet rfl (fun _ => rfl) (hl.describe (by simp [handleBlock, hlink, hmagic])) hf
      | interfaceDescription linktype tsResolution =>
          obtain ⟨hlink, rfl, hf⟩ := hfile
          have hres : (some 1000000 : Option ℕ).bind nanosPerTick = some MICRO_TICK_NS := rfl
          have hok := describeInterface_regular path hl.linkType hlink (by rw [hres]; rfl)
          rw [hres] at hok
          exact hquiet rfl (fun _ => rfl) (hl.describe hok) hf
      | legacy tsSec tsUsec origlen data =>
          obtain ⟨rfl, hf⟩ := hfile
          exact hpacket rfl hl hf
      | enhancedPacket ifId tsHigh tsLow origlen data =>
          obtain ⟨rfl, hf⟩ := hfile
          exact hpacket rfl hl hf
      | sectionHeader => exact hquiet rfl id (hl.pass rfl) hfile
      | other => exact hquiet rfl id (hl.pass rfl) hfile
      | simplePacket origlen data => exact hfile.elim

end InStep

/-- The timestamp of an enhanced packet is at most the last microsecond whose nanoseconds a
`u64` holds, in the year 2554. -/
def Block.InRange : Block → Prop
  | .enhancedPacket _ tsHigh tsLow _ _ => ticksOf tsHigh tsLow ≤ 18446744073709551
  | _ => True

lemma inRange_iff_fits (b : Block) : b.InRange ↔ b.Fits := by
  cases b with
  | legacy tsSec tsUsec origlen data =>
      exact iff_of_true trivial (fits_legacy tsSec tsUsec origlen data)
  | enhancedPacket ifId tsHigh tsLow origlen data =>
      simp only [Block.InRange, Block.Fits, MICRO_TICK_NS, u64Max]
      omega
  | _ => exact Iff.rfl

/-- What the records of a file in range say. -/
lemma ticks_of_inRange {blocks : List Block} (h : ∀ b ∈ blocks, b.InRange) :
    ∀ rec ∈ blocks.filterMap Block.record, rec.ticks * 1000 ≤ u64Max := by
  intro rec hrec
  obtain ⟨b, hb, heq⟩ := List.mem_filterMap.mp hrec
  exact (fits_iff heq).mp ((inRange_iff_fits b).mp (h b hb))

lemma level_start (link : LinkType) : Level link false {} {} :=
  ⟨rfl, rfl, .inl rfl, fun h => absurd h (by simp), rfl, rfl, rfl, rfl⟩

/-- What the two faucets return on a file in range that carries a packet. -/
lemma parseFileLibpcap_eq {blocks : List Block} {packets : List Libpcap.Packet}
    (h : InStep build lib path link false {} {} blocks packets) (hne : packets ≠ [])
    {datalink : BitVec 32} (hlink : dltToLink datalink = .ok link) :
    Libpcap.parseFileLibpcap build lib path (.ok ⟨datalink, packets, none⟩) =
      some (parseFile lib path (.ok (.ok ⟨blocks, none⟩))) := by
  obtain ⟨-, known, t, hfold, hl, hknown⟩ := h
  obtain rfl := hknown (.inr hne)
  have hread : readBlocks lib path blocks = run (Reading.next lib path) {} blocks := rfl
  simp only [Libpcap.parseFileLibpcap, hlink, hfold, parseFile, parseFileVisitNamed, hread,
    hl.reading, hl.described rfl, Option.bind_eq_bind, Option.bind_some, hl.items, hl.names,
    hl.skipped]
  rfl

/-- **The faucets agree, exactly.** On a file of microsecond timestamps they compute the same
time for every packet, and nothing they compute of it leaves the `u64` range, if and only if
no enhanced packet's timestamp is past the range; legacy timestamps never are. Then they
also return the same. -/
theorem faucets_agree_iff (build : Build) (lib : Etherparse) (path : String) {link : LinkType}
    {blocks : List Block} {packets : List Libpcap.Packet}
    (hfile : Microsecond link false blocks)
    (hdel : List.Forall₂ Delivers (blocks.filterMap Block.record) packets) :
    ((Libpcap.stamps build lib link {} packets = some (stamps lib path {} blocks) ∧
        (∀ b ∈ blocks, b.Fits) ∧ ∀ p ∈ packets, p.Fits) ↔ ∀ b ∈ blocks, b.InRange) ∧
      ((∀ b ∈ blocks, b.InRange) → packets ≠ [] →
        ∀ datalink, dltToLink datalink = .ok link →
          Libpcap.parseFileLibpcap build lib path (.ok ⟨datalink, packets, none⟩) =
            some (parseFile lib path (.ok (.ok ⟨blocks, none⟩)))) := by
  have hstep (h : ∀ b ∈ blocks, b.InRange) :
      InStep build lib path link false {} {} blocks packets :=
    inStep_of_level (level_start link) hfile hdel (ticks_of_inRange h)
  refine ⟨⟨?_, fun h => ⟨(hstep h).times, fun b hb => (inRange_iff_fits b).mp (h b hb), ?_⟩⟩,
    fun h hne datalink hlink => parseFileLibpcap_eq (hstep h) hne hlink⟩
  · rintro ⟨-, hfits, -⟩ b hb
    exact (inRange_iff_fits b).mpr (hfits b hb)
  · intro p hp
    obtain ⟨rec, hd, hrec⟩ := forall₂_mem_right hdel hp
    exact hrec.fits_iff.mpr (ticks_of_inRange h rec hd)

/-- A packet at the epoch, and one `ticks` microseconds after it. -/
def twoPackets (ticks : ℕ) : List Block :=
  [.sectionHeader, .interfaceDescription 101#32 (some 1000000),
    .enhancedPacket 0#32 0#32 0#32 40#32 synPacket,
    .enhancedPacket 0#32 (BitVec.ofNat 32 (ticks / 2 ^ 32)) (BitVec.ofNat 32 ticks) 40#32 synPacket]

/-- What libpcap delivers of it. -/
def twoDelivered (ticks : ℕ) : List Libpcap.Packet :=
  [⟨0, 0, 40#32, synPacket⟩, ⟨ticks / 1000000, ticks % 1000000, 40#32, synPacket⟩]

lemma microsecond_twoPackets (ticks : ℕ) : Microsecond .rawIp false (twoPackets ticks) :=
  ⟨rfl, rfl, rfl, rfl, trivial⟩

lemma delivers_twoPackets {ticks : ℕ} (h : ticks < 2 ^ 64) :
    List.Forall₂ Delivers ((twoPackets ticks).filterMap Block.record) (twoDelivered ticks) := by
  refine .cons ⟨le_rfl, le_rfl, rfl, rfl, rfl⟩ (.cons ⟨?_, ?_, ?_, rfl, rfl⟩ .nil)
  · positivity
  · exact Int.emod_nonneg _ (by decide)
  · simp only [ticksOf, BitVec.toNat_ofNat]
    omega

theorem faucets_agree_iff_twoPackets :
    Libpcap.parseFileLibpcap .debug headerSlicer "a.pcapng"
        (.ok ⟨101#32, twoDelivered 18446744073709551, none⟩) =
      some (parseFile headerSlicer "a.pcapng"
        (.ok (.ok ⟨twoPackets 18446744073709551, none⟩))) :=
  (faucets_agree_iff .debug headerSlicer "a.pcapng" (microsecond_twoPackets 18446744073709551)
    (delivers_twoPackets (by decide))).2
    (by simp [twoPackets, Block.InRange, ticksOf]) (by simp [twoDelivered]) 101#32 rfl

/-- One microsecond more, and a release build puts the packet 384 ns after the first, where the
pure faucet puts it at the end of the range. -/
theorem faucets_disagree :
    ¬ ∀ (build : Build) (lib : Etherparse) (path : String) (link : LinkType)
        (blocks : List Block) (packets : List Libpcap.Packet),
      Microsecond link false blocks →
      List.Forall₂ Delivers (blocks.filterMap Block.record) packets →
        Libpcap.stamps build lib link {} packets = some (stamps lib path {} blocks) ∧
          (∀ b ∈ blocks, b.Fits) ∧ ∀ p ∈ packets, p.Fits := by
  intro h
  have hfar := (h .release headerSlicer "a.pcapng" .rawIp (twoPackets 18446744073709552)
    (twoDelivered 18446744073709552) (microsecond_twoPackets 18446744073709552)
    (delivers_twoPackets (by decide))).1
  revert hfar
  decide +kernel

end TcpVisr
