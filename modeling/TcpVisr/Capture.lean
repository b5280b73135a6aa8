import TcpVisr.Libpcap

/-!
The live faucet: the capture loop, which decodes packets as they arrive and makes a tick of
the host clock whenever a read times out.

Timestamps are relative to the first one the loop sees, a packet's or a tick's. From that
baseline on the loop makes of a run of packets what the file faucet makes of the same packets
in a file, and timeouts between them change nothing of it but add their ticks.
-/

namespace TcpVisr

open Lib.Runs

/-- What `next_packet` returns: a packet, a timeout, or any other error. A timeout comes with
the time since the epoch on the host clock, unless the clock stands before the epoch. -/
inductive Read
  | packet (p : Libpcap.Packet)
  | timeoutExpired (sinceEpoch : Option ℕ)
  | failed
  deriving DecidableEq

/-- The packet of a read that returned one. -/
def Read.packet? : Read → Option Libpcap.Packet
  | .packet p => some p
  | .timeoutExpired _ | .failed => none

/-- The host clock in nanoseconds, as a `u64`. -/
def wallNowNs (sinceEpoch : Option ℕ) : ℕ :=
  match sinceEpoch with
  | some ns => min ns u64Max
  | none => 0

/-- `abs_ns` after the first timestamp observed, and the baseline from then on. -/
def normalizeTs (absNs : ℕ) (baseline : Option ℕ) : Nanos × Option ℕ :=
  let base := baseline.getD absNs
  (Nanos.sat (absNs - base), some base)

/-- A capture handle: its link type, and whether it stamps in nanoseconds. -/
structure LiveCapture where
  link : LinkType
  nanos : Bool
  deriving DecidableEq

namespace LiveCapture

/-- One event from the capture loop. -/
inductive LiveEvent
  | item (x : Item)
  | name (obs : NameObservation)
  deriving DecidableEq

/-- The variables of the loop. A loop that has ended, or panicked, is no longer `running`. -/
structure Loop where
  baseline : Option ℕ := none
  skipped : SkipCounts := {}
  diagnosticSkips : ℕ := 0
  running : Bool := true
  deriving DecidableEq

section Loop

variable (build : Build) (lib : Etherparse) (cap : LiveCapture)

/-- `sec * 1_000_000_000 + if self.nanos { sub } else { sub * 1_000 }`, where a negative field
counts as zero. -/
def absNs (p : Libpcap.Packet) : Option ℕ := do
  let sec := p.tvSec.toNat
  let sub := p.tvUsec.toNat
  let whole ← build.word (sec * NS_PER_SEC)
  let part ← if cap.nanos then some sub else build.word (sub * 1000)
  build.word (whole + part)

/-- A skip that the header is told of. -/
def diagnostic (reason : SkipReason) : Bool := reason ≠ .nonTcp

/-- What becomes of a decoded packet: the loop's variables and the events it calls `on_event`
with. -/
def dispatch (s : Loop) : DecodeOutcome → Loop × List LiveEvent
  | .decoded seg => (s, [.item (.segment seg)])
  | .names obs => (s, obs.map .name)
  | .skipped reason =>
    ({ s with
      skipped := s.skipped.record reason
      diagnosticSkips := s.diagnosticSkips + (diagnostic reason).toNat }, [])

/-- A packet whose time is known. -/
def arrive (s : Loop) (p : Libpcap.Packet) (absNs : ℕ) : Loop × List LiveEvent :=
  let n := normalizeTs absNs s.baseline
  dispatch { s with baseline := n.2 } (decodeFrame lib cap.link n.1 p.data p.len)

/-- A timeout: a tick of the host clock. -/
def expire (s : Loop) (absNs : ℕ) : Loop × List LiveEvent :=
  let n := normalizeTs absNs s.baseline
  ({ s with baseline := n.2 }, [.item (.tick n.1)])

/-- The end of the loop, be it a read error or a panic over a packet's time. -/
def ended (s : Loop) : Loop × List LiveEvent := ({ s with running := false }, [])

/-- One pass of the loop. -/
def pass (s : Loop) : Read → Loop × List LiveEvent
  | .packet p => (cap.absNs build p).elim (ended s) (arrive lib cap s p)
  | .timeoutExpired sinceEpoch => expire s (wallNowNs sinceEpoch)
  | .failed => ended s

/-- The loop with the events it has handed over. -/
structure Captured where
  loop : Loop := {}
  events : List LiveEvent := []
  deriving DecidableEq

/-- One read of the loop; nothing is read once it has ended. -/
def Captured.next (s : Captured) (r : Read) : Captured :=
  if s.loop.running then
    let (loop, events) := pass build lib cap s.loop r
    { loop, events := s.events ++ events }
  else s

/-- The capture loop, left to itself, over what its handle returns. -/
def runLoop (reads : List Read) : Captured := run (Captured.next build lib cap) {} reads

end Loop

/-! ### Kinds of events -/

namespace LiveEvent

def segment? : LiveEvent → Option Segment
  | .item (.segment seg) => some seg
  | _ => none

def item? : LiveEvent → Option Item
  | .item x => some x
  | .name _ => none

def name? : LiveEvent → Option NameObservation
  | .name obs => some obs
  | .item _ => none

@[simp] lemma name?_name (obs : NameObservation) : (name obs).name? = some obs := rfl
@[simp] lemma item?_name (obs : NameObservation) : (name obs).item? = none := rfl
@[simp] lemma segment?_name (obs : NameObservation) : (name obs).segment? = none := rfl
@[simp] lemma name?_item (x : Item) : (item x).name? = none := rfl
@[simp] lemma item?_item (x : Item) : (item x).item? = some x := rfl
@[simp] lemma segment?_segment (seg : Segment) : (item (.segment seg)).segment? = some seg := rfl
@[simp] lemma segment?_tick (t : Nanos) : (item (.tick t)).segment? = none := rfl

end LiveEvent

section Loop

variable {build : Build} {lib : Etherparse} {cap : LiveCapture} {s : Captured} {r : Read}
  {p : Libpcap.Packet}

/-! ### One read -/

/-- The timestamp of a read, unless it carries none or computing it panics. -/
def stampOf (build : Build) (cap : LiveCapture) : Read → Option ℕ
  | .packet p => cap.absNs build p
  | .timeoutExpired sinceEpoch => some (wallNowNs sinceEpoch)
  | .failed => none

lemma next_of_running (h : s.loop.running = true) :
    s.next build lib cap r =
      ⟨(pass build lib cap s.loop r).1, s.events ++ (pass build lib cap s.loop r).2⟩ := by
  unfold Captured.next
  rw [if_pos h]

lemma next_of_ended (h : s.loop.running = false) : s.next build lib cap r = s := by
  unfold Captured.next
  rw [if_neg (by simp [h])]

lemma pass_packet {t : Loop} {absNs : ℕ} (h : cap.absNs build p = some absNs) :
    pass build lib cap t (.packet p) = arrive lib cap t p absNs := by
  rw [pass, h, Option.elim_some]

lemma pass_panics {t : Loop} (h : cap.absNs build p = none) :
    pass build lib cap t (.packet p) = ended t := by
  rw [pass, h, Option.elim_none]

lemma normalizeTs_none (absNs : ℕ) : normalizeTs absNs none = normalizeTs absNs (some absNs) := by
  unfold normalizeTs
  rw [Option.getD_none, Option.getD_some]

/-- The first timestamp is its own baseline. -/
lemma pass_first {t : Loop} {b : ℕ} (hb : t.baseline = none) (hs : stampOf build cap r = some b) :
    pass build lib cap t r = pass build lib cap { t with baseline := some b } r := by
  cases r with
  | packet p =>
      have hns : cap.absNs build p = some b := hs
      rw [pass_packet hns, pass_packet hns, arrive, arrive, hb, normalizeTs_none]
  | timeoutExpired sinceEpoch =>
      have hns : wallNowNs sinceEpoch = b := Option.some.inj hs
      rw [pass, pass, expire, expire, hns, hb, normalizeTs_none]
  | failed => simp [stampOf] at hs

/-! ### Beside the file faucet -/

/-- What the file faucet would have of the same packets. -/
def Captured.taking (s : Captured) : Libpcap.Taking where
  items := (s.events.filterMap LiveEvent.segment?).map Item.segment
  names := s.events.filterMap LiveEvent.name?
  skipped := s.loop.skipped
  baseline := s.loop.baseline

/-- One packet of the loop, by what it adds to that; `none` when its time cannot be computed. -/
def take (build : Build) (lib : Etherparse) (cap : LiveCapture) (t : Libpcap.Taking)
    (p : Libpcap.Packet) : Option Libpcap.Taking := do
  let absNs ← cap.absNs build p
  let ts := t.relativeTs absNs
  let t := { t with baseline := some (t.baseline.getD absNs) }
  return match decodeFrame lib cap.link ts p.data p.len with
    | .decoded seg => { t with items := t.items ++ [.segment seg] }
    | .names obs => { t with names := t.names ++ obs }
    | .skipped reason => { t with skipped := t.skipped.record reason }

/-- The loop goes on, and its baseline is known. -/
structure Going (s : Captured) : Prop where
  running : s.loop.running = true
  based : s.loop.baseline.isSome

lemma Going.normalizeTs (h : Going s) (absNs : ℕ) :
    normalizeTs absNs s.loop.baseline = (s.taking.relativeTs absNs, s.loop.baseline) := by
  obtain ⟨b, hb⟩ := Option.isSome_iff_exists.mp h.based
  simp [TcpVisr.normalizeTs, Libpcap.Taking.relativeTs, Captured.taking, hb]

/-- A packet is made the same of, if a time can be made of it. -/
lemma Going.packet (lib : Etherparse) (h : Going s) {absNs : ℕ}
    (hns : cap.absNs build p = some absNs) :
    Going (s.next build lib cap (.packet p)) ∧
      take build lib cap s.taking p = some (s.next build lib cap (.packet p)).taking := by
  obtain ⟨b, hb⟩ := Option.isSome_iff_exists.mp h.based
  have hbase : s.taking.baseline = some b := hb
  rw [next_of_running h.running, pass_packet hns, arrive, h.normalizeTs]
  unfold take
  simp only [hns, hbase, Option.bind_eq_bind, Option.bind_some, Option.getD_some]
  cases decodeFrame lib cap.link (s.taking.relativeTs absNs) p.data p.len with
  | decoded seg =>
      refine ⟨⟨h.running, h.based⟩, ?_⟩
      simp [dispatch, Captured.taking, hb]
  | names obs =>
      refine ⟨⟨h.running, h.based⟩, ?_⟩
      simp [dispatch, Captured.taking, hb, List.filterMap_map, Function.comp_def]
  | skipped reason =>
      refine ⟨⟨h.running, h.based⟩, ?_⟩
      simp [dispatch, Captured.taking, hb]

/-- A timeout adds its tick and nothing else. -/
lemma Going.timeout (build : Build) (lib : Etherparse) (cap : LiveCapture) (h : Going s)
    (sinceEpoch : Option ℕ) :
    Going (s.next build lib cap (.timeoutExpired sinceEpoch)) ∧
      (s.next build lib cap (.timeoutExpired sinceEpoch)).taking = s.taking := by
  rw [next_of_running h.running, pass, expire, h.normalizeTs]
  refine ⟨⟨h.running, h.based⟩, ?_⟩
  simp [Captured.taking]

/-- The packets of the reads, whose times can all be computed, and no read failed. -/
def Sensible (build : Build) (cap : LiveCapture) (reads : List Read) : Prop :=
  ∀ r ∈ reads, r ≠ .failed ∧ ∀ p, r.packet? = some p → (cap.absNs build p).isSome

/-- The loop from one baseline on. -/
lemma Going.run (lib : Etherparse) (h : Going s) {reads : List Read}
    (hreads : Sensible build cap reads) :
    (run (Captured.next build lib cap) s reads).loop.running = true ∧
      (reads.filterMap Read.packet?).foldlM (take build lib cap) s.taking =
        some (run (Captured.next build lib cap) s reads).taking := by
  induction reads generalizing s with
  | nil => exact ⟨h.running, rfl⟩
  | cons r rs ih =>
      have hrs : Sensible build cap rs := fun r hr => hreads r (List.mem_cons_of_mem _ hr)
      obtain ⟨hok, htimed⟩ := hreads r List.mem_cons_self
      rw [run_cons]
      cases r with
      | packet p =>
          have hp : (Read.packet p).packet? = some p := rfl
          obtain ⟨absNs, hns⟩ := Option.isSome_iff_exists.mp (htimed p rfl)
          obtain ⟨hgo, hnext⟩ := h.packet lib hns
          rw [List.filterMap_cons_some hp, List.foldlM_cons, hnext]
          exact ih hgo hrs
      | timeoutExpired sinceEpoch =>
          obtain ⟨hgo, hsame⟩ := h.timeout build lib cap sinceEpoch
          have hp : (Read.timeoutExpired sinceEpoch).packet? = none := rfl
          rw [List.filterMap_cons_none hp, ← hsame]
          exact ih hgo hrs
      | failed => exact absurd rfl hok

/-- The loop that sees `b` first is the loop that started from it. -/
lemma next_first {b : ℕ} (hs : stampOf build cap r = some b) :
    Captured.next build lib cap {} r =
      Captured.next build lib cap { loop := { baseline := some b } } r := by
  rw [next_of_running rfl, next_of_running rfl, pass_first rfl hs]

lemma take_first {b : ℕ} (hns : cap.absNs build p = some b) :
    take build lib cap {} p = take build lib cap { baseline := some b } p := by
  unfold take
  rw [hns]
  rfl

/-- The loop over reads of which a packet came first. -/
lemma runLoop_takes (lib : Etherparse) {rest : List Read}
    (hreads : Sensible build cap (.packet p :: rest)) :
    (runLoop build lib cap (.packet p :: rest)).loop.running = true ∧
      ((Read.packet p :: rest).filterMap Read.packet?).foldlM (take build lib cap) {} =
        some (runLoop build lib cap (.packet p :: rest)).taking := by
  obtain ⟨b, hns⟩ := Option.isSome_iff_exists.mp ((hreads _ List.mem_cons_self).2 p rfl)
  have hgo : Going { loop := { baseline := some b } } := ⟨rfl, rfl⟩
  have hrun : runLoop build lib cap (.packet p :: rest) =
      run (Captured.next build lib cap) { loop := { baseline := some b } } (.packet p :: rest) := by
    have hs : stampOf build cap (.packet p) = some b := hns
    rw [runLoop, run_cons, run_cons, next_first hs]
  have hp : (Read.packet p).packet? = some p := rfl
  obtain ⟨hrunning, htaken⟩ := hgo.run lib hreads
  rw [List.filterMap_cons_some hp, List.foldlM_cons] at htaken
  rw [hrun, List.filterMap_cons_some hp, List.foldlM_cons, take_first hns]
  exact ⟨hrunning, htaken⟩

end Loop

/-! ### Files of either precision -/

/-- The ticks a second of the handle's timestamps, and the nanoseconds of each. -/
def perSec (cap : LiveCapture) : ℕ := if cap.nanos then 1000000000 else 1000000

def tickNs (cap : LiveCapture) : ℕ := if cap.nanos then 1 else MICRO_TICK_NS

lemma nanosPerTick_perSec (cap : LiveCapture) : nanosPerTick cap.perSec = some cap.tickNs := by
  unfold perSec tickNs
  cases cap.nanos <;> rfl

/-- The blocks of a file whose packets have the link type and the precision of a handle, an
interface described before them; `known` says that one has been described already. -/
def Recorded (cap : LiveCapture) : Bool → List Block → Prop
  | _, [] => True
  | _, .legacyHeader network magicNumber :: bs =>
    dltToLink network = .ok cap.link ∧ (magicNumber = NANO_MAGIC ↔ cap.nanos = true) ∧
      Recorded cap true bs
  | _, .interfaceDescription linktype tsResolution :: bs =>
    dltToLink linktype = .ok cap.link ∧ tsResolution = some cap.perSec ∧ Recorded cap true bs
  | known, .legacy _ _ _ _ :: bs | known, .enhancedPacket _ _ _ _ _ :: bs =>
    known = true ∧ Recorded cap known bs
  | known, .sectionHeader :: bs | known, .other :: bs | known, .simplePacket _ _ :: bs =>
    Recorded cap known bs

/-- The packet record of a block that carries one, its timestamp in the handle's ticks. -/
def packetRecord (cap : LiveCapture) : Block → Option PacketRecord
  | .legacy tsSec tsUsec origlen data =>
    some ⟨tsSec.toNat * cap.perSec + tsUsec.toNat, origlen, data⟩
  | .enhancedPacket _ tsHigh tsLow origlen data => some ⟨ticksOf tsHigh tsLow, origlen, data⟩
  | _ => none

/-- The handle returns a record: its timestamp as seconds and ticks, in the range of a `u64` of
nanoseconds, its length and its bytes. -/
structure Returns (cap : LiveCapture) (rec : PacketRecord) (p : Libpcap.Packet) : Prop where
  tvSec : 0 ≤ p.tvSec
  tvUsec : 0 ≤ p.tvUsec
  ticks : p.tvSec * cap.perSec + p.tvUsec = rec.ticks
  fits : rec.ticks * cap.tickNs ≤ u64Max
  len : p.len = rec.origlen
  data : p.data = rec.data

section Recorded

variable {build : Build} {lib : Etherparse} {path : String} {cap : LiveCapture} {b : Block}
  {rec : PacketRecord} {p : Libpcap.Packet} {known : Bool} {r : Reading} {t : Libpcap.Taking}

lemma Returns.absNs (h : Returns cap rec p) :
    cap.absNs build p = some (rec.ticks * cap.tickNs) := by
  obtain ⟨sec, hsec⟩ := Int.eq_ofNat_of_zero_le h.tvSec
  obtain ⟨sub, hsub⟩ := Int.eq_ofNat_of_zero_le h.tvUsec
  have ht := h.ticks
  have hfit := h.fits
  rw [hsec, hsub] at ht
  have ht' : sec * cap.perSec + sub = rec.ticks := by exact_mod_cast ht
  rw [← ht'] at hfit ⊢
  clear ht ht'
  unfold LiveCapture.absNs
  rw [hsec, hsub]
  simp only [Int.toNat_natCast, Option.bind_eq_bind]
  unfold perSec tickNs MICRO_TICK_NS at *
  cases hn : cap.nanos with
  | true =>
      simp only [hn, if_true, Nat.mul_one] at hfit ⊢
      rw [word_of_le (show sec * NS_PER_SEC ≤ u64Max from (Nat.le_add_right _ _).trans hfit),
        Option.bind_some, Option.bind_some]
      exact word_of_le hfit
  | false =>
      simp only [hn, Bool.false_eq_true, if_false] at hfit ⊢
      have hsum : (sec * 1000000 + sub) * 1000 = sec * NS_PER_SEC + sub * 1000 := by
        rw [Nat.add_mul, Nat.mul_assoc]
        rfl
      rw [hsum] at hfit ⊢
      rw [word_of_le (show sec * NS_PER_SEC ≤ u64Max from (Nat.le_add_right _ _).trans hfit),
        word_of_le (show sub * 1000 ≤ u64Max from (Nat.le_add_left _ _).trans hfit),
        Option.bind_some, Option.bind_some]
      exact word_of_le hfit

/-- The pure faucet computes the same. -/
lemma absNs_of_record {st : State} (hs : st.nanosPerTick = cap.tickNs)
    (hrec : cap.packetRecord b = some rec) (hfit : rec.ticks * cap.tickNs ≤ u64Max) :
    st.absNs b = some (rec.ticks * cap.tickNs) := by
  cases b with
  | legacy tsSec tsUsec origlen data =>
      obtain rfl := Option.some.inj hrec
      unfold perSec tickNs at *
      cases hn : cap.nanos <;>
        simp only [hn, State.absNs, hs, satAdd, satMul, NS_PER_SEC, MICRO_TICK_NS, if_true,
          Bool.false_eq_true, if_false, Option.some.injEq] at hfit ⊢ <;>
        omega
  | enhancedPacket ifId tsHigh tsLow origlen data =>
      obtain rfl := Option.some.inj hrec
      rw [State.absNs, hs, satMul, min_eq_left hfit]
  | _ => simp [packetRecord] at hrec

/-- A block that the handle's precision explains has its packet processed. -/
lemma handleBlock_packetRecord (lib : Etherparse) (path : String) {st : State} {n : ℕ}
    (hrec : cap.packetRecord b = some rec) (hns : st.absNs b = some n) :
    handleBlock lib path st b = processPacket lib path st n rec.origlen rec.data := by
  cases b with
  | legacy tsSec tsUsec origlen data =>
      obtain rfl := Option.some.inj hrec
      exact congrArg (processPacket lib path st · origlen data) (Option.some.inj hns)
  | enhancedPacket ifId tsHigh tsLow origlen data =>
      obtain rfl := Option.some.inj hrec
      exact congrArg (processPacket lib path st · origlen data) (Option.some.inj hns)
  | _ => simp [packetRecord] at hrec

/-- The file faucet has made of the blocks so far what the loop has made of the packets. -/
structure Abreast (cap : LiveCapture) (known : Bool) (r : Reading) (t : Libpcap.Taking) :
    Prop where
  reading : r.failed = none
  linkType : r.state.linkType = none ∨ r.state.linkType = some cap.link
  described : known = true →
    r.state.linkType = some cap.link ∧ r.state.nanosPerTick = cap.tickNs
  items : r.items = t.items
  names : r.names = t.names
  skipped : r.state.skipped = t.skipped
  baseline : r.state.baseline = t.baseline

/-- A block that describes the handle's link type and precision. -/
lemma Abreast.describe (h : Abreast cap known r t)
    (hok : handleBlock lib path r.state b =
      .ok ({ r.state with linkType := some cap.link, nanosPerTick := cap.tickNs }, {})) :
    Abreast cap true (r.next lib path b) t := by
  rw [Reading.next_of_ok h.reading hok]
  exact ⟨h.reading, .inr rfl, fun _ => ⟨rfl, rfl⟩, by simp [h.items], by simp [h.names],
    h.skipped, h.baseline⟩

/-- A block that says nothing of packets or interfaces. -/
lemma Abreast.pass (h : Abreast cap known r t)
    (hok : handleBlock lib path r.state b = .ok (r.state, {})) :
    Abreast cap known (r.next lib path b) t := by
  rw [Reading.next_of_ok h.reading hok]
  exact ⟨h.reading, h.linkType, h.described, by simp [h.items], by simp [h.names],
    h.skipped, h.baseline⟩

/-- **One packet** keeps the faucet abreast. -/
lemma Abreast.packet (build : Build) (lib : Etherparse) (path : String) (h : Abreast cap true r t)
    (hrec : cap.packetRecord b = some rec) (hp : Returns cap rec p) :
    ∃ t', take build lib cap t p = some t' ∧ Abreast cap true (r.next lib path b) t' := by
  obtain ⟨hlink, hscale⟩ := h.described rfl
  have hstep := handleBlock_packetRecord lib path hrec (absNs_of_record hscale hrec hp.fits)
  have hts : t.relativeTs (rec.ticks * cap.tickNs) =
      relativeTs r.state (rec.ticks * cap.tickNs) := by
    unfold Libpcap.Taking.relativeTs TcpVisr.relativeTs baselineOf
    rw [h.baseline]
  have hbase : baselineOf r.state (rec.ticks * cap.tickNs) =
      t.baseline.getD (rec.ticks * cap.tickNs) := by rw [baselineOf, h.baseline]
  unfold take
  rw [hp.absNs, Option.bind_eq_bind, Option.bind_some, hts, hp.data, hp.len]
  refine ⟨_, rfl, ?_⟩
  unfold processPacket at hstep
  simp only [hlink, hbase] at hstep
  cases hdec : decodeFrame lib cap.link (relativeTs r.state (rec.ticks * cap.tickNs)) rec.data
      rec.origlen with
  | decoded seg =>
      rw [hdec] at hstep
      rw [Reading.next_of_ok h.reading hstep]
      exact ⟨h.reading, .inr rfl, fun _ => ⟨rfl, hscale⟩, by simp [h.items],
        by simp [h.names], h.skipped, rfl⟩
  | names obs =>
      rw [hdec] at hstep
      rw [Reading.next_of_ok h.reading hstep]
      exact ⟨h.reading, .inr rfl, fun _ => ⟨rfl, hscale⟩, by simp [h.items],
        by simp [h.names], h.skipped, rfl⟩
  | skipped reason =>
      rw [hdec] at hstep
      rw [Reading.next_of_ok h.reading hstep]
      exact ⟨h.reading, .inr rfl, fun _ => ⟨rfl, hscale⟩, by simp [h.items],
        by simp [h.names], congrArg (SkipCounts.record · reason) h.skipped, rfl⟩

/-- **A whole file** keeps the faucet abreast, and its link type is known once there was a
packet. -/
lemma Abreast.file (build : Build) (lib : Etherparse) (path : String) {bs : List Block}
    {ps : List Libpcap.Packet} (h : Abreast cap known r t) (hfile : Recorded cap known bs)
    (hret : List.Forall₂ (Returns cap) (bs.filterMap cap.packetRecord) ps) :
    ∃ known' t', ps.foldlM (take build lib cap) t = some t' ∧
      Abreast cap known' (run (Reading.next lib path) r bs) t' ∧
        (known = true ∨ ps ≠ [] → known' = true) := by
  induction bs generalizing known r t ps with
  | nil =>
      obtain rfl := List.forall₂_nil_left_iff.mp hret
      exact ⟨known, t, rfl, h, fun hor => hor.resolve_right (by simp)⟩
  | cons b bs ih =>
      have hquiet (hb : cap.packetRecord b = none) {known' : Bool}
          (hk : known = true → known' = true) (h' : Abreast cap known' (r.next lib path b) t)
          (hf : Recorded cap known' bs) :
          ∃ known' t', ps.foldlM (take build lib cap) t = some t' ∧
            Abreast cap known' (run (Reading.next lib path) r (b :: bs)) t' ∧
              (known = true ∨ ps ≠ [] → known' = true) := by
        rw [List.filterMap_cons_none hb] at hret
        obtain ⟨known'', t', hfold, hlast, hknown⟩ := ih h' hf hret
        exact ⟨known'', t', hfold, hlast, fun hor => hknown (hor.imp_left hk)⟩
      have hpacket {rec : PacketRecord} (hb : cap.packetRecord b = some rec)
          (h' : Abreast cap true r t) (hf : Recorded cap true bs) :
          ∃ known' t', ps.foldlM (take build lib cap) t = some t' ∧
            Abreast cap known' (run (Reading.next lib path) r (b :: bs)) t' ∧
              (known = true ∨ ps ≠ [] → known' = true) := by
        rw [List.filterMap_cons_some hb] at hret
        obtain ⟨p, ps, hp, hps, rfl⟩ := List.forall₂_cons_left_iff.mp hret
        obtain ⟨t', hnext, hl⟩ := h'.packet build lib path hb hp
        obtain ⟨known'', t'', hfold, hlast, hknown⟩ := ih hl hf hps
        refine ⟨known'', t'', ?_, hlast, fun _ => hknown (.inl rfl)⟩
        rw [List.foldlM_cons, hnext]
        exact hfold
      cases b with
      | legacyHeader network magicNumber =>
          obtain ⟨hlink, hmagic, hf⟩ := hfile
          have hscale : (if magicNumber = NANO_MAGIC then 1 else MICRO_TICK_NS) = cap.tickNs := by
            unfold tickNs
            simp only [hmagic]
          exact hquiet rfl (fun _ => rfl) (h.describe (by simp [handleBlock, hlink, hscale])) hf
      | interfaceDescription linktype tsResolution =>
          obtain ⟨hlink, rfl, hf⟩ := hfile
          have hres : (some cap.perSec).bind nanosPerTick = some cap.tickNs :=
            nanosPerTick_perSec cap
          have hok := describeInterface_regular path h.linkType hlink (by rw [hres]; rfl)
          rw [hres] at hok
          exact hquiet rfl (fun _ => rfl) (h.describe hok) hf
      | legacy tsSec tsUsec origlen data =>
          obtain ⟨rfl, hf⟩ := hfile
          exact hpacket rfl h hf
      | enhancedPacket ifId tsHigh tsLow origlen data =>
          obtain ⟨rfl, hf⟩ := hfile
          exact hpacket rfl h hf
      | sectionHeader => exact hquiet rfl id (h.pass rfl) hfile
      | other => exact hquiet rfl id (h.pass rfl) hfile
      | simplePacket origlen data => exact hquiet rfl id (h.pass rfl) hfile

lemma abreast_start (cap : LiveCapture) : Abreast cap false {} {} :=
  ⟨rfl, .inl rfl, fun h => absurd h (by simp), rfl, rfl, rfl, rfl⟩

/-- What the loop and the file faucet make of the same packets. -/
lemma parseFile_of_returns (build : Build) (lib : Etherparse) (path : String)
    {blocks : List Block} {rest : List Read} (hfile : Recorded cap false blocks)
    (hreads : ∀ r ∈ rest, r ≠ .failed)
    (hret : List.Forall₂ (Returns cap) (blocks.filterMap cap.packetRecord)
      ((Read.packet p :: rest).filterMap Read.packet?)) :
    let s := runLoop build lib cap (.packet p :: rest)
    s.loop.running = true ∧
      ((Read.packet p :: rest).filterMap Read.packet?).foldlM (take build lib cap) {} =
        some s.taking ∧
      parseFile lib path (.ok (.ok ⟨blocks, none⟩)) =
        .ok ⟨s.taking.items, s.loop.skipped, cap.link, s.taking.names⟩ := by
  intro s
  have hsensible : Sensible build cap (.packet p :: rest) := by
    refine fun r hr => ⟨?_, fun q hq => ?_⟩
    · rcases List.mem_cons.mp hr with rfl | hr
      · simp
      · exact hreads r hr
    · obtain ⟨rec, -, hrec⟩ := forall₂_mem_right hret (List.mem_filterMap.mpr ⟨r, hr, hq⟩)
      rw [hrec.absNs]
      rfl
  obtain ⟨hrun, hfold⟩ := runLoop_takes lib hsensible
  obtain ⟨known, t, hfold', hl, hknown⟩ :=
    (abreast_start cap).file build lib path hfile hret
  obtain rfl : s.taking = t := Option.some.inj (hfold.symm.trans hfold')
  refine ⟨hrun, hfold, ?_⟩
  have hne : (Read.packet p :: rest).filterMap Read.packet? ≠ [] := by simp [Read.packet?]
  obtain ⟨hlink, -⟩ := hl.described (hknown (.inr hne))
  unfold parseFile parseFileVisitNamed
  simp only [readBlocks, hl.reading, hlink]
  rw [hl.items, hl.names, hl.skipped]
  rfl

lemma take_of_micro (hnanos : cap.nanos = false) :
    take build lib cap = Libpcap.Taking.next build lib cap.link := by
  have hns : cap.absNs build = Libpcap.Packet.absNs build := by
    funext p
    unfold LiveCapture.absNs Libpcap.Packet.absNs
    simp [hnanos]
  funext t p
  unfold take Libpcap.Taking.next
  generalize cap.absNs build = absNs at hns ⊢
  subst hns
  rfl

end Recorded

/-- Two packets, a timeout between them. -/
def twoReads : List Read :=
  [.packet ⟨0, 0, 40#32, synPacket⟩, .timeoutExpired (some 7), .packet ⟨0, 5, 40#32, synPacket⟩]

lemma recorded_twoPackets : Recorded ⟨.rawIp, false⟩ false (twoPackets 5) :=
  ⟨rfl, rfl, rfl, rfl, trivial⟩

lemma returns_twoReads : List.Forall₂ (Returns ⟨.rawIp, false⟩)
    ((twoPackets 5).filterMap (packetRecord ⟨.rawIp, false⟩)) (twoReads.filterMap Read.packet?) :=
  .cons ⟨by decide, by decide, rfl, by decide, rfl, rfl⟩
    (.cons ⟨by decide, by decide, rfl, by decide, rfl, rfl⟩ .nil)

/-- Whether the outcome carries names. -/
def named : DecodeOutcome → Bool
  | .names _ => true
  | _ => false

/-- Whether a packet yields names, which does not depend on when it came. -/
def yieldsNames (lib : Etherparse) (cap : LiveCapture) (p : Libpcap.Packet) : Bool :=
  named (decodeFrame lib cap.link (Nanos.sat 0) p.data p.len)

/-- What has become of `packets`: a segment, names, or a skip. -/
structure Accounted (lib : Etherparse) (cap : LiveCapture) (packets : List Libpcap.Packet)
    (s : Captured) : Prop where
  total : packets.length = (s.events.filterMap LiveEvent.segment?).length +
    packets.countP (yieldsNames lib cap) + s.loop.skipped.total
  diagnostic : s.loop.diagnosticSkips + s.loop.skipped.nonTcp = s.loop.skipped.total
  names : packets.countP (yieldsNames lib cap) ≤ (s.events.filterMap LiveEvent.name?).length

section Accounts

variable {build : Build} {lib : Etherparse} {cap : LiveCapture} {s : Captured} {r : Read}

lemma named_stamp (ts : Nanos) (o : DecodeOutcome) : named (o.stamp ts) = named o := by
  cases o <;> rfl

/-- A skip is diagnosed unless it is of other traffic. -/
lemma diagnostic_record (c : SkipCounts) (reason : SkipReason) (n : ℕ) :
    n + (diagnostic reason).toNat + (c.record reason).nonTcp = n + c.nonTcp + 1 := by
  cases reason <;> simp [diagnostic, SkipCounts.record] <;> omega

lemma running_of_next (h : (s.next build lib cap r).loop.running = true) :
    s.loop.running = true := by
  by_contra hend
  rw [next_of_ended (by simpa using hend)] at h
  exact hend h

/-- What a packet adds to the account. -/
lemma Accounted.arrive {packets : List Libpcap.Packet} (h : Accounted lib cap packets s)
    (p : Libpcap.Packet) (absNs : ℕ) :
    Accounted lib cap (packets ++ [p])
      ⟨(arrive lib cap s.loop p absNs).1, s.events ++ (arrive lib cap s.loop p absNs).2⟩ := by
  have hnamed : yieldsNames lib cap p =
      named (decodeFrame lib cap.link (normalizeTs absNs s.loop.baseline).1 p.data p.len) := by
    rw [decodeFrame_stamp lib cap.link (normalizeTs absNs s.loop.baseline).1 (Nanos.sat 0),
      named_stamp]
    rfl
  obtain ⟨htotal, hdiag, hnames⟩ := h
  have harrive : LiveCapture.arrive lib cap s.loop p absNs =
      dispatch { s.loop with baseline := (normalizeTs absNs s.loop.baseline).2 }
        (decodeFrame lib cap.link (normalizeTs absNs s.loop.baseline).1 p.data p.len) := rfl
  rw [harrive]
  generalize hdec : decodeFrame lib cap.link (normalizeTs absNs s.loop.baseline).1 p.data p.len
    = o at hnamed ⊢
  cases o with
  | decoded seg =>
      have hn : yieldsNames lib cap p = false := hnamed
      refine ⟨?_, hdiag, ?_⟩
      · simp [dispatch, List.countP_append, hn, htotal]
        omega
      · simp [dispatch, List.countP_append, List.filterMap_append, List.filterMap_cons, hn]
        omega
  | names obs =>
      have hn : yieldsNames lib cap p = true := hnamed
      have hpos := List.length_pos_of_ne_nil (names_ne_nil hdec)
      refine ⟨?_, hdiag, ?_⟩
      · simp [dispatch, List.countP_append, hn, htotal,
          List.filterMap_map, Function.comp_def]
        omega
      · simp [dispatch, List.countP_append, hn, List.filterMap_map,
          Function.comp_def]
        omega
  | skipped reason =>
      have hn : yieldsNames lib cap p = false := hnamed
      refine ⟨?_, ?_, ?_⟩
      · simp [dispatch, List.countP_append, hn, htotal]
        omega
      · have := diagnostic_record s.loop.skipped reason s.loop.diagnosticSkips
        simp only [dispatch, SkipCounts.total_record]
        omega
      · simpa [dispatch, List.countP_append, hn] using hnames

/-- **Nothing read goes missing.** While the loop runs, every packet it has read has become
one segment, names, or one skip; and the skips that the header is told of are all but those
of other traffic. -/
theorem packets_accounted (build : Build) (lib : Etherparse) (cap : LiveCapture)
    (reads : List Read) (h : (runLoop build lib cap reads).loop.running = true) :
    Accounted lib cap (reads.filterMap Read.packet?) (runLoop build lib cap reads) := by
  induction reads using List.reverseRecOn with
  | nil => exact ⟨rfl, rfl, le_rfl⟩
  | append_singleton p r ih =>
      have hsnoc : runLoop build lib cap (p ++ [r]) =
          (runLoop build lib cap p).next build lib cap r := run_snoc _ _ p r
      rw [hsnoc] at h ⊢
      have hrun := running_of_next h
      have hp := ih hrun
      generalize runLoop build lib cap p = s at hp hrun h ⊢
      rw [next_of_running hrun] at h ⊢
      rw [List.filterMap_append]
      cases r with
      | packet q =>
          cases hns : cap.absNs build q with
          | none =>
              rw [pass_panics hns] at h
              exact absurd h (by simp [ended])
          | some absNs =>
              rw [pass_packet hns]
              exact hp.arrive q absNs
      | timeoutExpired sinceEpoch =>
          have hnone : [Read.timeoutExpired sinceEpoch].filterMap Read.packet? = [] := rfl
          rw [pass, expire, hnone, List.append_nil]
          refine ⟨?_, hp.diagnostic, ?_⟩
          · simpa [List.filterMap_append, List.filterMap_cons] using hp.total
          · simpa [List.filterMap_append, List.filterMap_cons] using hp.names
      | failed => exact absurd h (by simp [pass, ended])

theorem packets_accounted_twoPackets :
    Accounted headerSlicer ⟨.rawIp, false⟩ (twoReads.filterMap Read.packet?)
      (runLoop .debug headerSlicer ⟨.rawIp, false⟩ twoReads) :=
  packets_accounted .debug headerSlicer ⟨.rawIp, false⟩ _ (by decide +kernel)

end Accounts

end LiveCapture

end TcpVisr
