import TcpVisr.Conn

/-!
Metric derivation: a per-connection fold that turns each segment into one `MetricSample`.

The derivation keeps one `DirState` a direction. A segment updates the state of its own
direction (what it sends) and that of the opposite one (what it acknowledges); the two
updates read only the state before the segment.
-/

namespace TcpVisr

open TcpSeq

/-- `u32::from(b)`. -/
def u32OfBool (b : Bool) : BitVec 32 := if b then 1 else 0

/-- One past the last byte on the wire, counting the SYN/FIN phantom bytes. -/
def seqEnd (seg : Segment) : TcpSeq :=
  let phantom := u32OfBool seg.flags.syn + u32OfBool seg.flags.fin
  seg.seq + seg.payloadLen + phantom

/-- Keep the more forward of `current` and `candidate`. -/
def serialMax (current : Option TcpSeq) (candidate : TcpSeq) : TcpSeq :=
  match current with
  | some c => if c.serialGt candidate then c else candidate
  | none => candidate

/-- `earlier` is serial-≤ `later`. -/
def serialLe (earlier later : TcpSeq) : Bool := earlier == later || earlier.serialLt later

/-- Whether a segment carries payload. -/
def Segment.isData (seg : Segment) : Bool := 0 < seg.payloadLen.toNat

/-- The derivation state of one direction. -/
structure DirState where
  sndNxt : Option TcpSeq := none
  acked : Option TcpSeq := none
  frontier : Option TcpSeq := none
  lastDataTs : Option Nanos := none
  pendingRtt : List (TcpSeq × Nanos) := []
  /-- The trailing throughput window: time, payload length, retransmit. -/
  tput : List (Nanos × BitVec 32 × Bool) := []
  tputMaxTs : Option Nanos := none
  deriving DecidableEq

/-- Per-connection derivation state. -/
structure MetricState where
  dir : PerDir DirState
  deriving DecidableEq

def MetricState.new : MetricState := ⟨⟨{}, {}⟩⟩

/-- Step 0: whether `seg` advances the acknowledgement of `peer`, its opposite direction. -/
def ackAdvances (peer : DirState) (seg : Segment) : Bool :=
  seg.flags.ack && peer.sndNxt.isSome &&
    match peer.acked with
    | none => true
    | some a => seg.ack.serialGt a

/-- Step 2: `(retransmit, out_of_order)` of a segment of direction `own`. -/
def classify (own : DirState) (seg : Segment) (cfg : EngineConfig) : Bool × Bool :=
  if seg.isData then
    match own.frontier with
    | some fr =>
      if seg.seq.serialLt fr then
        let gap := match own.lastDataTs with
          | some prev => seg.ts.ns - prev.ns
          | none => u64Max
        if gap < cfg.reorderWindow.ns then (false, true) else (true, false)
      else (false, false)
    | none => (false, false)
  else (false, false)

/-- Step 4, the loop: pop every pending send `ack` covers, keeping the oldest's time. -/
def popPending (ack : TcpSeq) (oldest : Option Nanos) :
    List (TcpSeq × Nanos) → Option Nanos × List (TcpSeq × Nanos)
  | [] => (oldest, [])
  | (es, ts) :: rest =>
    if serialLe es ack then
      popPending ack (if oldest.isNone then some ts else oldest) rest
    else (oldest, (es, ts) :: rest)

/-- Step 5: push the segment's bytes and drop the front entries that no later window can
hold. -/
def windowPushAndEvict (own : DirState) (seg : Segment) (retransmit : Bool)
    (cfg : EngineConfig) : DirState :=
  let own :=
    if seg.isData then
      { own with
        tput := own.tput ++ [(seg.ts, seg.payloadLen, retransmit)]
        tputMaxTs := some (match own.tputMaxTs with
          | some m => max m seg.ts
          | none => seg.ts) }
    else own
  let window := cfg.throughputWindow.ns
  if window = 0 then own
  else match own.tputMaxTs with
    | none => own
    | some maxTs =>
      { own with tput := own.tput.dropWhile fun e => e.1.ns + window ≤ maxTs.ns }

/-- The acknowledged mark of a direction after one of its own segments. -/
def ackedAfter (own : DirState) (seg : Segment) : TcpSeq := own.acked.getD seg.seq

/-- The outstanding bytes between two marks, clamped at zero. -/
def outstanding (acked snd : TcpSeq) : ℕ :=
  if serialLe acked snd then (snd.serialDiff acked).toNat else 0

/-- The state of a direction after one of its own segments (steps 1, 2, 4 and 5). -/
def observeOwn (own : DirState) (seg : Segment) (cfg : EngineConfig) : DirState :=
  let fin := seqEnd seg
  let retransmit := (classify own seg cfg).1
  let consumesSeq := seg.isData || seg.flags.syn || seg.flags.fin
  let own' :=
    { own with
      acked := some (ackedAfter own seg)
      sndNxt := some (serialMax own.sndNxt fin)
      frontier := if seg.isData then some (serialMax own.frontier fin) else own.frontier
      lastDataTs := if seg.isData then some seg.ts else own.lastDataTs
      pendingRtt :=
        if retransmit then []
        else if consumesSeq then own.pendingRtt ++ [(fin, seg.ts)] else own.pendingRtt }
  windowPushAndEvict own' seg retransmit cfg

/-- The state of a direction after a segment of the opposite one (steps 1 and 4). -/
def observePeer (peer : DirState) (seg : Segment) : DirState :=
  if ackAdvances peer seg then
    { peer with
      acked := some seg.ack
      pendingRtt := (popPending seg.ack none peer.pendingRtt).2 }
  else peer

/-- Step 4: the round trip an acknowledging segment measures. -/
def rttOf (peer : DirState) (seg : Segment) : Option Nanos :=
  if ackAdvances peer seg then
    (popPending seg.ack none peer.pendingRtt).1.map fun sendTs => seg.ts.saturatingSub sendTs
  else none

/-- `bytes` over `w` nanoseconds in bits per second, computed in `u128`, saturated to
`u64`. -/
def scaleBps (bytes w : ℕ) : ℕ :=
  let u128Max := 2 ^ 128 - 1
  let bits := min (min (bytes * 8) u128Max * 1000000000) u128Max
  min (bits / w) u64Max

namespace MetricState

/-- The trailing-window `(throughput, goodput)` of `dir` as of `t`, or `none` before `dir`
has sent data. -/
def throughputAt (m : MetricState) (dir : Direction) (t : Nanos) (cfg : EngineConfig) :
    Option (ℕ × ℕ) :=
  let d := m.dir.get dir
  if d.tputMaxTs.isNone then none
  else
    let window := cfg.throughputWindow.ns
    if window = 0 then some (0, 0)
    else
      let (total, good) := d.tput.foldl
        (fun (acc : ℕ × ℕ) e =>
          if t.ns < e.1.ns + window ∧ e.1.ns ≤ t.ns then
            (acc.1 + e.2.1.toNat, if e.2.2 then acc.2 else acc.2 + e.2.1.toNat)
          else acc) (0, 0)
      some (scaleBps total window, scaleBps good window)

/-- The bytes outstanding for `dir`, or `none` before it has both marks. -/
def inFlight (m : MetricState) (dir : Direction) : Option ℕ :=
  let d := m.dir.get dir
  match d.sndNxt, d.acked with
  | some snd, some acked => some (outstanding acked snd)
  | _, _ => none

/-- Fold one segment in and produce its sample. -/
def observe (m : MetricState) (seg : Segment) (dir : Direction) (cfg : EngineConfig) :
    MetricState × MetricSample :=
  let own := m.dir.get dir
  let peer := m.dir.get dir.opposite
  let inFlightBytes := outstanding (ackedAfter own seg) (serialMax own.sndNxt (seqEnd seg))
  let (retransmit, outOfOrder) := classify own seg cfg
  let m' : MetricState :=
    ⟨(m.dir.set dir (observeOwn own seg cfg)).set dir.opposite (observePeer peer seg)⟩
  (m',
    { t := seg.ts
      dir := dir.sample
      inFlightBytes
      throughputBps := ((m'.throughputAt dir seg.ts cfg).map Prod.fst).getD 0
      rtt := rttOf peer seg
      retransmit
      outOfOrder
      sack := !seg.options.sackBlocks.isEmpty })

end MetricState

/-- Whole-derivation failures. -/
inductive MetricError
  | sampleCeiling (samples limit : ℕ)
  deriving DecidableEq

end TcpVisr
