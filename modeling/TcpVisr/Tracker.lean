import TcpVisr.ConnTrack
import TcpVisr.Lib.Runs

/-!
The connection tracker: fold items in, read connections, metrics and timelines out.

Everything the `record_*` and `collect_*` functions touch is one connection, the sample
count and the overflow flag; a `Slot` is these three. The tracker's maps are functions, the
configuration is a parameter.
-/

namespace TcpVisr

/-- What recording reads and writes: the connection at the index it is given, the collected
count and the overflow flag. -/
structure Slot where
  track : ConnTrack
  collectedSamples : ℕ
  overflowed : Bool
  deriving DecidableEq

namespace Slot

section Recording

variable (cfg : EngineConfig)

/-- The backstop under `Evict`: pop one oldest sample of this connection's longest series. -/
def evictOldestGlobal (s : Slot) : Slot :=
  let (kept, popped) := s.track.kept.popLongestFront
  { s with
    track := { s.track with kept }
    collectedSamples := if popped then s.collectedSamples - 1 else s.collectedSamples }

/-- `admit`: admission control. At the ceiling, fail-fast sets `overflowed` and refuses; `Evict`
makes room on this connection and admits. -/
def admitSample (s : Slot) : Slot × Bool :=
  if cfg.retention.maxSamples ≤ s.collectedSamples then
    if cfg.retention.window.isSome then
      let s := s.evictOldestGlobal
      ({ s with collectedSamples := s.collectedSamples + 1 }, true)
    else ({ s with overflowed := true }, false)
  else ({ s with collectedSamples := s.collectedSamples + 1 }, true)

/-- `if self.admit(idx) { push_back }`. -/
def store (s : Slot) (x : Sample) : Slot :=
  let (s, ok) := s.admitSample cfg
  if ok then { s with track := { s.track with kept := s.track.kept.push x } } else s

def recordSample (s : Slot) (x : MetricSample) : Slot :=
  if !cfg.shouldCollect s.track.id then s else s.store cfg (.metric x)

/-- The body the other five `record_*` share. -/
def record (s : Slot) (x : Sample) : Slot := if s.overflowed then s else s.store cfg x

def recordState (s : Slot) (x : StateSample) : Slot := s.record cfg (.state x)
def recordSeq (s : Slot) (x : SeqSample) : Slot := s.record cfg (.seq x)
def recordInflight (s : Slot) (x : InFlightSample) : Slot := s.record cfg (.inflight x)
def recordRtt (s : Slot) (x : RttSample) : Slot := s.record cfg (.rtt x)
def recordThroughput (s : Slot) (x : ThroughputSample) : Slot := s.record cfg (.throughput x)

def collectSeqPoints (s : Slot) (seg : Segment) (dir : Direction) (sample : MetricSample) :
    Slot :=
  if s.overflowed || !cfg.collectSeqTimeline then s
  else
    let (derived, points) := s.track.derived.pushSeqPoints seg dir sample
    points.foldl (recordSeq cfg) { s with track := { s.track with derived } }

/-- In-flight snapshot of both directions at `t`. -/
def collectInflightAt (s : Slot) (t : Nanos) : Slot :=
  if s.overflowed || !cfg.collectInflightTimeline then s
  else Direction.both.foldl
    (fun s d => match s.track.derived.metrics.inFlight d with
      | some bytes => s.recordInflight cfg ⟨t, d.sample, bytes⟩
      | none => s) s

/-- The smoothed round trip, weight one eighth. -/
def srttAfter (prev : Option Nanos) (rtt : Nanos) : Nanos :=
  match prev with
  | none => rtt
  | some prev => Nanos.sat ((7 * prev.ns + rtt.ns) / 8)

def collectRttPoints (s : Slot) (sample : MetricSample) : Slot :=
  if s.overflowed || !cfg.collectRttTimeline then s
  else match sample.rtt with
    | none => s
    | some rtt =>
      let m := sample.dir.opposite
      let srtt := srttAfter (s.track.derived.srtt.get m.index) rtt
      let derived :=
        { s.track.derived with srtt := s.track.derived.srtt.set m.index (some srtt) }
      { s with track := { s.track with derived } }.recordRtt cfg ⟨sample.t, m, rtt, srtt⟩

/-- Trailing-window rates of both directions at `t`. -/
def collectThroughputAt (s : Slot) (t : Nanos) : Slot :=
  if s.overflowed || !cfg.collectThroughputTimeline then s
  else Direction.both.foldl
    (fun s d => match s.track.derived.metrics.throughputAt d t cfg with
      | some (throughput, goodput) =>
        s.recordThroughput cfg ⟨t, d.sample, throughput, goodput⟩
      | none => s) s

/-- Whether a segment of this connection is derived at all. -/
def wantsDerivation (s : Slot) : Bool :=
  !s.overflowed && (cfg.shouldCollect s.track.id || cfg.collectSeqTimeline ||
    cfg.collectInflightTimeline || cfg.collectRttTimeline || cfg.collectThroughputTimeline)

/-- Derive the segment's sample and record what is collected of it. -/
def derive (s : Slot) (seg : Segment) (dir : Direction) : Slot :=
  if s.wantsDerivation cfg then
    let wantMetric := cfg.shouldCollect s.track.id
    let (m, sample) := s.track.derived.metrics.observe seg dir cfg
    let s := { s with track := { s.track with derived := { s.track.derived with metrics := m } } }
    let s := if wantMetric then s.recordSample cfg sample else s
    let s := s.collectSeqPoints cfg seg dir sample
    let s := s.collectInflightAt cfg seg.ts
    let s := s.collectRttPoints cfg sample
    s.collectThroughputAt cfg seg.ts
  else s

/-- Record the lifecycle snapshot, when states are collected. -/
def noteState (s : Slot) (t : Nanos) : Slot :=
  if cfg.collectStateTimeline then s.recordState cfg (s.track.snapshot t) else s

/-- `observe_segment` on the live instance the segment joins. -/
def join (s : Slot) (seg : Segment) : Slot :=
  let dir := s.track.directionOf seg.flow.source
  let s := { s with track := (s.track.account seg dir).applyState seg dir }
  let s := s.noteState cfg seg.ts
  s.derive cfg seg dir

/-- `create_instance`, once the fresh instance is accounted. -/
def found (s : Slot) (seg : Segment) : Slot :=
  let dir := s.track.directionOf seg.flow.source
  let s := s.derive cfg seg dir
  s.noteState cfg seg.ts

/-- The decay samples of a connection not yet idle past `dead_after`. -/
def decay (t : Nanos) (s : Slot) : Slot :=
  if cfg.deadAfter.ns < t.ns - s.track.lastAt.ns then s
  else (s.collectThroughputAt cfg t).collectInflightAt cfg t

end Recording

/-- `evict_samples` on one connection. -/
def evict (horizon : ℕ) (s : Slot) : Slot :=
  let (kept, n) := s.track.kept.evict horizon s.collectedSamples
  { s with track := { s.track with kept }, collectedSamples := n }

end Slot

/-- The tracker. -/
structure Tracker where
  conns : List ConnTrack
  live : EndpointPair → Option ℕ
  nextInstance : EndpointPair → Option ℕ
  collectedSamples : ℕ
  overflowed : Bool
  now : Nanos

/-- The endpoint pair of a segment. -/
def Segment.pair (seg : Segment) : EndpointPair :=
  EndpointPair.new seg.flow.source seg.flow.destination

/-- Whether `seg` opens a new instance instead of joining the live one. -/
def shouldSplit (cfg : EngineConfig) (track : ConnTrack) (seg : Segment) : Bool :=
  if isBareSyn seg.flags then
    track.state.terminal || decide (cfg.deadAfter.ns < seg.ts.ns - track.lastAt.ns)
  else if track.state = .established then
    match track.baseline (track.directionOf seg.flow.source) with
    | some base => isBackwardReset base seg.seq cfg.resetThreshold
    | none => false
  else false

/-- The orientation and first state of an instance opened by `seg`:
`(origin, responder, origin_inferred, state)`. -/
def orient (seg : Segment) : Endpoint × Endpoint × Bool × ConnState :=
  let src := seg.flow.source
  let dst := seg.flow.destination
  let flags := seg.flags
  if isBareSyn flags then (src, dst, false, .synSent)
  else if isSynAck flags then (dst, src, false, .synReceived)
  else if flags.rst then (src, dst, true, .reset)
  else if flags.fin then (src, dst, true, .finWait)
  else (src, dst, true, .established)

/-- The instance opened by `seg`, before any segment is accounted to it. -/
def blankTrack (id : ConnId) (seg : Segment) : ConnTrack :=
  let (origin, responder, originInferred, state) := orient seg
  { id, state, origin, responder, originInferred
    openedAt := seg.ts
    lastAt := seg.ts
    bytesO2r := 0
    bytesR2o := 0
    segments := 0
    finO2r := false
    finR2o := false
    baseO2r := none
    baseR2o := none
    derived := {}
    kept := {} }

/-- The fresh instance opened by `seg`, its first segment accounted. -/
def freshTrack (id : ConnId) (seg : Segment) : ConnTrack :=
  let track := blankTrack id seg
  let dir := track.directionOf seg.flow.source
  let track := track.account seg dir
  if seg.flags.fin then track.markFin dir else track

/-- A connection `evict_dead_connections` removes: terminal or idle, and last active before
the horizon. -/
def ConnTrack.evictable (cfg : EngineConfig) (horizon : ℕ) (now : Nanos) (c : ConnTrack) : Bool :=
  (c.state.terminal || decide (cfg.deadAfter.ns < now.ns - c.lastAt.ns)) &&
    decide (c.lastAt.ns < horizon)

/-- A tracked connection with its derived metric series. -/
structure ConnectionMetrics where
  conn : Connection
  series : List MetricSample
  deriving DecidableEq

namespace Tracker

def new : Tracker where
  conns := []
  live := fun _ => none
  nextInstance := fun _ => none
  collectedSamples := 0
  overflowed := false
  now := Nanos.sat 0

/-- Run `f` on every connection in order, threading the count and the flag. -/
def eachSlot (f : Slot → Slot) : List ConnTrack → ℕ → Bool → List ConnTrack × ℕ × Bool
  | [], n, o => ([], n, o)
  | c :: cs, n, o =>
    let s := f ⟨c, n, o⟩
    let (cs', n', o') := eachSlot f cs s.collectedSamples s.overflowed
    (s.track :: cs', n', o')

/-- `eachSlot` on a tracker's connections. -/
def forEach (t : Tracker) (f : Slot → Slot) : Tracker :=
  let (conns, n, o) := eachSlot f t.conns t.collectedSamples t.overflowed
  { t with conns, collectedSamples := n, overflowed := o }

section Observing

variable (cfg : EngineConfig)

/-- The eviction horizon `now - window`, saturated at zero. -/
def horizon (t : Tracker) (window : Nanos) : ℕ := t.now.ns - window.ns

/-- Age out samples older than the horizon. No-op under fail-fast. -/
def evictSamples (t : Tracker) : Tracker :=
  match cfg.retention.window with
  | none => t
  | some window => t.forEach (Slot.evict (t.horizon window))

/-- `live.get(&pair)`, when the segment joins the instance found there. -/
def joins (t : Tracker) (seg : Segment) : Option ℕ :=
  match t.live seg.pair with
  | none => none
  | some idx =>
    match t.conns[idx]? with
    | none => none
    | some track => if shouldSplit cfg track seg then none else some idx

/-- The count and flag with `c` in front. -/
def slot (t : Tracker) (c : ConnTrack) : Slot := ⟨c, t.collectedSamples, t.overflowed⟩

/-- The identity `create_instance` gives to the next instance of `pair`. -/
def nextId (t : Tracker) (pair : EndpointPair) : ConnId := ⟨pair, (t.nextInstance pair).getD 0⟩

def createInstance (t : Tracker) (seg : Segment) : Tracker :=
  let pair := seg.pair
  let id := t.nextId pair
  let s := (t.slot (freshTrack id seg)).found cfg seg
  { t with
    conns := t.conns ++ [s.track]
    live := Function.update t.live pair (some t.conns.length)
    nextInstance := Function.update t.nextInstance pair (some (id.inst + 1))
    collectedSamples := s.collectedSamples
    overflowed := s.overflowed }

def joinInstance (t : Tracker) (idx : ℕ) (seg : Segment) : Tracker :=
  match t.conns[idx]? with
  | none => t
  | some track =>
    let s := (t.slot track).join cfg seg
    { t with
      conns := t.conns.set idx s.track
      collectedSamples := s.collectedSamples
      overflowed := s.overflowed }

def observeSegment (t : Tracker) (seg : Segment) : Tracker :=
  match t.joins cfg seg with
  | some idx => t.joinInstance cfg idx seg
  | none => t.createInstance cfg seg

/-- At `t`'s clock, a decay sample for each connection not yet idle. -/
def emitDecaySamples (t : Tracker) : Tracker :=
  if t.overflowed then t else t.forEach (Slot.decay cfg t.now)

/-- `for (i, c) in conns.enumerate() { live.insert(c.id.pair, i) }` into a cleared map. -/
def rebuildLive (conns : List ConnTrack) : EndpointPair → Option ℕ :=
  conns.zipIdx.foldl (fun live p => Function.update live p.1.id.pair (some p.2)) fun _ => none

/-- Remove the dead connections past the horizon; rebuild the pair index and prune
`next_instance` when any was removed. -/
def evictDeadConnections (t : Tracker) : Tracker :=
  match cfg.retention.window with
  | none => t
  | some window =>
    let conns := t.conns.filter fun c => !c.evictable cfg (t.horizon window) t.now
    if conns.length = t.conns.length then t
    else
      { t with
        conns
        live := rebuildLive conns
        nextInstance := fun pair =>
          if conns.any fun c => c.id.pair = pair then t.nextInstance pair else none
        collectedSamples := (conns.map fun c => c.kept.count).sum }

def observeTick (t : Tracker) (at_ : Nanos) : Tracker :=
  if cfg.retention.window.isNone then t
  else
    let t := { t with now := max t.now at_ }
    ((t.emitDecaySamples cfg).evictSamples cfg).evictDeadConnections cfg

/-- Fold one item into the tracker. -/
def observe (t : Tracker) : Item → Tracker
  | .segment seg =>
    let t := { t with now := max t.now seg.ts }
    (t.observeSegment cfg seg).evictSamples cfg
  | .tick at_ => t.observeTick cfg at_

/-- The tracker after `items`. -/
def track (items : List Item) : Tracker := Lib.Runs.run (observe cfg) new items

@[simp] lemma track_nil : track cfg [] = new := rfl

@[simp] lemma track_snoc (p : List Item) (x : Item) :
    track cfg (p ++ [x]) = (track cfg p).observe cfg x :=
  Lib.Runs.run_snoc _ _ p x

end Observing

/-- `(opened_at, pair, instance)`. -/
def sortKey (c : Connection) : ℕ ×ₗ ℕ ×ₗ ℕ ×ₗ ℕ :=
  toLex (c.openedAt.ns, toLex (c.id.pair.low.key, toLex (c.id.pair.high.key, c.id.inst)))

/-- All tracked instances in `(opened_at, pair, instance)` order. -/
def intoConnections (t : Tracker) : List Connection :=
  (t.conns.map ConnTrack.view).insertionSort fun a b => sortKey a ≤ sortKey b

/-- All tracked instances with their metric series, in the same order. -/
def intoMetrics (cfg : EngineConfig) (t : Tracker) :
    Except MetricError (List ConnectionMetrics) :=
  if t.overflowed then
    .error (.sampleCeiling (t.collectedSamples + 1) cfg.retention.maxSamples)
  else
    .ok ((t.conns.map fun c => ⟨c.view, c.kept.series⟩).insertionSort fun a b =>
      sortKey a.conn ≤ sortKey b.conn)

/-- The replay timeline. -/
def intoTimeline (cfg : EngineConfig) (t : Tracker) : Except MetricError Timeline :=
  if t.overflowed then
    .error (.sampleCeiling (t.collectedSamples + 1) cfg.retention.maxSamples)
  else .ok (Timeline.withSeq (t.conns.map ConnTrack.connSeries))

/-- The live timeline: the retained series, open connections extended to `now`. -/
def snapshot (t : Tracker) : Timeline :=
  Timeline.withSeqEnding (t.conns.map ConnTrack.connSeries) t.now

/-- The live eviction horizon, or `now` under fail-fast. -/
def retentionHorizon (cfg : EngineConfig) (t : Tracker) : Nanos :=
  match cfg.retention.window with
  | some w => t.now.saturatingSub w
  | none => t.now

/-- The tracked connection with `id`. -/
def find (t : Tracker) (id : ConnId) : Option ConnTrack := t.conns.find? fun c => c.id = id

end Tracker

end TcpVisr
