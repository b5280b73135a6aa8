import TcpVisr.Metrics
import TcpVisr.Lib.AsOf

/-!
The seekable timeline: for a cursor time, which connections are active and what each one's
state and byte counts are as of that time.

Each connection is indexed by the interval `[opened_at, effective_end]` and carries its
series sorted by time. The stable sort of the source is insertion sort here: a stable
sorted permutation is unique.
-/

namespace TcpVisr

open Lib.AsOf

/-- The kind of a Time/Sequence mark. -/
inductive SeqKind
  | data (retransmit outOfOrder : Bool)
  | sack
  deriving DecidableEq

/-- One point on the Time/Sequence graph. `rel` is an `i64`. -/
structure SeqSample where
  t : Nanos
  dir : SampleDir
  rel : ℤ
  len : BitVec 32
  kind : SeqKind
  deriving DecidableEq

/-- One point on the In-flight graph. -/
structure InFlightSample where
  t : Nanos
  dir : SampleDir
  bytes : ℕ
  deriving DecidableEq

/-- One point on the RTT graph. -/
structure RttSample where
  t : Nanos
  dir : SampleDir
  rtt : Nanos
  srtt : Nanos
  deriving DecidableEq

/-- One point on the Throughput graph. -/
structure ThroughputSample where
  t : Nanos
  dir : SampleDir
  throughputBps : ℕ
  goodputBps : ℕ
  deriving DecidableEq

/-- A per-segment lifecycle snapshot. -/
structure StateSample where
  t : Nanos
  state : ConnState
  bytesO2r : ℕ
  bytesR2o : ℕ
  deriving DecidableEq

/-- A connection with its five detail series. -/
structure ConnSeries where
  conn : Connection
  states : List StateSample
  seq : List SeqSample
  inflight : List InFlightSample
  rtt : List RttSample
  throughput : List ThroughputSample
  deriving DecidableEq

/-- A connection's resolved state as of a cursor time. -/
structure AsOf where
  id : ConnId
  state : ConnState
  bytesO2r : ℕ
  bytesR2o : ℕ
  deriving DecidableEq

/-- One connection's timeline entry. -/
structure Entry where
  conn : Connection
  samples : List StateSample
  seq : List SeqSample
  inflight : List InFlightSample
  rtt : List RttSample
  throughput : List ThroughputSample
  effectiveEnd : Nanos
  deriving DecidableEq

structure Timeline where
  entries : List Entry
  start : Nanos
  finish : Nanos
  eventTimes : List Nanos
  deriving DecidableEq

/-- `v.sort_by_key(|x| x.t)`, stable. -/
def sortByTime {α : Type} (time : α → Nanos) (l : List α) : List α :=
  l.insertionSort fun a b => (time a).ns ≤ (time b).ns

/-- `sort_unstable` and `dedup` on times. -/
def sortDedup (l : List Nanos) : List Nanos :=
  (sortByTime id l).destutter (· ≠ ·)

/-- `iter().max().unwrap_or(Nanos(0))`. -/
def maxTime (l : List Nanos) : Nanos := l.foldl max (Nanos.sat 0)

/-- `iter().min().unwrap_or(Nanos(0))`. -/
def minTime : List Nanos → Nanos
  | [] => Nanos.sat 0
  | x :: xs => xs.foldl (fun a b => if a.ns ≤ b.ns then a else b) x

namespace Timeline

/-- The entry of one connection: its series sorted, its interval bounded by `last_at` when
closed and by `finish` when still open. -/
def entry (finish : Nanos) (c : ConnSeries) : Entry where
  conn := c.conn
  samples := sortByTime StateSample.t c.states
  seq := sortByTime SeqSample.t c.seq
  inflight := sortByTime InFlightSample.t c.inflight
  rtt := sortByTime RttSample.t c.rtt
  throughput := sortByTime ThroughputSample.t c.throughput
  effectiveEnd := if c.conn.state.terminal then c.conn.lastAt else finish

/-- Builds the timeline with the interval end forced to `finish`. -/
def withSeqEnding (conns : List ConnSeries) (finish : Nanos) : Timeline where
  entries := conns.map (entry finish)
  start := minTime (conns.flatMap fun c => c.states.map StateSample.t)
  finish := finish
  eventTimes :=
    sortDedup (conns.flatMap fun c => (sortByTime StateSample.t c.states).map StateSample.t)

/-- Builds the timeline, its end the latest `last_at`. -/
def withSeq (conns : List ConnSeries) : Timeline :=
  withSeqEnding conns (maxTime (conns.map fun c => c.conn.lastAt))

/-- The cursor domain. -/
def bounds (tl : Timeline) : Nanos × Nanos := (tl.start, tl.finish)

/-- The tracked connections, in construction order. -/
def connections (tl : Timeline) : List Connection := tl.entries.map Entry.conn

/-- The entry of `id`, if there is one. -/
def find (tl : Timeline) (id : ConnId) : Option Entry := tl.entries.find? fun e => e.conn.id = id

/-- The time span of a connection's detail X axis. -/
def xSpan (tl : Timeline) (id : ConnId) : Option (Nanos × Nanos) :=
  (tl.find id).map fun e => (e.conn.openedAt, e.effectiveEnd)

/-- `opened_at <= t <= effective_end`. -/
def activeEntry (t : Nanos) (e : Entry) : Bool :=
  e.conn.openedAt.ns ≤ t.ns && t.ns ≤ e.effectiveEnd.ns

/-- The entries active at `t`, in construction order. -/
def activeEntries (tl : Timeline) (t : Nanos) : List Entry := tl.entries.filter (activeEntry t)

/-- The ids of the connections active at `t`. -/
def activeAt (tl : Timeline) (t : Nanos) : List ConnId :=
  (tl.activeEntries t).map fun e => e.conn.id

/-- The last sample of a sorted series at or before `t`. -/
def sampleAt (samples : List StateSample) (t : Nanos) : Option StateSample :=
  match partitionPoint (fun s => decide (s.t.ns ≤ t.ns)) samples with
  | 0 => none
  | k + 1 => samples[k]?

/-- Each active connection's state and bytes as of `t`. -/
def resolveAt (tl : Timeline) (t : Nanos) : List AsOf :=
  (tl.activeEntries t).filterMap fun e =>
    (sampleAt e.samples t).map fun s => ⟨e.conn.id, s.state, s.bytesO2r, s.bytesR2o⟩

/-- The nearest event time strictly after `t`. -/
def nextEvent (tl : Timeline) (t : Nanos) : Option Nanos :=
  tl.eventTimes[partitionPoint (fun x => decide (x.ns ≤ t.ns)) tl.eventTimes]?

/-- The nearest event time strictly before `t`. -/
def prevEvent (tl : Timeline) (t : Nanos) : Option Nanos :=
  match partitionPoint (fun x => decide (x.ns < t.ns)) tl.eventTimes with
  | 0 => none
  | k + 1 => tl.eventTimes[k]?

end Timeline

/-! ### Sorting by time -/

variable {α : Type} {time : α → Nanos} {l : List α}

lemma sortByTime_sorted (time : α → Nanos) (l : List α) :
    (sortByTime time l).Pairwise fun a b => (time a).ns ≤ (time b).ns :=
  have : Std.Total fun a b : α => (time a).ns ≤ (time b).ns := ⟨fun _ _ => le_total _ _⟩
  have : IsTrans α fun a b => (time a).ns ≤ (time b).ns := ⟨fun _ _ _ => le_trans⟩
  List.pairwise_insertionSort _ l

lemma sortByTime_perm (time : α → Nanos) (l : List α) : (sortByTime time l).Perm l :=
  List.perm_insertionSort _ l

lemma sortByTime_eq_self (h : l.Pairwise fun a b => (time a).ns ≤ (time b).ns) :
    sortByTime time l = l :=
  h.insertionSort_eq

/-- What a connection resolves to: its last sample, in the order of the sorted series, at or
before `t`. -/
lemma sampleAt_sorted (l : List StateSample) (t : Nanos) :
    Timeline.sampleAt (sortByTime StateSample.t l) t =
      asOf (fun s : StateSample => s.t.ns) t.ns (sortByTime StateSample.t l) :=
  getElem?_partitionPoint (sortByTime_sorted StateSample.t l) t.ns

end TcpVisr
