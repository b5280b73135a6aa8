import TcpVisr.Timeline

/-!
One tracked instance: its lifecycle, its derivation state and its retained series.
-/

namespace TcpVisr

open TcpSeq

/-- `seq` sits behind `baseline` by more than `threshold`: a drop to a fresh ISN. -/
def isBackwardReset (baseline seq : TcpSeq) (threshold : BitVec 32) : Bool :=
  seq.serialLt baseline && threshold < baseline.serialDiff seq

def isBareSyn (f : TcpFlags) : Bool := f.syn && !f.ack

def isSynAck (f : TcpFlags) : Bool := f.syn && f.ack

/-- Max serial seq seen in a direction: keep the more forward of the two. -/
def advanceBaseline (current : Option TcpSeq) (seq : TcpSeq) : TcpSeq :=
  match current with
  | some base => if base.serialGt seq then base else seq
  | none => seq

/-- Sequence unwrap of one direction: a frontier and its unbounded offset. -/
structure SeqUnwrap where
  frontier : Option (TcpSeq × ℤ) := none
  deriving DecidableEq

/-- The unbounded offset of `seq` from the first seen one. -/
def SeqUnwrap.offset (u : SeqUnwrap) (seq : TcpSeq) : SeqUnwrap × ℤ :=
  match u.frontier with
  | none => (⟨some (seq, 0)⟩, 0)
  | some (fseq, frel) =>
    if seq = fseq then (u, frel)
    else if seq.serialGt fseq then
      let rel := frel + (seq.serialDiff fseq).toNat
      (⟨some (seq, rel)⟩, rel)
    else (u, frel - (fseq.serialDiff seq).toNat)

/-- What metric derivation remembers of an instance. -/
structure Derivation where
  metrics : MetricState := .new
  srtt : PerDir (Option Nanos) := ⟨none, none⟩
  unwrap : PerDir SeqUnwrap := ⟨{}, {}⟩
  deriving DecidableEq

/-- The six retained series of an instance: queues, oldest first. -/
structure Retained where
  series : List MetricSample := []
  states : List StateSample := []
  seq : List SeqSample := []
  inflight : List InFlightSample := []
  rtt : List RttSample := []
  throughput : List ThroughputSample := []
  deriving DecidableEq

/-- Full per-instance tracking state: the lifecycle, what derivation remembers and what is
retained for display. -/
structure ConnTrack where
  id : ConnId
  state : ConnState
  origin : Endpoint
  responder : Endpoint
  originInferred : Bool
  openedAt : Nanos
  lastAt : Nanos
  bytesO2r : ℕ
  bytesR2o : ℕ
  segments : ℕ
  finO2r : Bool
  finR2o : Bool
  baseO2r : Option TcpSeq
  baseR2o : Option TcpSeq
  derived : Derivation
  kept : Retained
  deriving DecidableEq

/-- A sample of any of the six series. -/
inductive Sample
  | state (x : StateSample)
  | metric (x : MetricSample)
  | seq (x : SeqSample)
  | inflight (x : InFlightSample)
  | rtt (x : RttSample)
  | throughput (x : ThroughputSample)
  deriving DecidableEq

/-- `HasT::t`. -/
def Sample.t : Sample → Nanos
  | .state x => x.t
  | .metric x => x.t
  | .seq x => x.t
  | .inflight x => x.t
  | .rtt x => x.t
  | .throughput x => x.t

/-- `evict_front`: drop the front samples with `t < horizon`, never below `keepMin`,
decrementing `count` for each. -/
def evictFront {α : Type} (t : α → Nanos) (horizon keepMin : ℕ) : List α → ℕ → List α × ℕ
  | [], count => ([], count)
  | x :: xs, count =>
    if keepMin < xs.length + 1 ∧ (t x).ns < horizon then
      evictFront t horizon keepMin xs (count - 1)
    else (x :: xs, count)

namespace ConnTrack

def directionOf (c : ConnTrack) (src : Endpoint) : Direction :=
  if src = c.origin then .originToResponder else .responderToOrigin

def baseline (c : ConnTrack) : Direction → Option TcpSeq
  | .originToResponder => c.baseO2r
  | .responderToOrigin => c.baseR2o

def account (c : ConnTrack) (seg : Segment) (dir : Direction) : ConnTrack :=
  let c := { c with lastAt := max c.lastAt seg.ts, segments := c.segments + 1 }
  match dir with
  | .originToResponder =>
    { c with
      bytesO2r := c.bytesO2r + seg.payloadLen.toNat
      baseO2r := some (advanceBaseline c.baseO2r seg.seq) }
  | .responderToOrigin =>
    { c with
      bytesR2o := c.bytesR2o + seg.payloadLen.toNat
      baseR2o := some (advanceBaseline c.baseR2o seg.seq) }

/-- `fin_o2r = true` or `fin_r2o = true`. -/
def markFin (c : ConnTrack) : Direction → ConnTrack
  | .originToResponder => { c with finO2r := true }
  | .responderToOrigin => { c with finR2o := true }

/-- The SYN half of `apply_state`. A bare SYN from the responder side while only the
origin's SYN has been seen is the second leg of a simultaneous open. -/
def applySyn (s : ConnState) (f : TcpFlags) (dir : Direction) : ConnState :=
  if isSynAck f then
    if s = .synSent then s.advanceTo .synReceived else s
  else if isBareSyn f then
    if s = .synSent ∧ dir = .responderToOrigin then s.advanceTo .synReceived else s
  else s

def applyState (c : ConnTrack) (seg : Segment) (dir : Direction) : ConnTrack :=
  let f := seg.flags
  if f.rst then { c with state := .reset }
  else if c.state = .reset then c
  else
    let s := applySyn c.state f dir
    -- The ACK that completes the handshake, or any data, after SYN-ACK.
    let s := if s = .synReceived ∧ (f.ack ∨ seg.isData) then s.advanceTo .established else s
    if f.fin then
      let c := c.markFin dir
      { c with state := s.advanceTo (if c.finO2r && c.finR2o then .closed else .finWait) }
    else { c with state := s }

def snapshot (c : ConnTrack) (t : Nanos) : StateSample := ⟨t, c.state, c.bytesO2r, c.bytesR2o⟩

def view (c : ConnTrack) : Connection where
  id := c.id
  state := c.state
  origin := c.origin
  responder := c.responder
  originInferred := c.originInferred
  openedAt := c.openedAt
  lastAt := c.lastAt
  bytesO2r := c.bytesO2r
  bytesR2o := c.bytesR2o
  segments := c.segments

/-- The view with the five detail series, as a timeline is built from it. -/
def connSeries (c : ConnTrack) : ConnSeries where
  conn := c.view
  states := c.kept.states
  seq := c.kept.seq
  inflight := c.kept.inflight
  rtt := c.kept.rtt
  throughput := c.kept.throughput

end ConnTrack

/-- One SACK block: a `sack` point in the acknowledged direction `acked`. -/
def sackPoint (seg : Segment) (acked : Direction) (p : Derivation × List SeqSample)
    (block : TcpSeq × TcpSeq) : Derivation × List SeqSample :=
  let (u, rel) := (p.1.unwrap.get acked).offset block.1
  ({ p.1 with unwrap := p.1.unwrap.set acked u },
    p.2 ++ [⟨seg.ts, acked.sample, rel, 0, .sack⟩])

/-- The Time/Sequence points of a segment: one `data` point when it carries payload, and one
`sack` point in the opposite direction for each block. -/
def Derivation.pushSeqPoints (v : Derivation) (seg : Segment) (dir : Direction)
    (sample : MetricSample) : Derivation × List SeqSample :=
  let (v, data) :=
    if seg.isData then
      let (u, rel) := (v.unwrap.get dir).offset seg.seq
      ({ v with unwrap := v.unwrap.set dir u },
        [⟨seg.ts, dir.sample, rel, seg.payloadLen,
          .data sample.retransmit sample.outOfOrder⟩])
    else (v, [])
  seg.options.sackBlocks.foldl (sackPoint seg dir.opposite) (v, data)

/-- The index and value of the last maximum, as `max_by_key` finds it. -/
def maxByKey : List ℕ → Option (ℕ × ℕ)
  | [] => none
  | x :: xs =>
    some ((xs.zipIdx 1).foldl (fun best p => if best.2 ≤ p.1 then (p.2, p.1) else best) (0, x))

namespace Retained

/-- `push_back` on the sample's own series. -/
def push (k : Retained) : Sample → Retained
  | .state x => { k with states := k.states ++ [x] }
  | .metric x => { k with series := k.series ++ [x] }
  | .seq x => { k with seq := k.seq ++ [x] }
  | .inflight x => { k with inflight := k.inflight ++ [x] }
  | .rtt x => { k with rtt := k.rtt ++ [x] }
  | .throughput x => { k with throughput := k.throughput ++ [x] }

/-- How many samples are retained. -/
def count (k : Retained) : ℕ :=
  k.states.length + k.series.length + k.seq.length + k.inflight.length + k.rtt.length +
    k.throughput.length

/-- Drop the oldest sample of the longest series, never the last state sample. Returns
whether a sample was popped. -/
def popLongestFront (k : Retained) : Retained × Bool :=
  let lens := [k.states.length - 1, k.series.length, k.seq.length, k.inflight.length,
    k.rtt.length, k.throughput.length]
  match maxByKey lens with
  | none => (k, false)
  | some (which, m) =>
    if m = 0 then (k, false)
    else match which with
      | 0 => ({ k with states := k.states.tail }, !k.states.isEmpty)
      | 1 => ({ k with series := k.series.tail }, !k.series.isEmpty)
      | 2 => ({ k with seq := k.seq.tail }, !k.seq.isEmpty)
      | 3 => ({ k with inflight := k.inflight.tail }, !k.inflight.isEmpty)
      | 4 => ({ k with rtt := k.rtt.tail }, !k.rtt.isEmpty)
      | _ => ({ k with throughput := k.throughput.tail }, !k.throughput.isEmpty)

/-- The body of `evict_samples` for one connection: age the six series, keeping one state
sample, counting down `n`. -/
def evict (horizon : ℕ) (k : Retained) (n : ℕ) : Retained × ℕ :=
  let (states, n) := evictFront StateSample.t horizon 1 k.states n
  let (series, n) := evictFront MetricSample.t horizon 0 k.series n
  let (seq, n) := evictFront SeqSample.t horizon 0 k.seq n
  let (inflight, n) := evictFront InFlightSample.t horizon 0 k.inflight n
  let (rtt, n) := evictFront RttSample.t horizon 0 k.rtt n
  let (throughput, n) := evictFront ThroughputSample.t horizon 0 k.throughput n
  ({ states, series, seq, inflight, rtt, throughput }, n)

end Retained

end TcpVisr
