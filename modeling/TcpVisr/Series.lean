import TcpVisr.Journal
import TcpVisr.Observing

/-!
The five timelines and the metric samples.

Both are read off one derivation state, the metric sample while it is updated and the
timelines afterwards. Record by record they say the same: what a timeline shows of a segment
in the segment's own direction is what its metric sample says, and the smoothed round trips
are the fold of the measured ones.
-/

namespace TcpVisr.Series

open Recording Slots Plan Lifecycle Index Appending Ceiling Journal Observing

/-- Metric samples of every instance and all five timelines are collected. -/
structure Full (cfg : EngineConfig) : Prop where
  metrics : cfg.seriesCollection = .all
  states : cfg.collectStateTimeline = true
  seq : cfg.collectSeqTimeline = true
  inflight : cfg.collectInflightTimeline = true
  rtt : cfg.collectRttTimeline = true
  throughput : cfg.collectThroughputTimeline = true

/-- A Time/Sequence mark less its place: time, direction, length and kind. -/
def label (x : SeqSample) : Nanos × SampleDir × BitVec 32 × SeqKind := (x.t, x.dir, x.len, x.kind)

/-- The marks of a segment with the metric sample `s`: one `data` mark if it carries payload,
and a `sack` mark in the opposite direction for each block. -/
def labels (seg : Segment) (s : MetricSample) : List (Nanos × SampleDir × BitVec 32 × SeqKind) :=
  (if seg.isData then [(s.t, s.dir, seg.payloadLen, .data s.retransmit s.outOfOrder)] else []) ++
    seg.options.sackBlocks.map fun _ => (s.t, s.dir.opposite, 0, .sack)

/-- The round trips the metric samples of direction `d` measure, with their times. -/
def roundTrips (d : SampleDir) (l : List MetricSample) : List (Nanos × Nanos) :=
  (l.filter fun s => s.dir = d).filterMap fun s => s.rtt.map fun rtt => (s.t, rtt)

/-- The smoothed values of `l`: the first one, then an eighth of each later one. -/
def smoothed : List ℕ → List ℕ
  | [] => []
  | rtt :: l => l.scanl (fun prev rtt => (7 * prev + rtt) / 8) rtt

/-- Round trips, each with the smoothed value it leads to. -/
def withSmoothed (l : List (Nanos × Nanos)) : List (Nanos × Nanos × ℕ) :=
  List.zipWith (fun x srtt => (x.1, x.2, srtt)) l (smoothed (l.map fun x => x.2.ns))

/-- The segment's direction has sent data, by the end of `l`. -/
def sentData (c : ConnTrack) (l : List Record) (dir : Direction) : Bool :=
  l.any fun e => e.seg.isData && decide (c.directionOf e.seg.flow.source = dir)

/-- The record `e`, after the records `p`, shows in its own direction what its metric sample
`s` says. -/
structure Echoes (c : ConnTrack) (p : List Record) (e : Record) (s : MetricSample) : Prop where
  metric : e.samples.series = [s]
  time : s.t = e.seg.ts
  dir : s.dir = (c.directionOf e.seg.flow.source).sample
  seq : e.samples.seq.map label = labels e.seg s
  inflight : (e.samples.inflight.filter fun x => x.dir = s.dir) = [⟨s.t, s.dir, s.inFlightBytes⟩]
  throughput : ((e.samples.throughput.filter fun x => x.dir = s.dir).map fun x =>
    (x.t, x.throughputBps)) =
      if sentData c (p ++ [e]) (c.directionOf e.seg.flow.source) then [(s.t, s.throughputBps)]
      else []
  idle : sentData c (p ++ [e]) (c.directionOf e.seg.flow.source) = false → s.throughputBps = 0

/-- The series of `c` are its records in order; each record echoes its metric sample, and the
round trips shown of a direction are those the opposite one's metric samples measure. -/
structure Agrees (c : ConnTrack) (l : List Record) : Prop where
  kept : c.kept = (l.map Record.samples).foldl Retained.append {}
  count : c.kept.series.length = l.length
  seq : c.kept.seq.map label = (List.zipWith labels (l.map Record.seg) c.kept.series).flatten
  each : ∀ p e, p ++ [e] <+: l → ∃ s, Echoes c p e s
  rtt : ∀ dir : Direction, ((c.kept.rtt.filter fun x => x.dir = dir.sample).map fun x =>
    (x.t, x.rtt, x.srtt.ns)) = withSmoothed (roundTrips dir.opposite.sample c.kept.series)

variable {cfg : EngineConfig} {c c' : ConnTrack} {l : List Record} {seg : Segment}
  {dir : Direction} {m : ℕ}

@[simp] lemma index_sample (dir : Direction) : dir.sample.index = dir := by
  cases dir <;> rfl

@[simp] lemma opposite_sample (dir : Direction) : dir.sample.opposite = dir.opposite.sample := by
  cases dir <;> rfl

@[simp] lemma sample_inj {d e : Direction} : d.sample = e.sample ↔ d = e := by
  cases d <;> cases e <;> simp [Direction.sample]

/-! ### Smoothing -/

/-- The smoothed value after `rtt`. -/
def smooth (prev : Option ℕ) (rtt : ℕ) : ℕ := prev.elim rtt fun prev => (7 * prev + rtt) / 8

lemma ns_srttAfter (prev : Option Nanos) (rtt : Nanos) :
    (Slot.srttAfter prev rtt).ns = smooth (prev.map Nanos.ns) rtt.ns := by
  cases prev with
  | none => rfl
  | some prev =>
      have h1 := prev.le_max
      have h2 := rtt.le_max
      change min ((7 * prev.ns + rtt.ns) / 8) u64Max = (7 * prev.ns + rtt.ns) / 8
      apply min_eq_left
      omega

lemma smoothed_snoc (l : List ℕ) (rtt : ℕ) :
    smoothed (l ++ [rtt]) = smoothed l ++ [smooth (smoothed l).getLast? rtt] := by
  cases l with
  | nil => rfl
  | cons x l =>
      simp only [List.cons_append, smoothed, List.scanl_append, List.getLast?_scanl, smooth,
        Option.elim, List.scanl_cons, List.scanl_nil, List.tail_cons]

lemma length_smoothed (l : List ℕ) : (smoothed l).length = l.length := by
  cases l with
  | nil => rfl
  | cons x l => simp [smoothed]

lemma withSmoothed_snoc (l : List (Nanos × Nanos)) (x : Nanos × Nanos) :
    withSmoothed (l ++ [x]) = withSmoothed l ++
      [(x.1, x.2, smooth (smoothed (l.map fun x => x.2.ns)).getLast? x.2.ns)] := by
  unfold withSmoothed
  rw [List.map_append, List.map_singleton, smoothed_snoc,
    List.zipWith_append (by rw [length_smoothed, List.length_map])]
  rfl

lemma roundTrips_snoc (d : SampleDir) (l : List MetricSample) (s : MetricSample) :
    roundTrips d (l ++ [s]) = roundTrips d l ++
      if s.dir = d then (s.rtt.map fun rtt => (s.t, rtt)).toList else [] := by
  unfold roundTrips
  by_cases h : s.dir = d
  · cases hr : s.rtt <;> simp [h, hr]
  · simp [h]

/-- A sample is a round trip of the direction opposite to its own. -/
lemma roundTrips_opposite_snoc {dir : Direction} {s : MetricSample} (hs : s.dir = dir.sample)
    (d : Direction) (l : List MetricSample) :
    roundTrips d.opposite.sample (l ++ [s]) = roundTrips d.opposite.sample l ++
      if dir.opposite = d then (s.rtt.map fun rtt => (s.t, rtt)).toList else [] := by
  have hflip : dir = d.opposite ↔ dir.opposite = d := by
    cases dir <;> cases d <;> simp [Direction.opposite]
  rw [roundTrips_snoc, hs]
  simp only [sample_inj, hflip]

/-! ### What a segment records -/

/-- Pushing samples of one kind extends the series of that kind. -/
lemma pushAll_map {α : Type} (g : α → Sample) (extend : Retained → List α → Retained)
    (hnil : ∀ k, extend k [] = k) (hcons : ∀ k x l, extend (k.push (g x)) l = extend k (x :: l))
    (k : Retained) (l : List α) : pushAll k (l.map g) = extend k l := by
  induction l generalizing k with
  | nil => exact (hnil k).symm
  | cons x l ih => rw [List.map_cons, pushAll_cons, ih, hcons]

lemma pushAll_map_seq (k : Retained) (l : List SeqSample) :
    pushAll k (l.map .seq) = { k with seq := k.seq ++ l } :=
  pushAll_map .seq (fun k l => { k with seq := k.seq ++ l }) (by simp) (by simp [Retained.push]) k l

lemma pushAll_map_inflight (k : Retained) (l : List InFlightSample) :
    pushAll k (l.map .inflight) = { k with inflight := k.inflight ++ l } :=
  pushAll_map .inflight (fun k l => { k with inflight := k.inflight ++ l }) (by simp)
    (by simp [Retained.push]) k l

lemma pushAll_map_rtt (k : Retained) (l : List RttSample) :
    pushAll k (l.map .rtt) = { k with rtt := k.rtt ++ l } :=
  pushAll_map .rtt (fun k l => { k with rtt := k.rtt ++ l }) (by simp) (by simp [Retained.push])
    k l

lemma pushAll_map_throughput (k : Retained) (l : List ThroughputSample) :
    pushAll k (l.map .throughput) = { k with throughput := k.throughput ++ l } :=
  pushAll_map .throughput (fun k l => { k with throughput := k.throughput ++ l }) (by simp)
    (by simp [Retained.push]) k l

/-- What is in flight, for the directions that have both marks. -/
def flights (m : MetricState) (t : Nanos) : List InFlightSample :=
  Direction.both.filterMap fun dir => (m.inFlight dir).map fun bytes => ⟨t, dir.sample, bytes⟩

/-- The rates, for the directions that have sent data. -/
def rates (cfg : EngineConfig) (m : MetricState) (t : Nanos) : List ThroughputSample :=
  Direction.both.filterMap fun dir =>
    (m.throughputAt dir t cfg).map fun r => ⟨t, dir.sample, r.1, r.2⟩

/-- The round trip of a metric sample, with the smoothed value it leads to. -/
def trips (d : Derivation) (s : MetricSample) : List RttSample :=
  (s.rtt.map fun rtt => ⟨s.t, s.dir.opposite, rtt,
    Slot.srttAfter (d.srtt.get s.dir.opposite.index) rtt⟩).toList

lemma inflightPlan_of_full (h : Full cfg) (d : Derivation) (t : Nanos) :
    inflightPlan cfg d t = (flights d.metrics t).map .inflight := by
  rw [inflightPlan, if_pos h.inflight, flights, List.map_filterMap]
  simp only [Option.map_map]
  rfl

lemma throughputPlan_of_full (h : Full cfg) (d : Derivation) (t : Nanos) :
    throughputPlan cfg d t = (rates cfg d.metrics t).map .throughput := by
  rw [throughputPlan, if_pos h.throughput, rates, List.map_filterMap]
  simp only [Option.map_map]
  rfl

lemma rttPlan_of_full (h : Full cfg) (d : Derivation) (s : MetricSample) :
    (rttPlan cfg d s).2 = (trips d s).map .rtt := by
  rw [rttPlan, if_pos h.rtt, trips]
  cases s.rtt <;> rfl

/-- A round trip touches the smoothed value of its own direction alone. -/
lemma rttPlan_fst (h : Full cfg) (d : Derivation) (s : MetricSample) :
    (rttPlan cfg d s).1 = { d with
      srtt := s.rtt.elim d.srtt fun rtt => d.srtt.set s.dir.opposite.index
        (some (Slot.srttAfter (d.srtt.get s.dir.opposite.index) rtt)) } := by
  rw [rttPlan, if_pos h.rtt]
  cases s.rtt <;> rfl

/-- The marks of a segment. -/
lemma pushSeqPoints_labels (seg : Segment) (dir : Direction) (v : Derivation)
    (s : MetricSample) (ht : s.t = seg.ts) (hd : s.dir = dir.sample) :
    (v.pushSeqPoints seg dir s).2.map label = labels seg s := by
  have hfold : ∀ (blocks : List (TcpSeq × TcpSeq)) (p : Derivation × List SeqSample),
      (blocks.foldl (sackPoint seg dir.opposite) p).2.map label =
        p.2.map label ++ blocks.map (fun _ => (seg.ts, dir.opposite.sample, 0, .sack)) := by
    intro blocks
    induction blocks with
    | nil => simp
    | cons b bs ih =>
        intro p
        rw [List.foldl_cons, ih]
        simp [sackPoint, label]
  unfold Derivation.pushSeqPoints labels
  rw [ht, hd, opposite_sample]
  by_cases h : seg.isData = true
  · simp only [h, if_true]
    exact hfold _ _
  · simp only [h]
    exact hfold _ _

/-- What all collectors together record of a segment. -/
lemma samples_derivePlan (h : Full cfg) (id : ConnId) (d : Derivation) (seg : Segment)
    (dir : Direction) :
    let o := d.metrics.observe seg dir cfg
    let p := Derivation.pushSeqPoints { d with metrics := o.1 } seg dir o.2
    pushAll {} (derivePlan cfg id d seg dir).2 =
      { series := [o.2]
        seq := p.2
        inflight := flights o.1 seg.ts
        rtt := trips d o.2
        throughput := rates cfg o.1 seg.ts } ∧
    (derivePlan cfg id d seg dir).1.metrics = o.1 ∧
    (derivePlan cfg id d seg dir).1.srtt = o.2.rtt.elim d.srtt fun rtt =>
      d.srtt.set o.2.dir.opposite.index
        (some (Slot.srttAfter (d.srtt.get o.2.dir.opposite.index) rtt)) := by
  intro o p
  have hs : cfg.shouldCollect id = true := by
    simp [EngineConfig.shouldCollect, h.metrics]
  obtain ⟨u, hu⟩ := pushSeqPoints_frame { d with metrics := o.1 } seg dir o.2
  have hplan : derivePlan cfg id d seg dir =
      ((rttPlan cfg p.1 o.2).1,
        metricPlan cfg id o.2 ++ p.2.map .seq ++ inflightPlan cfg p.1 seg.ts ++
          (rttPlan cfg p.1 o.2).2 ++ throughputPlan cfg (rttPlan cfg p.1 o.2).1 seg.ts) := by
    simp only [derivePlan, hs, seqPlan, h.seq, Bool.true_or, if_true]
    rfl
  have hp : p.1.metrics = o.1 ∧ p.1.srtt = d.srtt := by
    change (Derivation.pushSeqPoints { d with metrics := o.1 } seg dir o.2).1.metrics = o.1 ∧
      (Derivation.pushSeqPoints { d with metrics := o.1 } seg dir o.2).1.srtt = d.srtt
    rw [hu]
    exact ⟨rfl, rfl⟩
  have htrips : trips p.1 o.2 = trips d o.2 := by
    unfold trips
    rw [hp.2]
  refine ⟨?_, ?_, ?_⟩
  · simp only [hplan, metricPlan, hs, if_true, inflightPlan_of_full h, rttPlan_of_full h,
      throughputPlan_of_full h, rttPlan_fst h, pushAll_append, pushAll_cons, pushAll_nil,
      pushAll_map_seq, pushAll_map_inflight, pushAll_map_rtt, pushAll_map_throughput,
      Retained.push, List.nil_append, hp.1, htrips]
  · rw [hplan]
    simp only [rttPlan_fst h, hp.1]
  · rw [hplan]
    simp only [rttPlan_fst h, hp.2]

/-! ### The segment's own direction -/

/-- Of what is read from both directions, the samples of one are those read from it. -/
lemma filter_both {α : Type} (f : Direction → Option α) (dirOf : α → SampleDir)
    (hf : ∀ d x, f d = some x → dirOf x = d.sample) (dir : Direction) :
    ((Direction.both.filterMap f).filter fun x => dirOf x = dir.sample) = (f dir).toList := by
  have hside (d : Direction) : ((f d).toList.filter fun x => dirOf x = dir.sample) =
      if d = dir then (f dir).toList else [] := by
    split
    · next h =>
        subst h
        refine List.filter_eq_self.mpr fun x hx => ?_
        exact decide_eq_true (hf d x (Option.mem_toList.mp hx))
    · next h =>
        refine List.filter_eq_nil_iff.mpr fun x hx => ?_
        have hx := hf d x (Option.mem_toList.mp hx)
        simpa [hx] using h
  have hboth : Direction.both.filterMap f =
      (f .originToResponder).toList ++ (f .responderToOrigin).toList := by
    simp only [Direction.both, List.filterMap_cons, List.filterMap_nil]
    cases f .originToResponder <;> cases f .responderToOrigin <;> rfl
  rw [hboth, List.filter_append, hside, hside]
  cases dir <;> simp

lemma flights_own (m : MetricState) :
    ((flights (m.observe seg dir cfg).1 seg.ts).filter fun x => x.dir = dir.sample) =
      [⟨seg.ts, dir.sample, (m.observe seg dir cfg).2.inFlightBytes⟩] := by
  unfold flights
  rw [filter_both _ InFlightSample.dir, inFlight_observe]
  · rfl
  · intro d x hx
    obtain ⟨b, -, rfl⟩ := Option.map_eq_some_iff.mp hx
    rfl

lemma throughputBps_observe (m : MetricState) :
    (m.observe seg dir cfg).2.throughputBps =
      (((m.observe seg dir cfg).1.throughputAt dir seg.ts cfg).map Prod.fst).getD 0 := rfl

/-- A direction has a rate once it has sent data. -/
lemma throughputAt_isSome (cfg : EngineConfig) (m : MetricState) (t : Nanos) :
    (m.throughputAt dir t cfg).isSome = (m.dir.get dir).tputMaxTs.isSome := by
  unfold MetricState.throughputAt
  dsimp only
  cases (m.dir.get dir).tputMaxTs with
  | none => simp
  | some t =>
      rw [if_neg (by simp)]
      split <;> rfl

lemma rates_own (m : MetricState) :
    (((rates cfg (m.observe seg dir cfg).1 seg.ts).filter fun x => x.dir = dir.sample).map fun x =>
      (x.t, x.throughputBps)) =
      if ((m.observe seg dir cfg).1.dir.get dir).tputMaxTs.isSome then
        [(seg.ts, (m.observe seg dir cfg).2.throughputBps)]
      else [] := by
  unfold rates
  rw [filter_both _ ThroughputSample.dir, ← throughputAt_isSome cfg _ seg.ts,
    throughputBps_observe]
  · cases (m.observe seg dir cfg).1.throughputAt dir seg.ts cfg <;> rfl
  · intro d x hx
    obtain ⟨b, -, rfl⟩ := Option.map_eq_some_iff.mp hx
    rfl

lemma idle_observe (m : MetricState)
    (h : ((m.observe seg dir cfg).1.dir.get dir).tputMaxTs.isSome = false) :
    (m.observe seg dir cfg).2.throughputBps = 0 := by
  rw [← throughputAt_isSome cfg _ seg.ts, Option.isSome_eq_false_iff,
    Option.isNone_iff_eq_none] at h
  rw [throughputBps_observe, h]
  rfl

/-- The latest data time is there once the direction has sent data. -/
lemma tputMaxTs_observe (m : MetricState) (d : Direction) :
    ((m.observe seg dir cfg).1.dir.get d).tputMaxTs.isSome =
      ((m.dir.get d).tputMaxTs.isSome || seg.isData && decide (dir = d)) := by
  revert d
  refine (Direction.forall_iff dir).mpr ⟨?_, ?_⟩
  · rw [get_observe_own, observeOwn_tputMaxTs]
    cases seg.isData <;> simp
  · rw [get_observe_peer, observePeer_tputMaxTs]
    cases dir <;> simp [Direction.opposite]

/-! ### Runs -/

/-- What is carried over the segments of an instance: the series agree, and the derivation
state remembers of either direction the last smoothed value and whether it has sent data. -/
structure Carried (c : ConnTrack) (l : List Record) : Prop where
  agrees : Agrees c l
  srtt : ∀ dir : Direction, (c.derived.srtt.get dir).map Nanos.ns =
    (smoothed ((roundTrips dir.opposite.sample c.kept.series).map fun x => x.2.ns)).getLast?
  sent : ∀ dir, (c.derived.metrics.dir.get dir).tputMaxTs.isSome = sentData c l dir

lemma carried_fresh (id : ConnId) (seg : Segment) : Carried (freshTrack id seg) [] := by
  obtain ⟨_, _, _, _, _, _, h⟩ := freshTrack_frame id seg
  have hd : (freshTrack id seg).derived = {} := by rw [h]; rfl
  refine ⟨⟨by simp, by simp, by simp, by simp, ?_⟩, ?_, ?_⟩
  · intro dir
    rw [kept_freshTrack]
    rfl
  · intro dir
    rw [kept_freshTrack, hd]
    cases dir <;> rfl
  · intro dir
    rw [hd]
    cases dir <;> rfl

/-- A record of a segment that a connection with the series of `c` and `l` extends by. -/
lemma echoes_snoc (h : Full cfg) (hc : Carried c l) {k : Retained}
    (hdir : c'.directionOf = c.directionOf) (hseg : dir = c.directionOf seg.flow.source)
    (hk : ∃ st, k = { pushAll {} (derivePlan cfg c.id c.derived seg dir).2 with states := st }) :
    Echoes c' l ⟨seg, k⟩ (c.derived.metrics.observe seg dir cfg).2 := by
  obtain ⟨st, rfl⟩ := hk
  obtain ⟨hsamples, -, -⟩ := samples_derivePlan h c.id c.derived seg dir
  have hown : c'.directionOf seg.flow.source = dir := by rw [hdir, hseg]
  have hsent : sentData c' (l ++ [⟨seg, { pushAll {} (derivePlan cfg c.id c.derived seg dir).2 with
      states := st }⟩]) dir =
      ((c.derived.metrics.observe seg dir cfg).1.dir.get dir).tputMaxTs.isSome := by
    rw [tputMaxTs_observe, hc.sent dir]
    simp [sentData, hdir, hseg]
  refine ⟨?_, rfl, ?_, ?_, ?_, ?_, ?_⟩
  · rw [hsamples]
  · rw [hown]
    rfl
  · rw [hsamples]
    exact pushSeqPoints_labels seg dir _ _ rfl rfl
  · rw [hsamples]
    exact flights_own _
  · rw [hown, hsent, hsamples]
    exact rates_own _
  · rw [hown, hsent]
    exact idle_observe _

/-- What a record says does not depend on what is derived or retained. -/
lemma echoes_congr {p : List Record} {e : Record} {s : MetricSample}
    (hdir : c'.directionOf = c.directionOf) (h : Echoes c p e s) : Echoes c' p e s := by
  have hsent (l : List Record) (d : Direction) : sentData c' l d = sentData c l d := by
    simp only [sentData, hdir]
  obtain ⟨h1, h2, h3, h4, h5, h6, h7⟩ := h
  rw [← hdir] at h3 h6 h7
  exact ⟨h1, h2, h3, h4, h5, by rw [hsent]; exact h6, by rw [hsent]; exact h7⟩

/-- The round trips of a segment, in direction `d`: those of its metric sample, if its own
direction is the opposite one. -/
lemma trips_filter (v : Derivation) (s : MetricSample) (hs : s.dir = dir.sample)
    (d : Direction) :
    ((trips v s).filter fun x => x.dir = d.sample).map (fun x => (x.t, x.rtt, x.srtt.ns)) =
      if dir.opposite = d then (s.rtt.map fun rtt =>
        (s.t, rtt, smooth ((v.srtt.get d).map Nanos.ns) rtt.ns)).toList else [] := by
  unfold trips
  rw [hs, opposite_sample, index_sample]
  cases s.rtt with
  | none => simp
  | some rtt =>
      by_cases h : dir.opposite = d
      · simp [h, ns_srttAfter]
      · simp [h]

/-- **One segment.** What it records agrees with its metric sample, whatever came before. -/
theorem carried_snoc (h : Full cfg) (hc : Carried c l) {k : Retained}
    (hdir : c'.directionOf = c.directionOf) (hseg : dir = c.directionOf seg.flow.source)
    (hk : ∃ st, k = { pushAll {} (derivePlan cfg c.id c.derived seg dir).2 with states := st })
    (hkept : c'.kept = c.kept.append k)
    (hd : c'.derived = (derivePlan cfg c.id c.derived seg dir).1) :
    Carried c' (l ++ [⟨seg, k⟩]) := by
  have hechoes := echoes_snoc h hc hdir hseg hk
  obtain ⟨st, rfl⟩ := hk
  obtain ⟨hsamples, hm, hsrtt⟩ := samples_derivePlan h c.id c.derived seg dir
  generalize ho : c.derived.metrics.observe seg dir cfg = o at hechoes hsamples hm hsrtt
  have hod : o.2.dir = dir.sample := by rw [← ho]; rfl
  have hseries : c'.kept.series = c.kept.series ++ [o.2] := by
    rw [hkept, hsamples]
    rfl
  have hseq : c'.kept.seq = c.kept.seq ++
      (pushAll {} (derivePlan cfg c.id c.derived seg dir).2).seq := by
    rw [hkept]
    rfl
  have hrtt : c'.kept.rtt = c.kept.rtt ++ trips c.derived o.2 := by
    rw [hkept, hsamples]
    rfl
  have htrips := fun d => roundTrips_opposite_snoc hod d c.kept.series
  refine ⟨⟨?_, ?_, ?_, ?_, ?_⟩, ?_, ?_⟩
  · rw [hkept, hc.agrees.kept]
    simp
  · rw [hseries, List.length_append, List.length_append, hc.agrees.count]
    rfl
  · have hlen : (l.map Record.seg).length = c.kept.series.length := by
      rw [List.length_map, hc.agrees.count]
    rw [hseq, hseries, List.map_append, List.map_append, hechoes.seq, hc.agrees.seq,
      List.zipWith_append hlen, List.flatten_append]
    simp
  · intro p e hp
    rcases List.prefix_concat_iff.mp hp with heq | hpre
    · obtain ⟨rfl, he⟩ := List.append_inj' heq rfl
      obtain rfl := List.singleton_inj.mp he
      exact ⟨_, hechoes⟩
    · obtain ⟨s, hs⟩ := hc.agrees.each p e hpre
      exact ⟨s, echoes_congr hdir hs⟩
  · intro d
    rw [hrtt, hseries, htrips, List.filter_append, List.map_append, hc.agrees.rtt d,
      trips_filter _ _ hod, hc.srtt d]
    split
    · cases o.2.rtt with
      | none => simp
      | some rtt => exact (withSmoothed_snoc _ (o.2.t, rtt)).symm
    · simp
  · intro d
    rw [hd, hsrtt, hseries, htrips, hod, opposite_sample, index_sample]
    cases hr : o.2.rtt with
    | none => simpa using hc.srtt d
    | some rtt =>
        by_cases hdd : dir.opposite = d
        · subst hdd
          simp [ns_srttAfter, smoothed_snoc, hc.srtt dir.opposite]
        · simp [PerDir.get_set_of_ne _ (Ne.symm hdd), hdd, hc.srtt d]
  · intro d
    rw [hd, hm, ← ho, tputMaxTs_observe, hc.sent d]
    simp [sentData, hdir, hseg]

/-- On either way a segment can take, its lifecycle snapshot comes beside what is derived. -/
lemma samples_joinRecord (h : Full cfg) (c : ConnTrack) (seg : Segment) :
    ∃ st, (joinRecord cfg c seg).samples = { pushAll {} (derivePlan cfg c.id c.derived seg
      (c.directionOf seg.flow.source)).2 with states := st } := by
  simp only [joinRecord, joinPlan, statePlan, h.states, if_true, List.singleton_append,
    pushAll_cons]
  rw [Retained.pushAll_eq_append]
  exact ⟨_, rfl⟩

lemma samples_foundRecord (h : Full cfg) (c : ConnTrack) (seg : Segment) :
    ∃ st, (foundRecord cfg c seg).samples = { pushAll {} (derivePlan cfg c.id c.derived seg
      (c.directionOf seg.flow.source)).2 with states := st } := by
  simp only [foundRecord, foundPlan, statePlan, h.states, if_true, pushAll_append, pushAll_cons,
    pushAll_nil]
  exact ⟨_, rfl⟩

/-- **The timelines agree with the metric samples.** In a fail-fast run that does not overflow
and collects everything, the series of every instance are what its segments recorded, one
after the other. Each record echoes its metric sample: the same marks, the same bytes in
flight and the same throughput in the segment's own direction, no throughput before the
direction has sent data. And the round trips shown of a direction are those measured by the
metric samples of the opposite one, with their smoothed values. -/
theorem series_agree (cfg : EngineConfig) (hr : cfg.retention = .failFast m) (hfull : Full cfg)
    (items : List Item) (ho : (Tracker.track cfg items).overflowed = false) :
    ∀ c ∈ (Tracker.track cfg items).conns, Agrees c ((journal cfg items).records c.id) := by
  intro c hc
  refine (forall_journal hr (R := Carried) ?_ ?_ ho c hc).agrees
  · intro id seg
    have hkept : (founded cfg seg (freshTrack id seg)).kept =
        (freshTrack id seg).kept.append (foundRecord cfg (freshTrack id seg) seg).samples := by
      rw [kept_founded, kept_freshTrack, Retained.empty_append]
    exact carried_snoc hfull (carried_fresh id seg) rfl rfl
      (samples_foundRecord hfull (freshTrack id seg) seg) hkept rfl
  · intro c l seg h
    exact carried_snoc hfull h (directionOf_accounted c seg) rfl (samples_joinRecord hfull c seg)
      (kept_joined cfg c seg) rfl

/-- A handshake, data of the origin in two segments, and an acknowledgement of the first with
a block for the second. -/
def talk : List Item :=
  handshake ++ [.segment (.between 1 2 30 TcpFlags.ACK 101 9 501),
    .segment (.between 1 2 35 TcpFlags.ACK 120 10 501),
    .segment { Segment.between 2 1 50 TcpFlags.ACK 501 0 110 with
      options := { sackBlocks := [(120, 130)] } }]

/-- Its one connection shows two round trips of the origin, the second one smoothed. -/
theorem series_agree_talk :
    ((Tracker.track fullConfig talk).conns.map fun c => c.kept.rtt.map fun x =>
      (x.rtt.ns, x.srtt.ns)) = [[(10, 10), (10, 10), (20, 11)]] ∧
    ∀ c ∈ (Tracker.track fullConfig talk).conns,
      Agrees c ((journal fullConfig talk).records c.id) :=
  ⟨by decide +kernel, series_agree fullConfig rfl ⟨rfl, rfl, rfl, rfl, rfl, rfl⟩ talk
    (by decide +kernel)⟩

end TcpVisr.Series
