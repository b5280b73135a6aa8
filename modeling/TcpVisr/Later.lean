import TcpVisr.Observing
import TcpVisr.Index

/-!
Moving times: the derivation and one connection.

Every time a connection holds is moved by one constant. Times are only compared, maximised and
subtracted from each other, so as long as none of them leaves the range of the clock, what is
derived and recorded moves along and is otherwise the same.
-/

namespace TcpVisr

open TcpSeq Recording Slots Plan

/-! ### What a move does to each part of the state -/

/-- The time `k` later, in the range of the clock. -/
def Nanos.later (k : ℕ) (a : Nanos) : Nanos := Nanos.sat (a.ns + k)

def Segment.later (k : ℕ) (seg : Segment) : Segment := { seg with ts := seg.ts.later k }

def Item.later (k : ℕ) : Item → Item
  | .segment seg => .segment (seg.later k)
  | .tick t => .tick (t.later k)

def DirState.later (k : ℕ) (d : DirState) : DirState :=
  { d with
    lastDataTs := d.lastDataTs.map (Nanos.later k)
    pendingRtt := d.pendingRtt.map fun e => (e.1, e.2.later k)
    tput := d.tput.map fun e => (e.1.later k, e.2)
    tputMaxTs := d.tputMaxTs.map (Nanos.later k) }

def MetricState.later (k : ℕ) (m : MetricState) : MetricState :=
  ⟨⟨m.dir.o2r.later k, m.dir.r2o.later k⟩⟩

def Derivation.later (k : ℕ) (v : Derivation) : Derivation :=
  { v with metrics := v.metrics.later k }

def StateSample.later (k : ℕ) (x : StateSample) : StateSample := { x with t := x.t.later k }
def MetricSample.later (k : ℕ) (x : MetricSample) : MetricSample := { x with t := x.t.later k }
def SeqSample.later (k : ℕ) (x : SeqSample) : SeqSample := { x with t := x.t.later k }
def InFlightSample.later (k : ℕ) (x : InFlightSample) : InFlightSample :=
  { x with t := x.t.later k }
def RttSample.later (k : ℕ) (x : RttSample) : RttSample := { x with t := x.t.later k }
def ThroughputSample.later (k : ℕ) (x : ThroughputSample) : ThroughputSample :=
  { x with t := x.t.later k }

def Sample.later (k : ℕ) : Sample → Sample
  | .state x => .state (x.later k)
  | .metric x => .metric (x.later k)
  | .seq x => .seq (x.later k)
  | .inflight x => .inflight (x.later k)
  | .rtt x => .rtt (x.later k)
  | .throughput x => .throughput (x.later k)

def Retained.later (k : ℕ) (r : Retained) : Retained where
  states := r.states.map (StateSample.later k)
  series := r.series.map (MetricSample.later k)
  seq := r.seq.map (SeqSample.later k)
  inflight := r.inflight.map (InFlightSample.later k)
  rtt := r.rtt.map (RttSample.later k)
  throughput := r.throughput.map (ThroughputSample.later k)

def ConnTrack.later (k : ℕ) (c : ConnTrack) : ConnTrack :=
  { c with
    openedAt := c.openedAt.later k
    lastAt := c.lastAt.later k
    derived := c.derived.later k
    kept := c.kept.later k }

def Slot.later (k : ℕ) (s : Slot) : Slot := { s with track := s.track.later k }

/-! ### What lies in the range of the clock -/

/-- No time of the direction lies after `b`. -/
structure DirState.Until (b : ℕ) (d : DirState) : Prop where
  lastDataTs : ∀ t ∈ d.lastDataTs, t.ns ≤ b
  pendingRtt : ∀ e ∈ d.pendingRtt, e.2.ns ≤ b
  tput : ∀ e ∈ d.tput, e.1.ns ≤ b
  tputMaxTs : ∀ t ∈ d.tputMaxTs, t.ns ≤ b

def MetricState.Until (b : ℕ) (m : MetricState) : Prop := ∀ dir, (m.dir.get dir).Until b

def Retained.Until (b : ℕ) (r : Retained) : Prop :=
  AllSeries (fun _ time l => ∀ x ∈ l, (time x).ns ≤ b) r

structure ConnTrack.Until (b : ℕ) (c : ConnTrack) : Prop where
  openedAt : c.openedAt.ns ≤ b
  lastAt : c.lastAt.ns ≤ b
  metrics : c.derived.metrics.Until b
  kept : c.kept.Until b

attribute [ext] DirState

namespace Later

open Observing Lib.Front

variable {cfg : EngineConfig} {b k : ℕ}

/-! ### Times -/

lemma ns_later (hb : b + k ≤ u64Max) {a : Nanos} (ha : a.ns ≤ b) : (a.later k).ns = a.ns + k :=
  min_eq_left (by omega)

/-- Moving is monotone, also at the end of the range. -/
@[simp] lemma later_max (a c : Nanos) : (max a c).later k = max (a.later k) (c.later k) := by
  have hns (a : Nanos) : (a.later k).ns = min (a.ns + k) u64Max := rfl
  ext
  rw [Nanos.ns_max, hns, hns, hns, Nanos.ns_max]
  omega

lemma saturatingSub_later (hb : b + k ≤ u64Max) {a c : Nanos} (ha : a.ns ≤ b) (hc : c.ns ≤ b) :
    (a.later k).saturatingSub (c.later k) = a.saturatingSub c := by
  ext
  change (a.later k).ns - (c.later k).ns = a.ns - c.ns
  rw [ns_later hb ha, ns_later hb hc]
  omega

/-! ### One direction -/

section Direction

variable {d : DirState} {seg : Segment}

@[simp] lemma later_ts : (seg.later k).ts = seg.ts.later k := rfl
@[simp] lemma later_flow : (seg.later k).flow = seg.flow := rfl
@[simp] lemma later_seq : (seg.later k).seq = seg.seq := rfl
@[simp] lemma later_ack : (seg.later k).ack = seg.ack := rfl
@[simp] lemma later_flags : (seg.later k).flags = seg.flags := rfl
@[simp] lemma later_options : (seg.later k).options = seg.options := rfl
@[simp] lemma later_payloadLen : (seg.later k).payloadLen = seg.payloadLen := rfl
@[simp] lemma later_isData : (seg.later k).isData = seg.isData := rfl
@[simp] lemma later_consumes : (seg.later k).consumes = seg.consumes := rfl
@[simp] lemma later_pair : (seg.later k).pair = seg.pair := rfl
@[simp] lemma later_seqEnd : seqEnd (seg.later k) = seqEnd seg := rfl

@[simp] lemma ackAdvances_later : ackAdvances (d.later k) (seg.later k) = ackAdvances d seg := rfl

/-- The reorder gap is a difference of times. -/
lemma classify_later (hb : b + k ≤ u64Max) (hd : d.Until b) (hs : seg.ts.ns ≤ b) :
    classify (d.later k) (seg.later k) cfg = classify d seg cfg := by
  have hgap : (d.lastDataTs.map (Nanos.later k)).elim u64Max
      (fun prev => (seg.ts.later k).ns - prev.ns) =
        d.lastDataTs.elim u64Max fun prev => seg.ts.ns - prev.ns := by
    cases hl : d.lastDataTs with
    | none => rfl
    | some prev =>
        have hprev := hd.lastDataTs prev hl
        simp only [Option.map_some, Option.elim, ns_later hb hs, ns_later hb hprev]
        omega
  have hclass (d : DirState) (seg : Segment) : classify d seg cfg =
      if seg.isData then d.frontier.elim (false, false) fun fr =>
        if seg.seq.serialLt fr then
          if d.lastDataTs.elim u64Max (fun prev => seg.ts.ns - prev.ns) < cfg.reorderWindow.ns then
            (false, true) else (true, false)
        else (false, false)
      else (false, false) := by
    unfold classify
    cases d.frontier <;> cases d.lastDataTs <;> rfl
  rw [hclass, hclass]
  simp only [later_isData, later_seq, later_ts]
  change (if seg.isData = true then d.frontier.elim _ fun fr => if seg.seq.serialLt fr = true then
    if (d.lastDataTs.map (Nanos.later k)).elim u64Max _ < _ then _ else _ else _ else _) = _
  rw [hgap]

/-- The latest data time moves along. -/
lemma tputMaxTs_later (d : DirState) (seg : Segment) :
    (observeOwn (d.later k) (seg.later k) cfg).tputMaxTs =
      (observeOwn d seg cfg).tputMaxTs.map (Nanos.later k) := by
  have hm : (d.later k).tputMaxTs = d.tputMaxTs.map (Nanos.later k) := rfl
  rw [observeOwn_tputMaxTs, observeOwn_tputMaxTs, later_isData, hm]
  split
  · cases d.tputMaxTs <;> simp
  · rfl

/-- A segment does not see the future of its direction. -/
lemma until_observeOwn (hd : d.Until b) (hs : seg.ts.ns ≤ b) : (observeOwn d seg cfg).Until b := by
  refine ⟨?_, ?_, ?_, ?_⟩
  · rw [observeOwn_lastDataTs]
    split
    · simpa using hs
    · exact hd.lastDataTs
  · rw [observeOwn_pendingRtt]
    split_ifs
    · simp
    · intro e he
      rcases List.mem_append.mp he with he | he
      · exact hd.pendingRtt e he
      · rw [List.mem_singleton.mp he]
        exact hs
    · exact hd.pendingRtt
  · intro e he
    rcases mem_observeOwn_tput d seg cfg he with he | rfl
    · exact hd.tput e he
    · exact hs
  · rw [observeOwn_tputMaxTs]
    split
    · cases hm : d.tputMaxTs with
      | none => simpa using hs
      | some m =>
          have := hd.tputMaxTs m hm
          simp only [Option.elim, Option.mem_def, Option.some.injEq, forall_eq', Nanos.ns_max]
          omega
    · exact hd.tputMaxTs

/-- The window keeps the same entries. -/
lemma tput_later (hb : b + k ≤ u64Max) (hd : d.Until b) (hs : seg.ts.ns ≤ b) :
    (observeOwn (d.later k) (seg.later k) cfg).tput =
      (observeOwn d seg cfg).tput.map fun e => (e.1.later k, e.2) := by
  have hmax : ∀ t ∈ (observeOwn d seg cfg).tputMaxTs, t.ns ≤ b :=
    (until_observeOwn hd hs).tputMaxTs
  have hpush : (if seg.isData then (d.later k).tput ++
        [(seg.ts.later k, seg.payloadLen, (classify d seg cfg).1)] else (d.later k).tput) =
      (if seg.isData then d.tput ++ [(seg.ts, seg.payloadLen, (classify d seg cfg).1)]
        else d.tput).map fun e => (e.1.later k, e.2) := by
    split <;> simp [DirState.later]
  have hin : ∀ e ∈ (if seg.isData then
      d.tput ++ [(seg.ts, seg.payloadLen, (classify d seg cfg).1)] else d.tput), e.1.ns ≤ b := by
    split
    · intro e he
      rcases List.mem_append.mp he with he | he
      · exact hd.tput e he
      · rw [List.mem_singleton.mp he]
        exact hs
    · exact hd.tput
  rw [observeOwn_tput, observeOwn_tput, tputMaxTs_later d seg]
  simp only [later_isData, later_ts, later_payloadLen, classify_later hb hd hs, hpush]
  split
  · rfl
  · cases hm : (observeOwn d seg cfg).tputMaxTs with
    | none => rfl
    | some m =>
        refine dropWhile_map_of fun e he => ?_
        have h1 := ns_later hb (hmax m hm)
        have h2 := ns_later hb (hin e he)
        rw [h1, h2]
        exact decide_eq_decide.mpr (by omega)

lemma observeOwn_later (hb : b + k ≤ u64Max) (hd : d.Until b) (hs : seg.ts.ns ≤ b) :
    observeOwn (d.later k) (seg.later k) cfg = (observeOwn d seg cfg).later k := by
  ext1
  · rw [observeOwn_sndNxt]
    exact (observeOwn_sndNxt d seg cfg).symm
  · rw [observeOwn_acked]
    exact (observeOwn_acked d seg cfg).symm
  · rw [observeOwn_frontier]
    exact (observeOwn_frontier d seg cfg).symm
  · change _ = (observeOwn d seg cfg).lastDataTs.map (Nanos.later k)
    rw [observeOwn_lastDataTs, observeOwn_lastDataTs, later_isData]
    split <;> rfl
  · change _ = (observeOwn d seg cfg).pendingRtt.map _
    have hp : (d.later k).pendingRtt = d.pendingRtt.map fun e => (e.1, e.2.later k) := rfl
    rw [observeOwn_pendingRtt, observeOwn_pendingRtt, classify_later hb hd hs, later_consumes, hp]
    split_ifs <;> simp [entry]
  · exact tput_later hb hd hs
  · exact tputMaxTs_later d seg

lemma until_observePeer (hd : d.Until b) (seg : Segment) : (observePeer d seg).Until b := by
  refine ⟨?_, ?_, ?_, ?_⟩
  · unfold observePeer
    split <;> exact hd.lastDataTs
  · rw [observePeer_pendingRtt]
    split
    · exact fun e he => hd.pendingRtt e (List.dropWhile_subset _ he)
    · exact hd.pendingRtt
  · rw [observePeer_tput]
    exact hd.tput
  · rw [observePeer_tputMaxTs]
    exact hd.tputMaxTs

lemma observePeer_later (d : DirState) (seg : Segment) :
    observePeer (d.later k) (seg.later k) = (observePeer d seg).later k := by
  unfold observePeer
  rw [ackAdvances_later, popPending_eq, popPending_eq]
  split
  · have hdrop : (d.pendingRtt.map fun e => (e.1, e.2.later k)).dropWhile (covered seg.ack) =
        (d.pendingRtt.dropWhile (covered seg.ack)).map fun e => (e.1, e.2.later k) :=
      dropWhile_map_of fun _ _ => rfl
    simp only [DirState.later, later_ack, hdrop]
  · rfl

/-- A round trip is a difference of times. -/
lemma rttOf_later (hb : b + k ≤ u64Max) (hd : d.Until b) (hs : seg.ts.ns ≤ b) :
    rttOf (d.later k) (seg.later k) = rttOf d seg := by
  rw [rttOf_eq, rttOf_eq, ackAdvances_later]
  split
  · cases hp : d.pendingRtt with
    | nil => simp [DirState.later, hp]
    | cons e l =>
        have he := hd.pendingRtt e (by rw [hp]; exact List.mem_cons_self)
        simp only [DirState.later, hp, List.map_cons, List.head?_cons, later_ack, later_ts]
        by_cases hcov : covered seg.ack e = true
        · have hcov' : covered seg.ack (e.1, e.2.later k) = true := hcov
          simp [Option.filter, hcov, hcov', saturatingSub_later hb hs he]
        · have hcov' : ¬ covered seg.ack (e.1, e.2.later k) = true := hcov
          simp [Option.filter, hcov, hcov']
  · rfl

end Direction

/-! ### Both directions -/

section Metrics

variable {m : MetricState} {v : Derivation} {seg : Segment} {dir : Direction} {t : Nanos}

@[simp] lemma get_later (m : MetricState) (dir : Direction) :
    (m.later k).dir.get dir = (m.dir.get dir).later k := by
  cases dir <;> rfl

lemma until_observe (hm : m.Until b) (hs : seg.ts.ns ≤ b) :
    (m.observe seg dir cfg).1.Until b :=
  (forall_observe m seg dir cfg (P := fun _ d => d.Until b)).mpr
    ⟨until_observeOwn (hm dir) hs, until_observePeer (hm dir.opposite) seg⟩

@[simp] lemma inFlight_later (m : MetricState) (dir : Direction) :
    (m.later k).inFlight dir = m.inFlight dir := by
  unfold MetricState.inFlight
  rw [get_later]
  rfl

/-- The trailing window is measured from the time it is read at. -/
lemma throughputAt_later (hb : b + k ≤ u64Max) (hm : m.Until b) (ht : t.ns ≤ b) :
    (m.later k).throughputAt dir (t.later k) cfg = m.throughputAt dir t cfg := by
  have hmax : ((m.dir.get dir).later k).tputMaxTs =
      (m.dir.get dir).tputMaxTs.map (Nanos.later k) := rfl
  have htput : ((m.dir.get dir).later k).tput =
      (m.dir.get dir).tput.map fun e => (e.1.later k, e.2) := rfl
  unfold MetricState.throughputAt
  simp only [get_later, hmax, htput, Option.isNone_map, List.foldl_map]
  rw [List.foldl_ext _ (fun (acc : ℕ × ℕ) e =>
    if t.ns < e.1.ns + cfg.throughputWindow.ns ∧ e.1.ns ≤ t.ns then
      (acc.1 + e.2.1.toNat, if e.2.2 then acc.2 else acc.2 + e.2.1.toNat)
    else acc)]
  intro acc e he
  have h1 := ns_later hb ht
  have h2 := ns_later hb ((hm dir).tput e he)
  rw [h1, h2]
  refine if_congr ?_ rfl rfl
  omega

/-- **Derivation sees differences of times only.** -/
theorem observe_later (hb : b + k ≤ u64Max) (hm : m.Until b) (hs : seg.ts.ns ≤ b) :
    (m.later k).observe (seg.later k) dir cfg =
      ((m.observe seg dir cfg).1.later k, (m.observe seg dir cfg).2.later k) := by
  have hset : ∀ x y : DirState,
      (⟨((m.later k).dir.set dir (x.later k)).set dir.opposite (y.later k)⟩ : MetricState) =
        MetricState.later k ⟨(m.dir.set dir x).set dir.opposite y⟩ := by
    intro x y
    cases dir <;> rfl
  have hstate : ((m.later k).observe (seg.later k) dir cfg).1 =
      (m.observe seg dir cfg).1.later k := by
    simp only [MetricState.observe, get_later, observeOwn_later hb (hm dir) hs,
      observePeer_later, hset]
  have hrate : ((m.observe seg dir cfg).1.later k).throughputAt dir (seg.ts.later k) cfg =
      (m.observe seg dir cfg).1.throughputAt dir seg.ts cfg :=
    throughputAt_later hb (until_observe hm hs) hs
  rw [← hstate] at hrate
  have hsample : ((m.later k).observe (seg.later k) dir cfg).2 =
      (m.observe seg dir cfg).2.later k := by
    change (⟨_, _, _, (Option.map Prod.fst (((m.later k).observe (seg.later k) dir
      cfg).1.throughputAt dir (seg.ts.later k) cfg)).getD 0, rttOf _ _, (classify _ _ cfg).1,
        (classify _ _ cfg).2, _⟩ : MetricSample) = _
    rw [hrate, get_later, get_later, classify_later hb (hm dir) hs,
      rttOf_later hb (hm dir.opposite) hs]
    rfl
  exact Prod.ext hstate hsample

lemma sackPoint_later (acked : Direction) (xs : List SeqSample) (block : TcpSeq × TcpSeq) :
    sackPoint (seg.later k) acked (v.later k, xs.map (SeqSample.later k)) block =
      ((sackPoint seg acked (v, xs) block).1.later k,
        (sackPoint seg acked (v, xs) block).2.map (SeqSample.later k)) := by
  simp only [sackPoint, List.map_append, List.map_singleton]
  rfl

lemma pushSeqPoints_later (sample : MetricSample) :
    (v.later k).pushSeqPoints (seg.later k) dir (sample.later k) =
      ((v.pushSeqPoints seg dir sample).1.later k,
        (v.pushSeqPoints seg dir sample).2.map (SeqSample.later k)) := by
  have hfold : ∀ (blocks : List (TcpSeq × TcpSeq)) (v : Derivation) (xs : List SeqSample),
      blocks.foldl (sackPoint (seg.later k) dir.opposite)
          (v.later k, xs.map (SeqSample.later k)) =
        ((blocks.foldl (sackPoint seg dir.opposite) (v, xs)).1.later k,
          (blocks.foldl (sackPoint seg dir.opposite) (v, xs)).2.map (SeqSample.later k)) := by
    intro blocks
    induction blocks with
    | nil => exact fun _ _ => rfl
    | cons x bs ih =>
        intro v xs
        rw [List.foldl_cons, List.foldl_cons, sackPoint_later]
        exact ih _ _
  unfold Derivation.pushSeqPoints
  by_cases h : seg.isData = true
  · simp only [later_isData, h, if_true]
    exact hfold seg.options.sackBlocks
      { v with unwrap := v.unwrap.set dir ((v.unwrap.get dir).offset seg.seq).1 }
      [⟨seg.ts, dir.sample, ((v.unwrap.get dir).offset seg.seq).2, seg.payloadLen,
        .data sample.retransmit sample.outOfOrder⟩]
  · simp only [later_isData, h]
    exact hfold seg.options.sackBlocks v []

end Metrics

/-! ### Recording -/

section Recording

variable {s : Slot} {r r' : Retained} {t : Nanos}

lemma push_later (r : Retained) (x : Sample) :
    (r.later k).push (x.later k) = (r.push x).later k := by
  cases x <;> simp [Retained.push, Retained.later, Sample.later]

/-- What the backstop pops depends on the lengths alone. -/
lemma pop_later (r : Retained) : (r.later k).popLongestFront =
    (r.popLongestFront.1.later k, r.popLongestFront.2) := by
  unfold Retained.popLongestFront
  simp only [Retained.later, List.length_map]
  cases maxByKey [r.states.length - 1, r.series.length, r.seq.length, r.inflight.length,
    r.rtt.length, r.throughput.length] with
  | none => rfl
  | some p =>
      obtain ⟨which, n⟩ := p
      by_cases hn : n = 0
      · simp [hn]
      · simp only [hn, if_false]
        rcases which with _ | _ | _ | _ | _ | _ <;> simp [List.map_tail, List.isEmpty_map]

lemma put_later (s : Slot) (r : Retained) (n : ℕ) :
    put (s.later k) (r.later k) n = (put s r n).later k := rfl

lemma store_later (s : Slot) (x : Sample) :
    (s.later k).store cfg (x.later k) = (s.store cfg x).later k := by
  have hc : (s.later k).collectedSamples = s.collectedSamples := rfl
  by_cases hn : cfg.retention.maxSamples ≤ s.collectedSamples
  · by_cases hw : cfg.retention.window.isSome
    · obtain ⟨⟨r, p⟩, hp⟩ : ∃ p, s.track.kept.popLongestFront = p := ⟨_, rfl⟩
      have hp' : (s.later k).track.kept.popLongestFront = (r.later k, p) := by
        change (s.track.kept.later k).popLongestFront = _
        rw [pop_later, hp]
      have hstore : s.store cfg x =
          put s (r.push x) ((if p then s.collectedSamples - 1 else s.collectedSamples) + 1) := by
        simp only [Slot.store, Slot.admitSample, hn, hw, Slot.evictOldestGlobal, hp, put, if_true]
      rw [hstore, ← put_later, ← push_later]
      simp only [Slot.store, Slot.admitSample, hc, hn, hw, Slot.evictOldestGlobal, hp', put,
        if_true]
    · simp only [Slot.store, Slot.admitSample, hc, hn, hw, if_true]
      rfl
  · have hlt : s.collectedSamples < cfg.retention.maxSamples := not_le.mp hn
    rw [store_of_room hlt, store_of_room (s := s.later k) hlt, ← put_later, ← push_later]
    rfl

lemma record_later (s : Slot) (x : Sample) :
    (s.later k).record cfg (x.later k) = (s.record cfg x).later k := by
  have ho : (s.later k).overflowed = s.overflowed := rfl
  unfold Slot.record
  rw [store_later, ho]
  split <;> rfl

lemma recordAll_later (s : Slot) (xs : List Sample) :
    recordAll cfg (xs.map (Sample.later k)) (s.later k) = (recordAll cfg xs s).later k := by
  induction xs generalizing s with
  | nil => rfl
  | cons x xs ih => rw [List.map_cons, recordAll_cons, recordAll_cons, record_later, ih]

lemma rederive_later (s : Slot) (v : Derivation) :
    rederive (s.later k) (v.later k) = (rederive s v).later k := rfl

/-- What grows by samples up to `b` stays up to `b`. -/
lemma until_grows {P : Sample → Prop} (hg : Grows P r r') (hr : r.Until b)
    (hP : ∀ x, P x → x.t.ns ≤ b) : r'.Until b := by
  refine hg.keeps (I := Retained.Until b) hr (fun _ _ h hd => ?_) (fun r x h hx => ?_)
  · exact h.drop hd fun _ _ _ _ hs h x hx => h x (hs.subset hx)
  · refine h.push fun _ time l y hy hl z hz => ?_
    rcases List.mem_append.mp hz with hz | hz
    · exact hl z hz
    · rw [List.mem_singleton.mp hz, hy]
      exact hP x hx

end Recording

/-! ### The collectors -/

section Collectors

variable {s : Slot} {v : Derivation} {seg : Segment} {dir : Direction} {t : Nanos}

lemma inflightPlan_later (v : Derivation) (t : Nanos) :
    inflightPlan cfg (v.later k) (t.later k) =
      (inflightPlan cfg v t).map (Sample.later k) := by
  unfold inflightPlan
  split
  · simp only [List.map_filterMap, Option.map_map]
    change List.filterMap (fun dir => Option.map _ ((v.metrics.later k).inFlight dir)) _ = _
    simp only [inFlight_later]
    rfl
  · rfl

lemma throughputPlan_later (hb : b + k ≤ u64Max) (hv : v.metrics.Until b) (ht : t.ns ≤ b) :
    throughputPlan cfg (v.later k) (t.later k) =
      (throughputPlan cfg v t).map (Sample.later k) := by
  unfold throughputPlan
  split
  · simp only [List.map_filterMap, Option.map_map]
    change List.filterMap
      (fun dir => Option.map _ ((v.metrics.later k).throughputAt dir (t.later k) cfg)) _ = _
    simp only [throughputAt_later hb hv ht]
    rfl
  · rfl

lemma seqPlan_later (v : Derivation) (seg : Segment) (dir : Direction) (sample : MetricSample) :
    seqPlan cfg (v.later k) (seg.later k) dir (sample.later k) =
      ((seqPlan cfg v seg dir sample).1.later k,
        (seqPlan cfg v seg dir sample).2.map (Sample.later k)) := by
  unfold seqPlan
  split
  · simp only [pushSeqPoints_later, List.map_map]
    rfl
  · rfl

lemma rttPlan_later (v : Derivation) (sample : MetricSample) :
    rttPlan cfg (v.later k) (sample.later k) =
      ((rttPlan cfg v sample).1.later k, (rttPlan cfg v sample).2.map (Sample.later k)) := by
  have hr : (sample.later k).rtt = sample.rtt := rfl
  unfold rttPlan
  rw [hr]
  split
  · cases sample.rtt <;> rfl
  · rfl

lemma collectSeqPoints_later (s : Slot) (seg : Segment) (dir : Direction)
    (sample : MetricSample) :
    (s.later k).collectSeqPoints cfg (seg.later k) dir (sample.later k) =
      (s.collectSeqPoints cfg seg dir sample).later k := by
  cases ho : s.overflowed with
  | true =>
      have ho' : (s.later k).overflowed = true := ho
      simp [Slot.collectSeqPoints, ho, ho']
  | false =>
      rw [collectSeqPoints_eq seg dir sample ho, collectSeqPoints_eq (s := s.later k) _ dir _ ho]
      change recordAll cfg (seqPlan cfg (s.track.derived.later k) _ dir _).2 (rederive _
        (seqPlan cfg (s.track.derived.later k) _ dir _).1) = _
      rw [seqPlan_later, rederive_later, recordAll_later]

lemma collectRttPoints_later (s : Slot) (sample : MetricSample) :
    (s.later k).collectRttPoints cfg (sample.later k) =
      (s.collectRttPoints cfg sample).later k := by
  cases ho : s.overflowed with
  | true =>
      have ho' : (s.later k).overflowed = true := ho
      simp [Slot.collectRttPoints, ho, ho']
  | false =>
      rw [collectRttPoints_eq sample ho, collectRttPoints_eq (s := s.later k) _ ho]
      change recordAll cfg (rttPlan cfg (s.track.derived.later k) _).2 (rederive _
        (rttPlan cfg (s.track.derived.later k) _).1) = _
      rw [rttPlan_later, rederive_later, recordAll_later]

lemma collectInflightAt_later (s : Slot) (t : Nanos) :
    (s.later k).collectInflightAt cfg (t.later k) = (s.collectInflightAt cfg t).later k := by
  rw [collectInflightAt_eq, collectInflightAt_eq, ← recordAll_later, ← inflightPlan_later]
  rfl

lemma collectThroughputAt_later (hb : b + k ≤ u64Max) (hs : s.track.derived.metrics.Until b)
    (ht : t.ns ≤ b) :
    (s.later k).collectThroughputAt cfg (t.later k) = (s.collectThroughputAt cfg t).later k := by
  rw [collectThroughputAt_eq, collectThroughputAt_eq, ← recordAll_later,
    ← throughputPlan_later hb hs ht]
  rfl

lemma recordSample_later (s : Slot) (sample : MetricSample) :
    (s.later k).recordSample cfg (sample.later k) = (s.recordSample cfg sample).later k := by
  have hid : (s.later k).track.id = s.track.id := rfl
  unfold Slot.recordSample
  rw [hid]
  split
  · rfl
  · exact store_later s (.metric sample)

/-- Deriving a segment, both moved. -/
lemma derive_later (hb : b + k ≤ u64Max) (hm : s.track.derived.metrics.Until b)
    (hs : seg.ts.ns ≤ b) :
    (s.later k).derive cfg (seg.later k) dir = (s.derive cfg seg dir).later k := by
  cases hw : s.wantsDerivation cfg with
  | false =>
      have hw' : (s.later k).wantsDerivation cfg = false := hw
      rw [Slot.derive, if_neg (by simp [hw']), Slot.derive, if_neg (by simp [hw])]
  | true =>
      have hw' : (s.later k).wantsDerivation cfg = true := hw
      obtain ⟨s₂, hs₂, hd⟩ := derive_of_wants s seg dir hw
      obtain ⟨s₂', hs₂', hd'⟩ := derive_of_wants (s.later k) (seg.later k) dir hw'
      have hobs : (s.later k).track.derived.metrics.observe (seg.later k) dir cfg =
          ((s.track.derived.metrics.observe seg dir cfg).1.later k,
            (s.track.derived.metrics.observe seg dir cfg).2.later k) := observe_later hb hm hs
      have h₂ : s₂' = s₂.later k := by
        rw [hs₂, hs₂', hobs]
        change (if cfg.shouldCollect s.track.id then (Slot.later k (rederive s
          { s.track.derived with
            metrics := (s.track.derived.metrics.observe seg dir cfg).1 })).recordSample cfg _
          else _) = _
        rw [recordSample_later]
        split <;> rfl
      have hm₂ : s₂.track.derived.metrics = (s.track.derived.metrics.observe seg dir cfg).1 := by
        rw [hs₂, metrics_want, rederive_derived]
      rw [hd, hd', h₂, hobs]
      simp only [collectSeqPoints_later, collectInflightAt_later, collectRttPoints_later, later_ts]
      refine collectThroughputAt_later hb ?_ hs
      rw [metrics_collected, hm₂]
      exact until_observe hm hs

lemma until_derive (hm : s.track.derived.metrics.Until b) (hs : seg.ts.ns ≤ b) :
    (s.derive cfg seg dir).track.derived.metrics.Until b := by
  rw [metrics_derive]
  split
  · exact until_observe hm hs
  · exact hm

end Collectors

/-! ### A segment or a tick on one connection -/

section Connection

variable {s : Slot} {c : ConnTrack} {seg : Segment} {t : Nanos}

lemma noteState_later (s : Slot) (t : Nanos) :
    (s.later k).noteState cfg (t.later k) = (s.noteState cfg t).later k := by
  rw [noteState_eq, noteState_eq, ← recordAll_later]
  unfold statePlan
  split <;> rfl

lemma account_later (c : ConnTrack) (seg : Segment) (dir : Direction) :
    (c.later k).account (seg.later k) dir = (c.account seg dir).later k := by
  cases dir with
  | originToResponder => simp only [ConnTrack.account, ConnTrack.later, later_max]; rfl
  | responderToOrigin => simp only [ConnTrack.account, ConnTrack.later, later_max]; rfl

lemma applyState_later (c : ConnTrack) (seg : Segment) (dir : Direction) :
    (c.later k).applyState (seg.later k) dir = (c.applyState seg dir).later k :=
  applyState_comm (f := ConnTrack.later k) (fun _ => ⟨rfl, rfl, rfl⟩) (fun _ _ => rfl)
    (fun _ dir => by cases dir <;> rfl) rfl rfl c dir

lemma accounted_later (c : ConnTrack) (seg : Segment) :
    accounted (c.later k) (seg.later k) = (accounted c seg).later k := by
  unfold accounted
  change ((c.later k).account (seg.later k) (c.directionOf seg.flow.source)).applyState
    (seg.later k) (c.directionOf seg.flow.source) = _
  rw [account_later, applyState_later]

lemma freshTrack_later (id : ConnId) (seg : Segment) :
    freshTrack id (seg.later k) = (freshTrack id seg).later k := by
  have hblank : blankTrack id (seg.later k) = (blankTrack id seg).later k := rfl
  have hdir : ((blankTrack id seg).later k).directionOf seg.flow.source =
      (blankTrack id seg).directionOf seg.flow.source := rfl
  unfold freshTrack
  simp only [hblank, later_flags, later_flow, hdir, account_later]
  split
  · cases (blankTrack id seg).directionOf seg.flow.source <;> rfl
  · rfl

lemma join_later (hb : b + k ≤ u64Max) (hm : s.track.derived.metrics.Until b)
    (hs : seg.ts.ns ≤ b) :
    (s.later k).join cfg (seg.later k) = (s.join cfg seg).later k := by
  have hnote : (Slot.later k { s with track := accounted s.track seg }).noteState cfg
      (seg.ts.later k) =
        (Slot.noteState cfg { s with track := accounted s.track seg } seg.ts).later k :=
    noteState_later _ _
  have hderived : (({ s with track := accounted s.track seg } : Slot).noteState cfg
      seg.ts).track.derived = s.track.derived := by
    rw [noteState_eq, recordAll_derived, accounted_derived]
  change (Slot.noteState cfg { s.later k with track := accounted (s.track.later k) _ } _).derive cfg
    _ (s.track.directionOf seg.flow.source) = _
  rw [accounted_later]
  change (Slot.noteState cfg (Slot.later k { s with track := accounted s.track seg })
    (seg.ts.later k)).derive cfg _ _ = _
  rw [hnote, derive_later hb (by rw [hderived]; exact hm) hs]
  rfl

lemma found_later (hb : b + k ≤ u64Max) (hm : s.track.derived.metrics.Until b)
    (hs : seg.ts.ns ≤ b) :
    (s.later k).found cfg (seg.later k) = (s.found cfg seg).later k := by
  change (Slot.derive cfg (s.later k) _ (s.track.directionOf seg.flow.source)).noteState cfg
    (seg.ts.later k) = _
  rw [derive_later hb hm hs, noteState_later]
  rfl

/-- Decay samples depend on how long ago a connection was active. -/
lemma decay_later (hb : b + k ≤ u64Max) (hc : s.track.Until b) (ht : t.ns ≤ b) :
    (s.later k).decay cfg (t.later k) = (s.decay cfg t).later k := by
  have hplan : decayPlan cfg (t.later k) (s.track.later k) =
      (decayPlan cfg t s.track).map (Sample.later k) := by
    have hidle : (t.later k).ns - (s.track.lastAt.later k).ns = t.ns - s.track.lastAt.ns := by
      rw [ns_later hb ht, ns_later hb hc.lastAt]
      omega
    unfold decayPlan
    change (if cfg.deadAfter.ns < (t.later k).ns - (s.track.lastAt.later k).ns then _ else
      throughputPlan cfg (s.track.derived.later k) (t.later k) ++
        inflightPlan cfg (s.track.derived.later k) (t.later k)) = _
    rw [hidle, throughputPlan_later hb hc.metrics ht, inflightPlan_later]
    split
    · rfl
    · exact List.map_append.symm
  rw [decay_eq, decay_eq, ← recordAll_later, ← hplan]
  rfl

/-! What comes of a connection in the range of the clock lies in it. -/

lemma until_fresh (id : ConnId) (hs : seg.ts.ns ≤ b) : (freshTrack id seg).Until b := by
  obtain ⟨_, _, _, _, _, _, h⟩ := Index.freshTrack_frame id seg
  have hd : (freshTrack id seg).derived = {} := by
    rw [h]
    rfl
  refine ⟨?_, ?_, ?_, ?_⟩
  · rw [Index.openedAt_freshTrack]
    exact hs
  · rw [Index.lastAt_freshTrack]
    exact hs
  · rw [hd]
    intro dir
    cases dir <;> constructor <;> simp [MetricState.new, PerDir.get]
  · rw [Index.kept_freshTrack]
    constructor <;> simp

/-- A connection with the lifecycle part of `c'` and what grew out of its series. -/
lemma until_of_recorded {P : Sample → Prop} {s s' : Slot} (h : Recorded cfg P s s')
    (hs : s.track.Until b) (hm : s'.track.derived.metrics.Until b) (hP : ∀ x, P x → x.t.ns ≤ b) :
    s'.track.Until b := by
  refine ⟨?_, ?_, hm, until_grows h.grows hs.kept hP⟩
  · rw [eq_of_core ConnTrack.openedAt h.core]
    exact hs.openedAt
  · rw [eq_of_core ConnTrack.lastAt h.core]
    exact hs.lastAt

lemma until_accounted (hc : c.Until b) (hs : seg.ts.ns ≤ b) : (accounted c seg).Until b := by
  refine ⟨?_, ?_, ?_, ?_⟩
  · rw [accounted_openedAt]
    exact hc.openedAt
  · rw [accounted_lastAt, Nanos.ns_max]
    exact max_le hc.lastAt hs
  · rw [accounted_derived]
    exact hc.metrics
  · rw [accounted_kept]
    exact hc.kept

lemma until_join (hc : s.track.Until b) (hs : seg.ts.ns ≤ b) :
    (s.join cfg seg).track.Until b := by
  refine until_of_recorded (recorded_join cfg s seg) (until_accounted hc hs) ?_ ?_
  · refine until_derive (s := ({ s with track := accounted s.track seg } : Slot).noteState cfg
      seg.ts) ?_ hs
    rw [noteState_eq, recordAll_derived, accounted_derived]
    exact hc.metrics
  · intro x hx
    rw [hx]
    exact hs

lemma until_found (hc : s.track.Until b) (hs : seg.ts.ns ≤ b) :
    (s.found cfg seg).track.Until b := by
  refine until_of_recorded (recorded_found cfg s seg) hc ?_ ?_
  · change ((s.derive cfg seg _).noteState cfg seg.ts).track.derived.metrics.Until b
    rw [noteState_eq, recordAll_derived]
    exact until_derive hc.metrics hs
  · intro x hx
    rw [hx]
    exact hs

lemma until_decay (hc : s.track.Until b) (ht : t.ns ≤ b) : (s.decay cfg t).track.Until b := by
  refine until_of_recorded (recorded_decay cfg t s) hc ?_ ?_
  · rw [decay_eq, recordAll_derived]
    exact hc.metrics
  · intro x hx
    rw [hx.1]
    exact ht

end Connection

end Later

end TcpVisr
