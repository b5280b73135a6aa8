import TcpVisr.Slots

/-!
What a segment or a tick asks to be recorded, apart from how recording is admitted.

A plan is computed from the derivation state alone: the derivation state afterwards and the
samples, in the order the code records them. While nothing overflows, the code is its plan
recorded sample by sample; at all times it keeps what recording keeps.
-/

namespace TcpVisr.Plan

open Recording Slots

/-- Whether a sample goes to the `states` series. -/
def isState : Sample → Bool
  | .state _ => true
  | _ => false

/-- A detail sample of time `t`. -/
def Detail (t : Nanos) (x : Sample) : Prop := x.t = t ∧ isState x = false

/-- The slot with its connection changed by `f`. -/
def retrack (f : ConnTrack → ConnTrack) (s : Slot) : Slot := { s with track := f s.track }

/-- A change of a connection that neither reads nor writes its series. -/
def Blind (f : ConnTrack → ConnTrack) : Prop :=
  ∀ c k, f { c with kept := k } = { f c with kept := k }

/-- The slot with another derivation state. -/
def rederive (s : Slot) (d : Derivation) : Slot :=
  retrack (fun c => { c with derived := d }) s

variable {cfg : EngineConfig} {s s' : Slot} {f : ConnTrack → ConnTrack}

lemma Blind.kept (hf : Blind f) (c : ConnTrack) : (f c).kept = c.kept := by
  have h := hf c c.kept
  rw [h]

@[simp] lemma rederive_kept (s : Slot) (d : Derivation) :
    (rederive s d).track.kept = s.track.kept := rfl
@[simp] lemma rederive_derived (s : Slot) (d : Derivation) :
    (rederive s d).track.derived = d := rfl
@[simp] lemma rederive_collected (s : Slot) (d : Derivation) :
    (rederive s d).collectedSamples = s.collectedSamples := rfl
@[simp] lemma rederive_overflowed (s : Slot) (d : Derivation) :
    (rederive s d).overflowed = s.overflowed := rfl
@[simp] lemma rederive_rederive (s : Slot) (d d' : Derivation) :
    rederive (rederive s d) d' = rederive s d' := rfl
@[simp] lemma rederive_self (s : Slot) : rederive s s.track.derived = s := rfl
@[simp] lemma retrack_overflowed (f : ConnTrack → ConnTrack) (s : Slot) :
    (retrack f s).overflowed = s.overflowed := rfl

/-! Recording commutes with a change it does not see. -/

lemma retrack_put (hf : Blind f) (s : Slot) (k : Retained) (n : ℕ) :
    retrack f (put s k n) = put (retrack f s) k n := by
  simp only [retrack, put, hf s.track k]

lemma store_retrack (hf : Blind f) (s : Slot) (x : Sample) :
    (retrack f s).store cfg x = retrack f (s.store cfg x) := by
  have hk : (retrack f s).track.kept = s.track.kept := hf.kept s.track
  have hc : (retrack f s).collectedSamples = s.collectedSamples := rfl
  by_cases hn : cfg.retention.maxSamples ≤ s.collectedSamples
  · by_cases hw : cfg.retention.window.isSome
    · obtain ⟨⟨k, b⟩, hp⟩ : ∃ p, s.track.kept.popLongestFront = p := ⟨_, rfl⟩
      have h : ∀ s' : Slot, s'.track.kept = s.track.kept →
          s'.collectedSamples = s.collectedSamples → s'.store cfg x =
            put s' (k.push x) ((if b then s.collectedSamples - 1 else s.collectedSamples) + 1) := by
        intro s' h1 h2
        simp only [Slot.store, Slot.admitSample, h2, hn, hw, Slot.evictOldestGlobal, h1, hp, put,
          if_true]
      rw [h _ hk hc, h s rfl rfl, retrack_put hf]
    · have h : ∀ s' : Slot, s'.collectedSamples = s.collectedSamples →
          s'.store cfg x = { s' with overflowed := true } := by
        intro s' h1
        simp [Slot.store, Slot.admitSample, h1, hn, hw]
      rw [h _ hc, h s rfl]
      rfl
  · have h : ∀ s' : Slot, s'.collectedSamples = s.collectedSamples →
        s'.store cfg x = put s' (s'.track.kept.push x) (s'.collectedSamples + 1) := by
      intro s' h1
      simp [Slot.store, Slot.admitSample, h1, hn, put]
    rw [h _ hc, h s rfl, retrack_put hf, hk, hc]

lemma record_retrack (hf : Blind f) (s : Slot) (x : Sample) :
    (retrack f s).record cfg x = retrack f (s.record cfg x) := by
  unfold Slot.record
  rw [store_retrack hf, retrack_overflowed]
  split <;> rfl

lemma recordAll_retrack (hf : Blind f) (s : Slot) (xs : List Sample) :
    recordAll cfg xs (retrack f s) = retrack f (recordAll cfg xs s) := by
  induction xs generalizing s with
  | nil => rfl
  | cons x xs ih => rw [recordAll_cons, recordAll_cons, record_retrack hf, ih]

lemma recordAll_rederive (cfg : EngineConfig) (s : Slot) (d : Derivation) (xs : List Sample) :
    recordAll cfg xs (rederive s d) = rederive (recordAll cfg xs s) d :=
  recordAll_retrack (fun _ _ => rfl) s xs

lemma record_derived (s : Slot) (x : Sample) :
    (s.record cfg x).track.derived = s.track.derived := by
  have h := recordAll_rederive cfg s s.track.derived [x]
  rw [rederive_self, recordAll_cons, recordAll_nil] at h
  rw [h, rederive_derived]

lemma store_derived (s : Slot) (x : Sample) :
    (s.store cfg x).track.derived = s.track.derived := by
  have hf : Blind fun c => { c with derived := s.track.derived } := fun _ _ => rfl
  have h : s.store cfg x = retrack _ (s.store cfg x) := store_retrack hf s x
  rw [h]
  rfl

lemma recordAll_derived (xs : List Sample) (s : Slot) :
    (recordAll cfg xs s).track.derived = s.track.derived := by
  have h := recordAll_rederive cfg s s.track.derived xs
  rw [rederive_self] at h
  rw [h, rederive_derived]

/-! ### The collectors -/

def metricPlan (cfg : EngineConfig) (id : ConnId) (sample : MetricSample) : List Sample :=
  if cfg.shouldCollect id then [.metric sample] else []

def seqPlan (cfg : EngineConfig) (d : Derivation) (seg : Segment) (dir : Direction)
    (sample : MetricSample) : Derivation × List Sample :=
  if cfg.collectSeqTimeline then
    let (d, points) := d.pushSeqPoints seg dir sample
    (d, points.map .seq)
  else (d, [])

def inflightPlan (cfg : EngineConfig) (d : Derivation) (t : Nanos) : List Sample :=
  if cfg.collectInflightTimeline then
    Direction.both.filterMap fun dir =>
      (d.metrics.inFlight dir).map fun bytes => .inflight ⟨t, dir.sample, bytes⟩
  else []

def rttPlan (cfg : EngineConfig) (d : Derivation) (sample : MetricSample) :
    Derivation × List Sample :=
  if cfg.collectRttTimeline then
    match sample.rtt with
    | none => (d, [])
    | some rtt =>
      let m := sample.dir.opposite
      let srtt := Slot.srttAfter (d.srtt.get m.index) rtt
      ({ d with srtt := d.srtt.set m.index (some srtt) }, [.rtt ⟨sample.t, m, rtt, srtt⟩])
  else (d, [])

def throughputPlan (cfg : EngineConfig) (d : Derivation) (t : Nanos) : List Sample :=
  if cfg.collectThroughputTimeline then
    Direction.both.filterMap fun dir =>
      (d.metrics.throughputAt dir t cfg).map fun r => .throughput ⟨t, dir.sample, r.1, r.2⟩
  else []

/-- The plan of a segment: derive its sample, then what the five collectors ask for. -/
def derivePlan (cfg : EngineConfig) (id : ConnId) (d : Derivation) (seg : Segment)
    (dir : Direction) : Derivation × List Sample :=
  if cfg.shouldCollect id || cfg.collectSeqTimeline || cfg.collectInflightTimeline ||
      cfg.collectRttTimeline || cfg.collectThroughputTimeline then
    let (m, sample) := d.metrics.observe seg dir cfg
    let (d, points) := seqPlan cfg { d with metrics := m } seg dir sample
    let (d', rtts) := rttPlan cfg d sample
    (d', metricPlan cfg id sample ++ points ++ inflightPlan cfg d seg.ts ++ rtts ++
      throughputPlan cfg d' seg.ts)
  else (d, [])

/-- The plan of a decay tick. -/
def decayPlan (cfg : EngineConfig) (t : Nanos) (c : ConnTrack) : List Sample :=
  if cfg.deadAfter.ns < t.ns - c.lastAt.ns then []
  else throughputPlan cfg c.derived t ++ inflightPlan cfg c.derived t

/-- A collector that records, for each direction, what it reads from the derivation state,
records a list. -/
lemma foldl_record {β : Type} (f : Derivation → Direction → Option β)
    (g : Direction → β → Sample) {step : Slot → Direction → Slot}
    (hnone : ∀ s dir, f s.track.derived dir = none → step s dir = s)
    (hsome : ∀ s dir b, f s.track.derived dir = some b → step s dir = s.record cfg (g dir b))
    (ds : List Direction) (s : Slot) :
    ds.foldl step s =
      recordAll cfg (ds.filterMap fun dir => (f s.track.derived dir).map (g dir)) s := by
  induction ds generalizing s with
  | nil => rfl
  | cons dir ds ih =>
      rw [List.foldl_cons, ih]
      cases hf : f s.track.derived dir with
      | none => simp [hnone s dir hf, hf]
      | some b => simp [hsome s dir b hf, hf, record_derived]

lemma collectInflightAt_eq (s : Slot) (t : Nanos) :
    s.collectInflightAt cfg t = recordAll cfg (inflightPlan cfg s.track.derived t) s := by
  unfold Slot.collectInflightAt inflightPlan
  cases ho : s.overflowed with
  | true => rw [recordAll_overflowed _ ho]; rfl
  | false =>
      cases hc : cfg.collectInflightTimeline with
      | false => rfl
      | true =>
          exact foldl_record (fun d dir => d.metrics.inFlight dir)
            (fun dir bytes => .inflight ⟨t, dir.sample, bytes⟩)
            (fun s dir h => by simp only [h]) (fun s dir b h => by simp only [h]; rfl) _ s

lemma collectThroughputAt_eq (s : Slot) (t : Nanos) :
    s.collectThroughputAt cfg t = recordAll cfg (throughputPlan cfg s.track.derived t) s := by
  unfold Slot.collectThroughputAt throughputPlan
  cases ho : s.overflowed with
  | true => rw [recordAll_overflowed _ ho]; rfl
  | false =>
      cases hc : cfg.collectThroughputTimeline with
      | false => rfl
      | true =>
          exact foldl_record (fun d dir => d.metrics.throughputAt dir t cfg)
            (fun dir r => .throughput ⟨t, dir.sample, r.1, r.2⟩)
            (fun s dir h => by simp only [h]) (fun s dir b h => by simp only [h]; rfl) _ s

lemma collectSeqPoints_eq (seg : Segment) (dir : Direction) (sample : MetricSample)
    (ho : s.overflowed = false) :
    s.collectSeqPoints cfg seg dir sample =
      recordAll cfg (seqPlan cfg s.track.derived seg dir sample).2
        (rederive s (seqPlan cfg s.track.derived seg dir sample).1) := by
  unfold Slot.collectSeqPoints seqPlan
  cases hc : cfg.collectSeqTimeline with
  | false => simp [ho]
  | true => simp [ho, recordAll, List.foldl_map, rederive, retrack]; rfl

lemma collectRttPoints_eq (sample : MetricSample) (ho : s.overflowed = false) :
    s.collectRttPoints cfg sample =
      recordAll cfg (rttPlan cfg s.track.derived sample).2
        (rederive s (rttPlan cfg s.track.derived sample).1) := by
  unfold Slot.collectRttPoints rttPlan
  cases hc : cfg.collectRttTimeline with
  | false => simp [ho]
  | true =>
      cases hr : sample.rtt with
      | none => simp [ho]
      | some rtt => simp [ho, rederive, retrack]; rfl

lemma recordSample_eq (sample : MetricSample) (ho : s.overflowed = false) :
    (if cfg.shouldCollect s.track.id then s.recordSample cfg sample else s) =
      recordAll cfg (metricPlan cfg s.track.id sample) s := by
  unfold Slot.recordSample metricPlan
  cases hc : cfg.shouldCollect s.track.id <;> simp [Slot.record, ho]

/-! ### What the plans contain -/

lemma detail_metricPlan {id : ConnId} {sample : MetricSample} :
    ∀ x ∈ metricPlan cfg id sample, Detail sample.t x := by
  unfold metricPlan
  split
  · simp [Detail, Sample.t, isState]
  · simp

lemma t_of_mem_pushSeqPoints (v : Derivation) (seg : Segment) (dir : Direction)
    (sample : MetricSample) : ∀ x ∈ (v.pushSeqPoints seg dir sample).2, x.t = seg.ts := by
  have hfold : ∀ (blocks : List (TcpSeq × TcpSeq)) (p : Derivation × List SeqSample),
      (∀ x ∈ p.2, x.t = seg.ts) →
        ∀ x ∈ (blocks.foldl (sackPoint seg dir.opposite) p).2, x.t = seg.ts := by
    intro blocks
    induction blocks with
    | nil => exact fun p hp => hp
    | cons b bs ih =>
        intro p hp
        refine ih _ fun x hx => ?_
        rcases List.mem_append.mp hx with hx | hx
        · exact hp x hx
        · rw [List.mem_singleton.mp hx]
  unfold Derivation.pushSeqPoints
  by_cases h : seg.isData = true
  · simp only [h, if_true]
    exact hfold _ _ (by simp)
  · simp only [h]
    exact hfold _ _ (by simp)

/-- Marking writes the unwrap frontiers alone. -/
lemma pushSeqPoints_frame (v : Derivation) (seg : Segment) (dir : Direction)
    (sample : MetricSample) :
    ∃ u, (v.pushSeqPoints seg dir sample).1 = { v with unwrap := u } := by
  have hfold : ∀ (blocks : List (TcpSeq × TcpSeq)) (p : Derivation × List SeqSample),
      (∃ u, p.1 = { v with unwrap := u }) →
        ∃ u, (blocks.foldl (sackPoint seg dir.opposite) p).1 = { v with unwrap := u } := by
    intro blocks
    induction blocks with
    | nil => exact fun _ hp => hp
    | cons b bs ih =>
        rintro p ⟨u, hu⟩
        refine ih (sackPoint seg dir.opposite p b) ⟨?_, ?_⟩
        · exact (sackPoint seg dir.opposite p b).1.unwrap
        · change { p.1 with unwrap := (sackPoint seg dir.opposite p b).1.unwrap } = _
          rw [hu]
  unfold Derivation.pushSeqPoints
  by_cases h : seg.isData = true
  · simp only [h, if_true]
    exact hfold _ _ ⟨_, rfl⟩
  · simp only [h]
    exact hfold _ _ ⟨_, rfl⟩

lemma detail_seqPlan {d : Derivation} {seg : Segment} {dir : Direction} {sample : MetricSample} :
    ∀ x ∈ (seqPlan cfg d seg dir sample).2, Detail seg.ts x := by
  unfold seqPlan
  split
  · intro x hx
    obtain ⟨y, hy, rfl⟩ := List.mem_map.mp hx
    exact ⟨t_of_mem_pushSeqPoints d seg dir sample y hy, rfl⟩
  · simp

lemma detail_inflightPlan {d : Derivation} {t : Nanos} :
    ∀ x ∈ inflightPlan cfg d t, Detail t x := by
  unfold inflightPlan
  split
  · intro x hx
    obtain ⟨dir, -, hx⟩ := List.mem_filterMap.mp hx
    obtain ⟨b, -, rfl⟩ := Option.map_eq_some_iff.mp hx
    exact ⟨rfl, rfl⟩
  · simp

lemma detail_rttPlan {d : Derivation} {sample : MetricSample} :
    ∀ x ∈ (rttPlan cfg d sample).2, Detail sample.t x := by
  unfold rttPlan
  split
  · split
    · simp
    · simp [Detail, Sample.t, isState]
  · simp

lemma detail_throughputPlan {d : Derivation} {t : Nanos} :
    ∀ x ∈ throughputPlan cfg d t, Detail t x := by
  unfold throughputPlan
  split
  · intro x hx
    obtain ⟨dir, -, hx⟩ := List.mem_filterMap.mp hx
    obtain ⟨b, -, rfl⟩ := Option.map_eq_some_iff.mp hx
    exact ⟨rfl, rfl⟩
  · simp

lemma detail_derivePlan {id : ConnId} {d : Derivation} {seg : Segment} {dir : Direction} :
    ∀ x ∈ (derivePlan cfg id d seg dir).2, Detail seg.ts x := by
  unfold derivePlan
  split
  · intro x hx
    simp only [List.mem_append] at hx
    rcases hx with (((hx | hx) | hx) | hx) | hx
    · exact detail_metricPlan x hx
    · exact detail_seqPlan x hx
    · exact detail_inflightPlan x hx
    · exact detail_rttPlan x hx
    · exact detail_throughputPlan x hx
  · simp

lemma detail_decayPlan {t : Nanos} {c : ConnTrack} : ∀ x ∈ decayPlan cfg t c, Detail t x := by
  unfold decayPlan
  split
  · simp
  · intro x hx
    rcases List.mem_append.mp hx with hx | hx
    · exact detail_throughputPlan x hx
    · exact detail_inflightPlan x hx

/-! ### What the collectors record -/

lemma recorded_collectInflightAt (s : Slot) (t : Nanos) :
    Recorded cfg (Detail t) s (s.collectInflightAt cfg t) := by
  rw [collectInflightAt_eq]
  exact recorded_recordAll cfg detail_inflightPlan s

lemma recorded_collectThroughputAt (s : Slot) (t : Nanos) :
    Recorded cfg (Detail t) s (s.collectThroughputAt cfg t) := by
  rw [collectThroughputAt_eq]
  exact recorded_recordAll cfg detail_throughputPlan s

lemma recorded_collectSeqPoints (s : Slot) (seg : Segment) (dir : Direction)
    (sample : MetricSample) :
    Recorded cfg (Detail seg.ts) s (s.collectSeqPoints cfg seg dir sample) := by
  cases ho : s.overflowed with
  | true => simp [Slot.collectSeqPoints, ho, Recorded.refl]
  | false =>
      rw [collectSeqPoints_eq seg dir sample ho]
      exact (Recorded.rederive s _).trans (recorded_recordAll cfg detail_seqPlan _)

lemma recorded_collectRttPoints (s : Slot) (sample : MetricSample) :
    Recorded cfg (Detail sample.t) s (s.collectRttPoints cfg sample) := by
  cases ho : s.overflowed with
  | true => simp [Slot.collectRttPoints, ho, Recorded.refl]
  | false =>
      rw [collectRttPoints_eq sample ho]
      exact (Recorded.rederive s _).trans (recorded_recordAll cfg detail_rttPlan _)

lemma recorded_recordSample (s : Slot) (sample : MetricSample) :
    Recorded cfg (Detail sample.t) s (s.recordSample cfg sample) := by
  unfold Slot.recordSample
  split
  · exact .refl s
  · exact recorded_store cfg ⟨rfl, rfl⟩ s

/-- The collectors one after the other. -/
lemma derive_of_wants (s : Slot) (seg : Segment) (dir : Direction)
    (h : s.wantsDerivation cfg = true) :
    ∃ s₂, s₂ = (if cfg.shouldCollect s.track.id then
          (rederive s { s.track.derived with
            metrics := (s.track.derived.metrics.observe seg dir cfg).1 }).recordSample cfg
              (s.track.derived.metrics.observe seg dir cfg).2
        else rederive s { s.track.derived with
            metrics := (s.track.derived.metrics.observe seg dir cfg).1 }) ∧
      s.derive cfg seg dir =
        (((s₂.collectSeqPoints cfg seg dir
            (s.track.derived.metrics.observe seg dir cfg).2).collectInflightAt cfg
              seg.ts).collectRttPoints cfg
                (s.track.derived.metrics.observe seg dir cfg).2).collectThroughputAt cfg
                  seg.ts := by
  refine ⟨_, rfl, ?_⟩
  unfold Slot.derive
  rw [if_pos h]
  rfl

/-! No collector touches the metric state. -/

section Metrics

variable {seg : Segment} {dir : Direction} {t : Nanos}

lemma metrics_seqPlan (v : Derivation) (sample : MetricSample) :
    (seqPlan cfg v seg dir sample).1.metrics = v.metrics := by
  obtain ⟨u, hu⟩ := pushSeqPoints_frame v seg dir sample
  unfold seqPlan
  split
  · change (v.pushSeqPoints seg dir sample).1.metrics = v.metrics
    rw [hu]
  · rfl

lemma metrics_rttPlan (v : Derivation) (sample : MetricSample) :
    (rttPlan cfg v sample).1.metrics = v.metrics := by
  unfold rttPlan
  split
  · cases sample.rtt <;> rfl
  · rfl

lemma metrics_collectSeqPoints (s : Slot) (sample : MetricSample) :
    (s.collectSeqPoints cfg seg dir sample).track.derived.metrics = s.track.derived.metrics := by
  cases ho : s.overflowed with
  | true => simp [Slot.collectSeqPoints, ho]
  | false =>
      rw [collectSeqPoints_eq seg dir sample ho, recordAll_derived, rederive_derived,
        metrics_seqPlan]

lemma metrics_collectRttPoints (s : Slot) (sample : MetricSample) :
    (s.collectRttPoints cfg sample).track.derived.metrics = s.track.derived.metrics := by
  cases ho : s.overflowed with
  | true => simp [Slot.collectRttPoints, ho]
  | false =>
      rw [collectRttPoints_eq sample ho, recordAll_derived, rederive_derived, metrics_rttPlan]

lemma metrics_recordSample (s : Slot) (sample : MetricSample) :
    (s.recordSample cfg sample).track.derived.metrics = s.track.derived.metrics := by
  unfold Slot.recordSample
  split
  · rfl
  · rw [store_derived]

lemma metrics_collected (s : Slot) (sample : MetricSample) :
    (((s.collectSeqPoints cfg seg dir sample).collectInflightAt cfg t).collectRttPoints cfg
      sample).track.derived.metrics = s.track.derived.metrics := by
  rw [metrics_collectRttPoints, collectInflightAt_eq, recordAll_derived, metrics_collectSeqPoints]

lemma metrics_want (p : Bool) (s : Slot) (sample : MetricSample) :
    (if p then s.recordSample cfg sample else s).track.derived.metrics =
      s.track.derived.metrics := by
  split
  · exact metrics_recordSample s sample
  · rfl

/-- Deriving a segment folds it into the metrics, or leaves them alone. -/
lemma metrics_derive (cfg : EngineConfig) (s : Slot) (seg : Segment) (dir : Direction) :
    (s.derive cfg seg dir).track.derived.metrics =
      if s.wantsDerivation cfg then (s.track.derived.metrics.observe seg dir cfg).1
      else s.track.derived.metrics := by
  split
  · next hw =>
      obtain ⟨s₂, hs₂, hd⟩ := derive_of_wants s seg dir hw
      rw [hd, collectThroughputAt_eq, recordAll_derived, metrics_collected, hs₂, metrics_want,
        rederive_derived]
  · next hw => rw [Slot.derive, if_neg hw]

end Metrics

lemma recorded_derive (cfg : EngineConfig) (s : Slot) (seg : Segment) (dir : Direction) :
    Recorded cfg (Detail seg.ts) s (s.derive cfg seg dir) := by
  cases hw : s.wantsDerivation cfg with
  | false => rw [Slot.derive, if_neg (by simp [hw])]; exact .refl s
  | true =>
      obtain ⟨s₂, hs₂, hd⟩ := derive_of_wants s seg dir hw
      have h₂ : Recorded cfg (Detail seg.ts) s s₂ := by
        rw [hs₂]
        split
        · exact (Recorded.rederive s _).trans
            (recorded_recordSample _ (s.track.derived.metrics.observe seg dir cfg).2)
        · exact .rederive s _
      rw [hd]
      exact (((h₂.trans (recorded_collectSeqPoints _ _ _ _)).trans
        (recorded_collectInflightAt _ _)).trans
          (recorded_collectRttPoints _ (s.track.derived.metrics.observe seg dir cfg).2)).trans
            (recorded_collectThroughputAt _ _)

lemma decay_eq (t : Nanos) (s : Slot) :
    s.decay cfg t = recordAll cfg (decayPlan cfg t s.track) s := by
  unfold Slot.decay decayPlan
  split
  · rfl
  · rw [collectThroughputAt_eq, collectInflightAt_eq, recordAll_append, recordAll_derived]

lemma recorded_decay (cfg : EngineConfig) (t : Nanos) (s : Slot) :
    Recorded cfg (Detail t) s (s.decay cfg t) := by
  rw [decay_eq]
  exact recorded_recordAll cfg detail_decayPlan s

lemma Detail.states_eq {k : Retained} {t : Nanos} {x : Sample} (h : Detail t x) :
    (k.push x).states = k.states := by
  cases x with
  | state x => simp [Detail, isState] at h
  | _ => rfl

/-- Recording detail samples keeps the last state sample. -/
lemma Grows.last_eq {k k' : Retained} {t : Nanos} (h : Grows (Detail t) k k') :
    k'.states.getLast? = k.states.getLast? :=
  h.keeps (I := fun k' => k'.states.getLast? = k.states.getLast?) rfl
    (fun _ _ ih hd => hd.last.trans ih) (fun _ _ ih hx => by rw [hx.states_eq, ih])

/-! ### A segment as a whole -/

/-- The connection once `seg` is accounted and applied to its state. -/
def accounted (c : ConnTrack) (seg : Segment) : ConnTrack :=
  (c.account seg (c.directionOf seg.flow.source)).applyState seg (c.directionOf seg.flow.source)

/-- `apply_state` touches the state and the FIN marks only. -/
lemma applyState_frame (c : ConnTrack) (seg : Segment) (dir : Direction) :
    ∃ s f g, c.applyState seg dir = { c with state := s, finO2r := f, finR2o := g } := by
  unfold ConnTrack.applyState
  dsimp only
  split
  · exact ⟨_, _, _, rfl⟩
  · split
    · exact ⟨_, _, _, rfl⟩
    · split
      · cases dir <;> exact ⟨_, _, _, rfl⟩
      · exact ⟨_, _, _, rfl⟩

/-- `account` counts and moves `last_at`, a byte total and a baseline forward. -/
lemma account_frame (c : ConnTrack) (seg : Segment) (dir : Direction) :
    ∃ m n b b', c.account seg dir =
      { c with
        lastAt := max c.lastAt seg.ts, segments := c.segments + 1
        bytesO2r := c.bytesO2r + m, bytesR2o := c.bytesR2o + n, baseO2r := b, baseR2o := b' } := by
  cases dir with
  | originToResponder => exact ⟨seg.payloadLen.toNat, 0, _, _, rfl⟩
  | responderToOrigin => exact ⟨0, seg.payloadLen.toNat, _, _, rfl⟩

/-- Applying a segment to the state commutes with a change of the connection that leaves the
state and the FIN marks alone. -/
lemma applyState_comm {f : ConnTrack → ConnTrack} {seg seg' : Segment}
    (hread : ∀ c, (f c).state = c.state ∧ (f c).finO2r = c.finO2r ∧ (f c).finR2o = c.finR2o)
    (hstate : ∀ c s, { f c with state := s } = f { c with state := s })
    (hmark : ∀ c dir, (f c).markFin dir = f (c.markFin dir))
    (hflags : seg'.flags = seg.flags) (hdata : seg'.isData = seg.isData) (c : ConnTrack)
    (dir : Direction) : (f c).applyState seg' dir = f (c.applyState seg dir) := by
  have hends (d : ConnTrack) : (if (f d).finO2r && (f d).finR2o then ConnState.closed
      else .finWait) = if d.finO2r && d.finR2o then ConnState.closed else .finWait := by
    rw [(hread d).2.1, (hread d).2.2]
  unfold ConnTrack.applyState
  rw [hflags, hdata, (hread c).1]
  by_cases hr : seg.flags.rst = true
  · rw [if_pos hr, if_pos hr]
    exact hstate c .reset
  · rw [if_neg hr, if_neg hr]
    by_cases hc : c.state = .reset
    · rw [if_pos hc, if_pos hc]
    · rw [if_neg hc, if_neg hc]
      by_cases hf : seg.flags.fin = true
      · rw [if_pos hf, if_pos hf]
        dsimp only
        rw [hmark, hends]
        exact hstate (c.markFin dir) _
      · rw [if_neg hf, if_neg hf]
        exact hstate c _

/-- What a segment changes of the connection it joins. -/
lemma accounted_frame (c : ConnTrack) (seg : Segment) :
    ∃ s f g m n b b', accounted c seg =
      { c with
        state := s, finO2r := f, finR2o := g
        lastAt := max c.lastAt seg.ts, segments := c.segments + 1
        bytesO2r := c.bytesO2r + m, bytesR2o := c.bytesR2o + n, baseO2r := b, baseR2o := b' } := by
  unfold accounted
  obtain ⟨m, n, b, b', h⟩ := account_frame c seg (c.directionOf seg.flow.source)
  obtain ⟨s, f, g, h'⟩ := applyState_frame (c.account seg (c.directionOf seg.flow.source)) seg
    (c.directionOf seg.flow.source)
  exact ⟨s, f, g, m, n, b, b', by rw [h', h]⟩

section

variable (c : ConnTrack) (seg : Segment)

@[simp] lemma accounted_id : (accounted c seg).id = c.id := by
  obtain ⟨_, _, _, _, _, _, _, h⟩ := accounted_frame c seg
  rw [h]

@[simp] lemma accounted_derived : (accounted c seg).derived = c.derived := by
  obtain ⟨_, _, _, _, _, _, _, h⟩ := accounted_frame c seg
  rw [h]

@[simp] lemma accounted_kept : (accounted c seg).kept = c.kept := by
  obtain ⟨_, _, _, _, _, _, _, h⟩ := accounted_frame c seg
  rw [h]

@[simp] lemma accounted_lastAt : (accounted c seg).lastAt = max c.lastAt seg.ts := by
  obtain ⟨_, _, _, _, _, _, _, h⟩ := accounted_frame c seg
  rw [h]

@[simp] lemma accounted_openedAt : (accounted c seg).openedAt = c.openedAt := by
  obtain ⟨_, _, _, _, _, _, _, h⟩ := accounted_frame c seg
  rw [h]

@[simp] lemma accounted_origin : (accounted c seg).origin = c.origin := by
  obtain ⟨_, _, _, _, _, _, _, h⟩ := accounted_frame c seg
  rw [h]

@[simp] lemma accounted_responder : (accounted c seg).responder = c.responder := by
  obtain ⟨_, _, _, _, _, _, _, h⟩ := accounted_frame c seg
  rw [h]

lemma directionOf_accounted : (accounted c seg).directionOf = c.directionOf := by
  funext src
  unfold ConnTrack.directionOf
  rw [accounted_origin]

end

/-- The lifecycle snapshot a segment asks for. -/
def statePlan (cfg : EngineConfig) (c : ConnTrack) (t : Nanos) : List Sample :=
  if cfg.collectStateTimeline then [.state (c.snapshot t)] else []

lemma noteState_eq (cfg : EngineConfig) (s : Slot) (t : Nanos) :
    s.noteState cfg t = recordAll cfg (statePlan cfg s.track t) s := by
  unfold Slot.noteState statePlan
  split <;> rfl

lemma recorded_noteState (cfg : EngineConfig) (s : Slot) (t : Nanos) :
    Recorded cfg (fun x => x.t = t) s (s.noteState cfg t) := by
  rw [noteState_eq]
  refine recorded_recordAll cfg (fun x hx => ?_) s
  unfold statePlan at hx
  split at hx
  · rw [List.mem_singleton.mp hx]; rfl
  · simp at hx

lemma recorded_join (cfg : EngineConfig) (s : Slot) (seg : Segment) :
    Recorded cfg (fun x => x.t = seg.ts) { s with track := accounted s.track seg }
      (s.join cfg seg) :=
  (recorded_noteState _ _ _).trans ((recorded_derive _ _ _ _).imp fun _ h => h.1)

lemma recorded_found (cfg : EngineConfig) (s : Slot) (seg : Segment) :
    Recorded cfg (fun x => x.t = seg.ts) s (s.found cfg seg) :=
  ((recorded_derive _ _ _ _).imp fun _ h => h.1).trans (recorded_noteState _ _ _)

lemma metrics_noteState (cfg : EngineConfig) (s : Slot) (t : Nanos) :
    (s.noteState cfg t).track.derived.metrics = s.track.derived.metrics := by
  rw [noteState_eq, recordAll_derived]

/-- A segment that joins a connection is folded into its metrics, or leaves them alone. -/
lemma metrics_join (cfg : EngineConfig) (s : Slot) (seg : Segment) :
    (s.join cfg seg).track.derived.metrics = s.track.derived.metrics ∨
      (s.join cfg seg).track.derived.metrics = (s.track.derived.metrics.observe seg
        (s.track.directionOf seg.flow.source) cfg).1 := by
  have hnote : (({ s with track := accounted s.track seg } : Slot).noteState cfg
      seg.ts).track.derived.metrics = s.track.derived.metrics := by
    rw [metrics_noteState, accounted_derived]
  have hjoin := metrics_derive cfg (({ s with track := accounted s.track seg } :
    Slot).noteState cfg seg.ts) seg (s.track.directionOf seg.flow.source)
  rw [hnote] at hjoin
  split at hjoin
  · exact Or.inr hjoin
  · exact Or.inl hjoin

/-- The same of the segment that opens it. -/
lemma metrics_found (cfg : EngineConfig) (s : Slot) (seg : Segment) :
    (s.found cfg seg).track.derived.metrics = s.track.derived.metrics ∨
      (s.found cfg seg).track.derived.metrics = (s.track.derived.metrics.observe seg
        (s.track.directionOf seg.flow.source) cfg).1 := by
  have hfound := metrics_noteState cfg (s.derive cfg seg
    (s.track.directionOf seg.flow.source)) seg.ts
  rw [metrics_derive] at hfound
  split at hfound
  · exact Or.inr hfound
  · exact Or.inl hfound

/-- Under eviction a lifecycle snapshot is never refused. -/
lemma last_noteState (hw : cfg.retention.window.isSome) (hc : cfg.collectStateTimeline = true)
    (ho : s.overflowed = false) (t : Nanos) :
    (s.noteState cfg t).track.kept.states.getLast? = some (s.track.snapshot t) := by
  have hn : s.noteState cfg t = s.store cfg (.state (s.track.snapshot t)) := by
    simp [Slot.noteState, hc, Slot.recordState, Slot.record, ho]
  rw [hn]
  have h := store_cases cfg s (.state (s.track.snapshot t))
  generalize s.store cfg (.state (s.track.snapshot t)) = s' at h
  cases h with
  | room => simp [Retained.push]
  | swap => simp [Retained.push]
  | spill => simp [Retained.push]
  | refuse _ hw' => simp [hw'] at hw

lemma last_join (hw : cfg.retention.window.isSome) (hc : cfg.collectStateTimeline = true)
    (ho : s.overflowed = false) (seg : Segment) :
    (s.join cfg seg).track.kept.states.getLast? =
      some ((accounted s.track seg).snapshot seg.ts) := by
  have h := last_noteState (s := { s with track := accounted s.track seg }) hw hc ho seg.ts
  rw [← h]
  exact Grows.last_eq (recorded_derive _ _ _ _).grows

lemma last_found (hw : cfg.retention.window.isSome) (hc : cfg.collectStateTimeline = true)
    (ho : s.overflowed = false) (seg : Segment) :
    (s.found cfg seg).track.kept.states.getLast? = some (s.track.snapshot seg.ts) := by
  have hd := recorded_derive cfg s seg (s.track.directionOf seg.flow.source)
  have h := last_noteState (s := s.derive cfg seg (s.track.directionOf seg.flow.source)) hw hc
    ((hd.evict hw).trans ho) seg.ts
  exact h.trans (congrArg some (eq_of_core (fun c => c.snapshot seg.ts) hd.core))

/-! ### Segments as plans -/

/-- The flag, once set, stays set: a prefix of a list that does not overflow does not either. -/
lemma not_overflowed_append {xs ys : List Sample}
    (ho : (recordAll cfg (xs ++ ys) s).overflowed = false) :
    (recordAll cfg xs s).overflowed = false := by
  rw [recordAll_append] at ho
  exact (recorded_any cfg _ _).not_overflowed ho

/-- The collectors record the plan, as long as the two that remember something between
segments find the flag clear. -/
lemma collect_stages {seg : Segment} {dir : Direction} {m : MetricState} {sample : MetricSample}
    {s₂ : Slot} (hs₂ : s₂ = recordAll cfg (metricPlan cfg s.track.id sample)
      (rederive s { s.track.derived with metrics := m })) (ho₂ : s₂.overflowed = false)
    (ho₄ : ((s₂.collectSeqPoints cfg seg dir sample).collectInflightAt cfg
      seg.ts).overflowed = false) :
    (((s₂.collectSeqPoints cfg seg dir sample).collectInflightAt cfg seg.ts).collectRttPoints cfg
        sample).collectThroughputAt cfg seg.ts =
      let p := seqPlan cfg { s.track.derived with metrics := m } seg dir sample
      let q := rttPlan cfg p.1 sample
      recordAll cfg (metricPlan cfg s.track.id sample ++ p.2 ++ inflightPlan cfg p.1 seg.ts ++
        q.2 ++ throughputPlan cfg q.1 seg.ts) (rederive s q.1) := by
  have hd₂ : s₂.track.derived = { s.track.derived with metrics := m } := by
    rw [hs₂, recordAll_derived, rederive_derived]
  rw [collectThroughputAt_eq, collectRttPoints_eq _ ho₄, collectInflightAt_eq,
    collectSeqPoints_eq _ _ _ ho₂]
  simp only [recordAll_derived, rederive_derived, hd₂]
  rw [hs₂]
  simp only [← recordAll_rederive, rederive_rederive, recordAll_append]

/-- Deriving a segment is recording its plan, if either of the two does not overflow. -/
theorem derive_eq {seg : Segment} {dir : Direction} (ho₀ : s.overflowed = false)
    (ho : (s.derive cfg seg dir).overflowed = false ∨
      (recordAll cfg (derivePlan cfg s.track.id s.track.derived seg dir).2 s).overflowed = false) :
    s.derive cfg seg dir = recordAll cfg (derivePlan cfg s.track.id s.track.derived seg dir).2
      (rederive s (derivePlan cfg s.track.id s.track.derived seg dir).1) := by
  cases hw : s.wantsDerivation cfg with
  | false =>
      have hp : ¬ (cfg.shouldCollect s.track.id || cfg.collectSeqTimeline ||
          cfg.collectInflightTimeline || cfg.collectRttTimeline ||
          cfg.collectThroughputTimeline) = true := by
        simpa [Slot.wantsDerivation, ho₀] using hw
      rw [Slot.derive, if_neg (by simp [hw]), derivePlan, if_neg hp]
      rfl
  | true =>
      have hp : (cfg.shouldCollect s.track.id || cfg.collectSeqTimeline ||
          cfg.collectInflightTimeline || cfg.collectRttTimeline ||
          cfg.collectThroughputTimeline) = true := by
        simpa [Slot.wantsDerivation, ho₀] using hw
      obtain ⟨s₂, hs₂, hd⟩ := derive_of_wants s seg dir hw
      rw [hd] at ho ⊢
      simp only [derivePlan, if_pos hp] at ho ⊢
      generalize s.track.derived.metrics.observe seg dir cfg = o at hs₂ hd ho ⊢
      obtain ⟨m, sample⟩ := o
      have h₂ : s₂ = recordAll cfg (metricPlan cfg s.track.id sample)
          (rederive s { s.track.derived with metrics := m }) := by
        rw [hs₂]
        exact recordSample_eq (s := rederive s { s.track.derived with metrics := m }) sample ho₀
      have ho' : s₂.overflowed = false ∧ ((s₂.collectSeqPoints cfg seg dir
          sample).collectInflightAt cfg seg.ts).overflowed = false := by
        rcases ho with ho | ho
        · -- No collector overflows, for the flag is never cleared.
          have ho₄ := (recorded_collectRttPoints _ _).not_overflowed
            ((recorded_collectThroughputAt _ _).not_overflowed ho)
          exact ⟨(recorded_collectSeqPoints _ _ _ _).not_overflowed
            ((recorded_collectInflightAt _ _).not_overflowed ho₄), ho₄⟩
        · -- Each collector has recorded a prefix of the plan.
          have ho₄ := not_overflowed_append (not_overflowed_append ho)
          have ho₂ : s₂.overflowed = false := by
            rw [h₂, recordAll_rederive]
            exact not_overflowed_append (not_overflowed_append ho₄)
          refine ⟨ho₂, ?_⟩
          have hd₂ : s₂.track.derived = { s.track.derived with metrics := m } := by
            rw [h₂, recordAll_derived, rederive_derived]
          rw [collectInflightAt_eq, collectSeqPoints_eq _ _ _ ho₂, recordAll_derived,
            rederive_derived, hd₂, h₂]
          simpa only [← recordAll_append, recordAll_rederive, rederive_rederive,
            rederive_overflowed] using ho₄
      exact collect_stages h₂ ho'.1 ho'.2

/-- What the code does with a segment of connection `c`, as a plan. -/
def joinPlan (cfg : EngineConfig) (c : ConnTrack) (seg : Segment) : Derivation × List Sample :=
  let p := derivePlan cfg c.id c.derived seg (c.directionOf seg.flow.source)
  (p.1, statePlan cfg (accounted c seg) seg.ts ++ p.2)

/-- What the code does with the first segment of connection `c`, as a plan. -/
def foundPlan (cfg : EngineConfig) (c : ConnTrack) (seg : Segment) : Derivation × List Sample :=
  let p := derivePlan cfg c.id c.derived seg (c.directionOf seg.flow.source)
  (p.1, p.2 ++ statePlan cfg c seg.ts)

theorem join_eq {seg : Segment} (ho : (s.join cfg seg).overflowed = false ∨
      (recordAll cfg (joinPlan cfg s.track seg).2
        { s with track := accounted s.track seg }).overflowed = false) :
    s.join cfg seg = recordAll cfg (joinPlan cfg s.track seg).2
      (rederive { s with track := accounted s.track seg } (joinPlan cfg s.track seg).1) := by
  have hn := noteState_eq cfg { s with track := accounted s.track seg } seg.ts
  have hid := eq_of_core ConnTrack.id (recorded_noteState cfg
    { s with track := accounted s.track seg } seg.ts).core
  have hd : (({ s with track := accounted s.track seg } : Slot).noteState cfg
      seg.ts).track.derived = s.track.derived := by
    rw [hn, recordAll_derived, accounted_derived]
  have hj : s.join cfg seg = (({ s with track := accounted s.track seg } : Slot).noteState cfg
      seg.ts).derive cfg seg (s.track.directionOf seg.flow.source) := rfl
  rw [hj] at ho ⊢
  simp only [joinPlan, recordAll_append, recordAll_rederive, accounted_id] at ho hid ⊢
  rw [← hn] at ho ⊢
  rw [derive_eq ?_ (by rw [hid, hd]; exact ho), hid, hd, recordAll_rederive]
  rcases ho with ho | ho
  · exact (recorded_derive _ _ _ _).not_overflowed ho
  · exact (recorded_any cfg _ _).not_overflowed ho

theorem found_eq {seg : Segment} (ho₀ : s.overflowed = false)
    (ho : (s.found cfg seg).overflowed = false ∨
      (recordAll cfg (foundPlan cfg s.track seg).2 s).overflowed = false) :
    s.found cfg seg = recordAll cfg (foundPlan cfg s.track seg).2
      (rederive s (foundPlan cfg s.track seg).1) := by
  have hj : s.found cfg seg = (s.derive cfg seg
      (s.track.directionOf seg.flow.source)).noteState cfg seg.ts := rfl
  rw [hj] at ho ⊢
  have hs := eq_of_core (fun c => statePlan cfg c seg.ts)
    (recorded_derive cfg s seg (s.track.directionOf seg.flow.source)).core
  have ho' := ho.imp (recorded_noteState _ _ _).not_overflowed not_overflowed_append
  rw [noteState_eq, hs, derive_eq ho₀ ho', ← recordAll_append]
  rfl

end TcpVisr.Plan
