import TcpVisr.Index

/-!
Shifting initial sequence numbers.

Adding one constant to everything an endpoint sends, and to everything its peer
acknowledges, moves the sequence numbers a tracker remembers by the same constants and
changes nothing it reports: sequence numbers are only ever compared with each other.
-/

namespace TcpVisr

open TcpSeq Slots Plan Passes Lifecycle Index

/-! ### What a shift does to each part of the state -/

/-- The segment with its own numbers moved by `ks` and its peer's by `kp`. -/
def Segment.shift (ks kp : BitVec 32) (seg : Segment) : Segment :=
  { seg with
    seq := seg.seq + ks
    ack := seg.ack + kp
    options := { seg.options with
      sackBlocks := seg.options.sackBlocks.map fun b => (b.1 + kp, b.2 + kp) } }

/-- The item with each endpoint `e` of a pair `p` moved by `k p e`. -/
def Item.shift (k : EndpointPair → Endpoint → BitVec 32) : Item → Item
  | .segment seg =>
    .segment (seg.shift (k seg.pair seg.flow.source) (k seg.pair seg.flow.destination))
  | .tick t => .tick t

def DirState.shift (k : BitVec 32) (d : DirState) : DirState :=
  { d with
    sndNxt := d.sndNxt.map (· + k)
    acked := d.acked.map (· + k)
    frontier := d.frontier.map (· + k)
    pendingRtt := d.pendingRtt.map fun p => (p.1 + k, p.2) }

def MetricState.shift (κ : Direction → BitVec 32) (m : MetricState) : MetricState :=
  ⟨⟨m.dir.o2r.shift (κ .originToResponder), m.dir.r2o.shift (κ .responderToOrigin)⟩⟩

def SeqUnwrap.shift (k : BitVec 32) (u : SeqUnwrap) : SeqUnwrap :=
  ⟨u.frontier.map fun p => (p.1 + k, p.2)⟩

def Derivation.shift (κ : Direction → BitVec 32) (v : Derivation) : Derivation :=
  { v with
    metrics := v.metrics.shift κ
    unwrap := ⟨v.unwrap.o2r.shift (κ .originToResponder),
      v.unwrap.r2o.shift (κ .responderToOrigin)⟩ }

def ConnTrack.shift (κ : Direction → BitVec 32) (c : ConnTrack) : ConnTrack :=
  { c with
    baseO2r := c.baseO2r.map (· + κ .originToResponder)
    baseR2o := c.baseR2o.map (· + κ .responderToOrigin)
    derived := c.derived.shift κ }

/-- The constants of a connection's two directions. -/
def ConnTrack.constants (k : EndpointPair → Endpoint → BitVec 32) (c : ConnTrack) :
    Direction → BitVec 32
  | .originToResponder => k c.id.pair c.origin
  | .responderToOrigin => k c.id.pair c.responder

def Tracker.shift (k : EndpointPair → Endpoint → BitVec 32) (t : Tracker) : Tracker :=
  { t with conns := t.conns.map fun c => c.shift (c.constants k) }

namespace Shift

variable {cfg : EngineConfig} {κ : Direction → BitVec 32} {ks kp : BitVec 32}

/-! ### Metric derivation -/

section Derivation

variable (seg : Segment) (d : DirState)

@[simp] lemma shift_ts : (seg.shift ks kp).ts = seg.ts := rfl
@[simp] lemma shift_flow : (seg.shift ks kp).flow = seg.flow := rfl
@[simp] lemma shift_flags : (seg.shift ks kp).flags = seg.flags := rfl
@[simp] lemma shift_payloadLen : (seg.shift ks kp).payloadLen = seg.payloadLen := rfl
@[simp] lemma shift_seq : (seg.shift ks kp).seq = seg.seq + ks := rfl
@[simp] lemma shift_ack : (seg.shift ks kp).ack = seg.ack + kp := rfl
@[simp] lemma shift_isData : (seg.shift ks kp).isData = seg.isData := rfl
@[simp] lemma shift_pair : (seg.shift ks kp).pair = seg.pair := rfl

@[simp] lemma seqEnd_shift : seqEnd (seg.shift ks kp) = seqEnd seg + ks := by
  simp only [seqEnd, shift_seq, shift_payloadLen, shift_flags]
  ring

@[simp] lemma serialMax_shift (a : Option TcpSeq) (b : TcpSeq) (k : BitVec 32) :
    serialMax (a.map (· + k)) (b + k) = serialMax a b + k := by
  cases a with
  | none => rfl
  | some a =>
      simp only [serialMax, Option.map_some, serialGt_add_right]
      split <;> rfl

@[simp] lemma serialLe_shift (a b : TcpSeq) (k : BitVec 32) :
    serialLe (a + k) (b + k) = serialLe a b := by
  have : (a + k == b + k) = (a == b) := by simp [beq_eq_decide]
  rw [serialLe, serialLe, this, serialLt_add_right]

@[simp] lemma outstanding_shift (a b : TcpSeq) (k : BitVec 32) :
    outstanding (a + k) (b + k) = outstanding a b := by
  simp [outstanding]

@[simp] lemma ackAdvances_shift :
    ackAdvances (d.shift kp) (seg.shift ks kp) = ackAdvances d seg := by
  unfold ackAdvances DirState.shift
  cases d.acked <;> simp

@[simp] lemma classify_shift :
    classify (d.shift ks) (seg.shift ks kp) cfg = classify d seg cfg := by
  have hf : (d.shift ks).frontier = d.frontier.map (· + ks) := rfl
  have ht : (d.shift ks).lastDataTs = d.lastDataTs := rfl
  unfold classify
  rw [shift_isData, hf, ht]
  cases d.frontier with
  | none => rfl
  | some fr =>
      simp only [Option.map_some, shift_seq, serialLt_add_right]
      rfl

@[simp] lemma ackedAfter_shift :
    ackedAfter (d.shift ks) (seg.shift ks kp) = ackedAfter d seg + ks := by
  unfold ackedAfter DirState.shift
  cases d.acked <;> simp

lemma popPending_shift (ack : TcpSeq) (k : BitVec 32) (oldest : Option Nanos)
    (l : List (TcpSeq × Nanos)) :
    popPending (ack + k) oldest (l.map fun p => (p.1 + k, p.2)) =
      ((popPending ack oldest l).1, (popPending ack oldest l).2.map fun p => (p.1 + k, p.2)) := by
  induction l generalizing oldest with
  | nil => rfl
  | cons p l ih =>
      simp only [List.map_cons, popPending, serialLe_shift]
      split
      · exact ih _
      · rfl

/-- The trailing window sees times and lengths only. -/
lemma windowPushAndEvict_shift (r : Bool) (k : BitVec 32) :
    windowPushAndEvict (d.shift k) (seg.shift ks kp) r cfg =
      (windowPushAndEvict d seg r cfg).shift k := by
  unfold windowPushAndEvict
  rw [shift_isData]
  cases seg.isData with
  | true =>
      simp only [if_true]
      split <;> rfl
  | false =>
      simp only [Bool.false_eq_true, if_false]
      split
      · rfl
      · have ht : (d.shift k).tputMaxTs = d.tputMaxTs := rfl
        rw [ht]
        cases d.tputMaxTs <;> rfl

lemma observeOwn_shift :
    observeOwn (d.shift ks) (seg.shift ks kp) cfg = (observeOwn d seg cfg).shift ks := by
  unfold observeOwn
  have hpush (own : DirState) (r : Bool) : (windowPushAndEvict own seg r cfg).shift ks =
      windowPushAndEvict (own.shift ks) (seg.shift ks kp) r cfg :=
    (windowPushAndEvict_shift seg own r ks).symm
  rw [classify_shift, hpush]
  have hs : (d.shift ks).sndNxt = d.sndNxt.map (· + ks) := rfl
  have hf : (d.shift ks).frontier = d.frontier.map (· + ks) := rfl
  have hp : (d.shift ks).pendingRtt = d.pendingRtt.map fun p => (p.1 + ks, p.2) := rfl
  have hfrontier : (if seg.isData = true then some (serialMax d.frontier (seqEnd seg) + ks)
        else d.frontier.map (· + ks)) =
      (if seg.isData = true then some (serialMax d.frontier (seqEnd seg))
        else d.frontier).map (· + ks) := by
    split <;> rfl
  have hpending : ∀ b c : Bool, (if b = true then []
        else if c = true then
          (d.pendingRtt.map fun p => (p.1 + ks, p.2)) ++ [(seqEnd seg + ks, seg.ts)]
        else d.pendingRtt.map fun p => (p.1 + ks, p.2)) =
      (if b = true then [] else if c = true then d.pendingRtt ++ [(seqEnd seg, seg.ts)]
        else d.pendingRtt).map fun p => (p.1 + ks, p.2) := by
    intro b c
    cases b <;> cases c <;> simp
  simp only [ackedAfter_shift, seqEnd_shift, shift_isData, shift_flags, shift_ts, hs, hf, hp,
    serialMax_shift, hfrontier, hpending]
  rfl

lemma observePeer_shift :
    observePeer (d.shift kp) (seg.shift ks kp) = (observePeer d seg).shift kp := by
  unfold observePeer
  rw [ackAdvances_shift]
  split
  · simp [DirState.shift, popPending_shift]
  · rfl

lemma rttOf_shift : rttOf (d.shift kp) (seg.shift ks kp) = rttOf d seg := by
  unfold rttOf
  rw [ackAdvances_shift]
  split
  · simp [DirState.shift, popPending_shift]
  · rfl

end Derivation

section Metrics

variable (m : MetricState) (seg : Segment) (dir : Direction)

@[simp] lemma get_shift : (m.shift κ).dir.get dir = (m.dir.get dir).shift (κ dir) := by
  cases dir <;> rfl

@[simp] lemma throughputAt_shift (t : Nanos) :
    (m.shift κ).throughputAt dir t cfg = m.throughputAt dir t cfg := by
  unfold MetricState.throughputAt
  rw [get_shift]
  rfl

@[simp] lemma inFlight_shift : (m.shift κ).inFlight dir = m.inFlight dir := by
  unfold MetricState.inFlight
  rw [get_shift]
  cases hs : (m.dir.get dir).sndNxt <;> cases ha : (m.dir.get dir).acked <;>
    simp [DirState.shift, hs, ha]

/-- **Derivation sees differences only.** -/
theorem observe_shift :
    (m.shift κ).observe (seg.shift (κ dir) (κ dir.opposite)) dir cfg =
      ((m.observe seg dir cfg).1.shift κ, (m.observe seg dir cfg).2) := by
  have hset : ∀ a b : DirState,
      (⟨((m.shift κ).dir.set dir (a.shift (κ dir))).set dir.opposite
        (b.shift (κ dir.opposite))⟩ : MetricState) =
      MetricState.shift κ ⟨(m.dir.set dir a).set dir.opposite b⟩ := by
    intro a b
    cases dir <;> rfl
  unfold MetricState.observe
  simp only [get_shift, observeOwn_shift, observePeer_shift, hset, throughputAt_shift,
    classify_shift, rttOf_shift, ackedAfter_shift, seqEnd_shift]
  have hs : ((m.dir.get dir).shift (κ dir)).sndNxt =
      (m.dir.get dir).sndNxt.map (· + κ dir) := rfl
  rw [hs, serialMax_shift, outstanding_shift]
  simp [Segment.shift]

lemma offset_shift (u : SeqUnwrap) (seq : TcpSeq) (k : BitVec 32) :
    (u.shift k).offset (seq + k) = ((u.offset seq).1.shift k, (u.offset seq).2) := by
  obtain ⟨frontier⟩ := u
  cases frontier with
  | none => rfl
  | some f =>
      obtain ⟨fseq, frel⟩ := f
      have heq : seq + k = fseq + k ↔ seq = fseq := by simp
      simp only [SeqUnwrap.offset, SeqUnwrap.shift, Option.map_some, heq, serialGt_add_right,
        serialDiff_add_right]
      split
      · rfl
      · split <;> rfl

end Metrics

section Points

variable (v : Derivation) (seg : Segment) (dir : Direction)

lemma unwrap_shift (u : SeqUnwrap) :
    ({ v with unwrap := v.unwrap.set dir u } : Derivation).shift κ =
      { v.shift κ with unwrap := (v.shift κ).unwrap.set dir (u.shift (κ dir)) } := by
  cases dir <;> rfl

lemma unwrap_get_shift : (v.shift κ).unwrap.get dir = (v.unwrap.get dir).shift (κ dir) := by
  cases dir <;> rfl

lemma sackPoint_shift (xs : List SeqSample) (b : TcpSeq × TcpSeq) (acked : Direction) :
    sackPoint (seg.shift ks kp) acked (v.shift κ, xs) (b.1 + κ acked, b.2 + κ acked) =
      ((sackPoint seg acked (v, xs) b).1.shift κ, (sackPoint seg acked (v, xs) b).2) := by
  unfold sackPoint
  simp only [unwrap_get_shift, offset_shift]
  rw [← unwrap_shift]
  rfl

lemma pushSeqPoints_shift (sample : MetricSample) :
    (v.shift κ).pushSeqPoints (seg.shift (κ dir) (κ dir.opposite)) dir sample =
      ((v.pushSeqPoints seg dir sample).1.shift κ, (v.pushSeqPoints seg dir sample).2) := by
  have hfold : ∀ (blocks : List (TcpSeq × TcpSeq)) (v : Derivation) (xs : List SeqSample),
      (blocks.map fun b => (b.1 + κ dir.opposite, b.2 + κ dir.opposite)).foldl
          (sackPoint (seg.shift (κ dir) (κ dir.opposite)) dir.opposite) (v.shift κ, xs) =
        ((blocks.foldl (sackPoint seg dir.opposite) (v, xs)).1.shift κ,
          (blocks.foldl (sackPoint seg dir.opposite) (v, xs)).2) := by
    intro blocks
    induction blocks with
    | nil => exact fun _ _ => rfl
    | cons b bs ih =>
        intro v xs
        rw [List.map_cons, List.foldl_cons, List.foldl_cons, sackPoint_shift]
        exact ih _ _
  unfold Derivation.pushSeqPoints
  by_cases h : seg.isData = true
  · simp only [shift_isData, h, if_true, shift_seq, unwrap_get_shift, offset_shift]
    rw [← unwrap_shift]
    exact hfold _ _ _
  · simp only [shift_isData, h]
    exact hfold _ _ _

end Points

/-! ### One connection -/

section Slots

variable (s : Slot) (seg : Segment) (dir : Direction)

lemma blind_shift (κ : Direction → BitVec 32) : Blind (ConnTrack.shift κ) := fun _ _ => rfl

lemma rederive_shift (d : Derivation) :
    rederive (retrack (ConnTrack.shift κ) s) (d.shift κ) =
      retrack (ConnTrack.shift κ) (rederive s d) := rfl

lemma inflightPlan_shift (d : Derivation) (t : Nanos) :
    inflightPlan cfg (d.shift κ) t = inflightPlan cfg d t := by
  simp [inflightPlan, Derivation.shift]

lemma throughputPlan_shift (d : Derivation) (t : Nanos) :
    throughputPlan cfg (d.shift κ) t = throughputPlan cfg d t := by
  simp [throughputPlan, Derivation.shift]

lemma seqPlan_shift (d : Derivation) (sample : MetricSample) :
    seqPlan cfg (d.shift κ) (seg.shift (κ dir) (κ dir.opposite)) dir sample =
      ((seqPlan cfg d seg dir sample).1.shift κ, (seqPlan cfg d seg dir sample).2) := by
  unfold seqPlan
  split
  · rw [pushSeqPoints_shift]
  · rfl

lemma rttPlan_shift (d : Derivation) (sample : MetricSample) :
    rttPlan cfg (d.shift κ) sample =
      ((rttPlan cfg d sample).1.shift κ, (rttPlan cfg d sample).2) := by
  unfold rttPlan
  split
  · split <;> rfl
  · rfl

lemma collectSeqPoints_shift (sample : MetricSample) :
    (retrack (ConnTrack.shift κ) s).collectSeqPoints cfg (seg.shift (κ dir) (κ dir.opposite)) dir
      sample = retrack (ConnTrack.shift κ) (s.collectSeqPoints cfg seg dir sample) := by
  cases ho : s.overflowed with
  | true => simp [Slot.collectSeqPoints, ho]
  | false =>
      have ho' : (retrack (ConnTrack.shift κ) s).overflowed = false := ho
      rw [collectSeqPoints_eq seg dir sample ho, collectSeqPoints_eq _ dir sample ho']
      change recordAll cfg (seqPlan cfg (s.track.derived.shift κ) _ dir sample).2 (rederive _
        (seqPlan cfg (s.track.derived.shift κ) _ dir sample).1) = _
      rw [seqPlan_shift, rederive_shift, recordAll_retrack (blind_shift κ)]

lemma collectRttPoints_shift (sample : MetricSample) :
    (retrack (ConnTrack.shift κ) s).collectRttPoints cfg sample =
      retrack (ConnTrack.shift κ) (s.collectRttPoints cfg sample) := by
  cases ho : s.overflowed with
  | true => simp [Slot.collectRttPoints, ho]
  | false =>
      have ho' : (retrack (ConnTrack.shift κ) s).overflowed = false := ho
      rw [collectRttPoints_eq sample ho, collectRttPoints_eq sample ho']
      change recordAll cfg (rttPlan cfg (s.track.derived.shift κ) sample).2 (rederive _
        (rttPlan cfg (s.track.derived.shift κ) sample).1) = _
      rw [rttPlan_shift, rederive_shift, recordAll_retrack (blind_shift κ)]

lemma collectInflightAt_shift (t : Nanos) :
    (retrack (ConnTrack.shift κ) s).collectInflightAt cfg t =
      retrack (ConnTrack.shift κ) (s.collectInflightAt cfg t) := by
  rw [collectInflightAt_eq, collectInflightAt_eq]
  change recordAll cfg (inflightPlan cfg (s.track.derived.shift κ) t) _ = _
  rw [inflightPlan_shift, recordAll_retrack (blind_shift κ)]

lemma collectThroughputAt_shift (t : Nanos) :
    (retrack (ConnTrack.shift κ) s).collectThroughputAt cfg t =
      retrack (ConnTrack.shift κ) (s.collectThroughputAt cfg t) := by
  rw [collectThroughputAt_eq, collectThroughputAt_eq]
  change recordAll cfg (throughputPlan cfg (s.track.derived.shift κ) t) _ = _
  rw [throughputPlan_shift, recordAll_retrack (blind_shift κ)]

lemma recordSample_shift (sample : MetricSample) :
    (retrack (ConnTrack.shift κ) s).recordSample cfg sample =
      retrack (ConnTrack.shift κ) (s.recordSample cfg sample) := by
  unfold Slot.recordSample
  rw [store_retrack (blind_shift κ)]
  change (if (!cfg.shouldCollect s.track.id) = true then _ else _) = _
  by_cases h : (!cfg.shouldCollect s.track.id) = true
  · rw [if_pos h, if_pos h]
  · rw [if_neg h, if_neg h]

lemma derive_shift :
    (retrack (ConnTrack.shift κ) s).derive cfg (seg.shift (κ dir) (κ dir.opposite)) dir =
      retrack (ConnTrack.shift κ) (s.derive cfg seg dir) := by
  cases hw : s.wantsDerivation cfg with
  | false =>
      have hw' : (retrack (ConnTrack.shift κ) s).wantsDerivation cfg = false := hw
      rw [Slot.derive, if_neg (by simp [hw']), Slot.derive, if_neg (by simp [hw])]
  | true =>
      have hw' : (retrack (ConnTrack.shift κ) s).wantsDerivation cfg = true := hw
      obtain ⟨s₂, hs₂, hd⟩ := derive_of_wants s seg dir hw
      obtain ⟨s₂', hs₂', hd'⟩ := derive_of_wants (retrack (ConnTrack.shift κ) s)
        (seg.shift (κ dir) (κ dir.opposite)) dir hw'
      have hobs : (retrack (ConnTrack.shift κ) s).track.derived.metrics.observe
          (seg.shift (κ dir) (κ dir.opposite)) dir cfg =
          ((s.track.derived.metrics.observe seg dir cfg).1.shift κ,
            (s.track.derived.metrics.observe seg dir cfg).2) := observe_shift _ _ _
      have h₂ : s₂' = retrack (ConnTrack.shift κ) s₂ := by
        rw [hs₂, hs₂', hobs]
        have hre : rederive (retrack (ConnTrack.shift κ) s)
            { (retrack (ConnTrack.shift κ) s).track.derived with
              metrics := (s.track.derived.metrics.observe seg dir cfg).1.shift κ } =
            retrack (ConnTrack.shift κ) (rederive s { s.track.derived with
              metrics := (s.track.derived.metrics.observe seg dir cfg).1 }) := rfl
        rw [hre, recordSample_shift]
        change (if cfg.shouldCollect s.track.id then _ else _) = _
        split <;> rfl
      rw [hd, hd', h₂, hobs]
      simp only [collectSeqPoints_shift, collectInflightAt_shift, collectRttPoints_shift,
        collectThroughputAt_shift, shift_ts]

lemma noteState_shift (t : Nanos) :
    (retrack (ConnTrack.shift κ) s).noteState cfg t =
      retrack (ConnTrack.shift κ) (s.noteState cfg t) := by
  rw [noteState_eq, noteState_eq, ← recordAll_retrack (blind_shift κ)]
  rfl

lemma account_shift (c : ConnTrack) :
    (c.shift κ).account (seg.shift (κ dir) (κ dir.opposite)) dir =
      (c.account seg dir).shift κ := by
  have hbase : ∀ (b : Option TcpSeq) (q k : BitVec 32),
      advanceBaseline (b.map (· + k)) (q + k) = advanceBaseline b q + k := by
    intro b q k
    cases b with
    | none => rfl
    | some b =>
        simp only [advanceBaseline, Option.map_some, serialGt_add_right]
        split <;> rfl
  cases dir with
  | originToResponder =>
      simp only [ConnTrack.account, ConnTrack.shift, shift_seq, hbase, Option.map_some]
      rfl
  | responderToOrigin =>
      simp only [ConnTrack.account, ConnTrack.shift, shift_seq, hbase, Option.map_some]
      rfl

lemma applyState_shift (c : ConnTrack) :
    (c.shift κ).applyState (seg.shift ks kp) dir = (c.applyState seg dir).shift κ :=
  applyState_comm (f := ConnTrack.shift κ) (fun _ => ⟨rfl, rfl, rfl⟩) (fun _ _ => rfl)
    (fun _ dir => by cases dir <;> rfl) rfl rfl c dir

/-- A segment on its connection, both shifted. -/
lemma join_shift (hks : ks = κ (s.track.directionOf seg.flow.source))
    (hkp : kp = κ (s.track.directionOf seg.flow.source).opposite) :
    (retrack (ConnTrack.shift κ) s).join cfg (seg.shift ks kp) =
      retrack (ConnTrack.shift κ) (s.join cfg seg) := by
  subst hks hkp
  have hacc : accounted (s.track.shift κ) (seg.shift
        (κ (s.track.directionOf seg.flow.source))
        (κ (s.track.directionOf seg.flow.source).opposite)) =
      (accounted s.track seg).shift κ := by
    unfold accounted
    change ((s.track.shift κ).account _ (s.track.directionOf seg.flow.source)).applyState _
      (s.track.directionOf seg.flow.source) = _
    rw [account_shift, applyState_shift]
  change (Slot.noteState cfg { retrack (ConnTrack.shift κ) s with
    track := accounted (s.track.shift κ) _ } _).derive cfg _ _ = _
  rw [hacc]
  change ((retrack (ConnTrack.shift κ)
    { s with track := accounted s.track seg }).noteState cfg seg.ts).derive cfg _
      (s.track.directionOf seg.flow.source) = _
  rw [noteState_shift, derive_shift]
  rfl

lemma found_shift (hks : ks = κ (s.track.directionOf seg.flow.source))
    (hkp : kp = κ (s.track.directionOf seg.flow.source).opposite) :
    (retrack (ConnTrack.shift κ) s).found cfg (seg.shift ks kp) =
      retrack (ConnTrack.shift κ) (s.found cfg seg) := by
  subst hks hkp
  change (Slot.derive cfg (retrack (ConnTrack.shift κ) s) _
    (s.track.directionOf seg.flow.source)).noteState cfg seg.ts = _
  rw [derive_shift, noteState_shift]
  rfl

end Slots

/-! ### The tracker -/

section Tracker

variable {k : EndpointPair → Endpoint → BitVec 32} {t : Tracker} {seg : Segment}

/-- The connection with its own constants. -/
abbrev moved (k : EndpointPair → Endpoint → BitVec 32) (c : ConnTrack) : ConnTrack :=
  c.shift (c.constants k)

lemma constants_core (c : ConnTrack) : (core c).constants k = c.constants k := by
  funext dir
  cases dir <;> rfl

lemma blind_moved (k : EndpointPair → Endpoint → BitVec 32) : Blind (moved k) := fun _ _ => rfl

/-- The constants a segment is moved by are those of the connection it joins. -/
lemma constants_eq {c : ConnTrack} (hp : EndpointPair.new c.origin c.responder = c.id.pair)
    (hpair : c.id.pair = seg.pair) :
    k seg.pair seg.flow.source = c.constants k (c.directionOf seg.flow.source) ∧
      k seg.pair seg.flow.destination =
        c.constants k (c.directionOf seg.flow.source).opposite := by
  rw [← hpair]
  unfold ConnTrack.directionOf
  rcases EndpointPair.endpoints_of_new_eq (hp.trans hpair) with ⟨ho, hr⟩ | ⟨ho, hr⟩
  · rw [if_pos ho.symm]
    exact ⟨by rw [← ho]; rfl, by rw [← hr]; rfl⟩
  · by_cases hsrc : seg.flow.source = c.origin
    · rw [if_pos hsrc]
      exact ⟨by rw [hsrc]; rfl, by rw [← ho, ← hsrc, ← hr]; rfl⟩
    · rw [if_neg hsrc]
      exact ⟨by rw [← hr]; rfl, by rw [← ho]; rfl⟩

lemma freshTrack_shift (id : ConnId) (κ : Direction → BitVec 32)
    (hks : ks = κ ((blankTrack id seg).directionOf seg.flow.source))
    (hkp : kp = κ ((blankTrack id seg).directionOf seg.flow.source).opposite) :
    freshTrack id (seg.shift ks kp) = (freshTrack id seg).shift κ := by
  subst hks hkp
  have hblank : blankTrack id (seg.shift (κ ((blankTrack id seg).directionOf seg.flow.source))
      (κ ((blankTrack id seg).directionOf seg.flow.source).opposite)) =
      (blankTrack id seg).shift κ := rfl
  have hdir : ((blankTrack id seg).shift κ).directionOf seg.flow.source =
      (blankTrack id seg).directionOf seg.flow.source := rfl
  unfold freshTrack
  simp only [hblank, shift_flags, shift_flow, hdir, account_shift]
  split
  · cases (blankTrack id seg).directionOf seg.flow.source <;> rfl
  · rfl

lemma directionOf_shift (c : ConnTrack) (κ : Direction → BitVec 32) (e : Endpoint) :
    (c.shift κ).directionOf e = c.directionOf e := rfl

lemma shouldSplit_shift {c : ConnTrack} {κ : Direction → BitVec 32}
    (hks : ks = κ (c.directionOf seg.flow.source)) :
    shouldSplit cfg (c.shift κ) (seg.shift ks kp) = shouldSplit cfg c seg := by
  subst hks
  have hstate : (c.shift κ).state = c.state := rfl
  have hbase : ∀ dir, (c.shift κ).baseline dir = (c.baseline dir).map (· + κ dir) := by
    intro dir
    cases dir <;> rfl
  unfold shouldSplit
  rw [shift_flags, hstate]
  split
  · rfl
  · split
    · rw [directionOf_shift, shift_flow, hbase]
      cases c.baseline (c.directionOf seg.flow.source) with
      | none => rfl
      | some b => simp [isBackwardReset]
    · rfl

lemma joins_shift (hi : Indexed t.life)
    (hs : ∀ c ∈ t.conns, EndpointPair.new c.origin c.responder = c.id.pair)
    (hks : ks = k seg.pair seg.flow.source) :
    (t.shift k).joins cfg (seg.shift ks kp) = t.joins cfg seg := by
  have hlive : (t.shift k).live = t.live := rfl
  have hconns : (t.shift k).conns = t.conns.map (moved k) := rfl
  unfold Tracker.joins
  rw [shift_pair, hlive, hconns]
  cases hl : t.live seg.pair with
  | none => rfl
  | some idx =>
      obtain ⟨c, hc, hpair, -⟩ := live_newest hi hl
      simp only [List.getElem?_map, hc, Option.map_some]
      rw [shouldSplit_shift (hks.trans (constants_eq (hs c (List.mem_of_getElem? hc)) hpair).1)]

lemma evictSamples_shift (t : Tracker) :
    (t.shift k).evictSamples cfg = (t.evictSamples cfg).shift k := by
  have hret : ∀ cs : List ConnTrack, retained (cs.map (moved k)) = retained cs := by
    intro cs
    simp [retained, List.map_map, Function.comp_def, ConnTrack.shift]
  have haged : ∀ h (cs : List ConnTrack),
      (cs.map (moved k)).map (aged h) = (cs.map (aged h)).map (moved k) := by
    intro h cs
    simp only [List.map_map]
    rfl
  unfold Tracker.evictSamples
  cases cfg.retention.window with
  | none => rfl
  | some w =>
      dsimp only [Tracker.forEach, Tracker.shift]
      rw [eachSlot_evict, eachSlot_evict, haged, hret, hret]
      rfl

lemma decay_shift (now : Nanos) (s : Slot) :
    (retrack (moved k) s).decay cfg now = retrack (moved k) (s.decay cfg now) := by
  have hplan : decayPlan cfg now (retrack (moved k) s).track = decayPlan cfg now s.track := by
    unfold decayPlan
    change (if _ then _ else throughputPlan cfg (s.track.derived.shift _) now ++
      inflightPlan cfg (s.track.derived.shift _) now) = _
    rw [throughputPlan_shift, inflightPlan_shift]
    rfl
  rw [decay_eq, decay_eq, hplan, recordAll_retrack (blind_moved k)]

lemma emitDecaySamples_shift (t : Tracker) :
    (t.shift k).emitDecaySamples cfg = (t.emitDecaySamples cfg).shift k := by
  unfold Tracker.emitDecaySamples
  by_cases ho : t.overflowed = true
  · rw [if_pos ho, if_pos (show (t.shift k).overflowed = true from ho)]
  · rw [if_neg ho, if_neg (show ¬ (t.shift k).overflowed = true from ho)]
    dsimp only [Tracker.forEach, Tracker.shift]
    rw [eachSlot_map t.conns fun c _ n o => decay_shift t.now ⟨c, n, o⟩]

lemma evictDeadConnections_shift (t : Tracker) :
    (t.shift k).evictDeadConnections cfg = (t.evictDeadConnections cfg).shift k := by
  cases hw : cfg.retention.window with
  | none => simp only [Tracker.evictDeadConnections, hw]
  | some w =>
      have hfil : (t.conns.map (moved k)).filter
            (fun c => !c.evictable cfg (t.now.ns - w.ns) t.now) =
          (t.conns.filter fun c => !c.evictable cfg (t.now.ns - w.ns) t.now).map (moved k) :=
        List.filter_map
      simp only [Tracker.evictDeadConnections, hw, Tracker.horizon, Tracker.shift, hfil,
        List.length_map]
      by_cases hlen : (t.conns.filter fun c => !c.evictable cfg (t.now.ns - w.ns) t.now).length =
          t.conns.length
      · simp only [hlen, if_true]
      · have hlive : ∀ cs : List ConnTrack, Tracker.rebuildLive (cs.map (moved k)) =
            Tracker.rebuildLive cs := by
          intro cs
          refine rebuildLive_congr ?_
          rw [List.map_map]
          rfl
        simp only [hlen, if_false, hlive, List.any_map, List.map_map]
        rfl

lemma retrack_moved {s : Slot} {κ : Direction → BitVec 32} (h : s.track.constants k = κ) :
    retrack (ConnTrack.shift κ) s = retrack (moved k) s := by
  simp only [retrack, moved, h]

lemma constants_accounted (c : ConnTrack) (seg : Segment) :
    (accounted c seg).constants k = c.constants k := by
  funext dir
  cases dir <;> simp [ConnTrack.constants]

lemma joinInstance_shift {i : ℕ} {c : ConnTrack} (hc : t.conns[i]? = some c)
    (hks : ks = c.constants k (c.directionOf seg.flow.source))
    (hkp : kp = c.constants k (c.directionOf seg.flow.source).opposite) :
    (t.shift k).joinInstance cfg i (seg.shift ks kp) = (t.joinInstance cfg i seg).shift k := by
  have hc' : (t.shift k).conns[i]? = some (moved k c) := by
    simp [Tracker.shift, List.getElem?_map, hc]
  have hjoin : ((t.shift k).slot (moved k c)).join cfg (seg.shift ks kp) =
      retrack (moved k) ((t.slot c).join cfg seg) := by
    refine (join_shift (t.slot c) seg hks hkp).trans (retrack_moved ?_)
    exact (eq_of_core (ConnTrack.constants k) (recorded_join cfg (t.slot c) seg).core
      constants_core).trans (constants_accounted c seg)
  unfold Tracker.joinInstance
  rw [hc, hc']
  dsimp only
  rw [hjoin]
  simp only [Tracker.shift, List.map_set]
  rfl

lemma constants_freshTrack (id : ConnId) (seg : Segment) :
    (freshTrack id seg).constants k = (blankTrack id seg).constants k := by
  funext dir
  cases dir with
  | originToResponder =>
      simp only [ConnTrack.constants, id_freshTrack, origin_freshTrack]
      rfl
  | responderToOrigin =>
      simp only [ConnTrack.constants, id_freshTrack, responder_freshTrack]
      rfl

lemma createInstance_shift :
    (t.shift k).createInstance cfg (seg.shift (k seg.pair seg.flow.source)
        (k seg.pair seg.flow.destination)) = (t.createInstance cfg seg).shift k := by
  obtain ⟨hks, hkp⟩ := constants_eq (k := k) (c := blankTrack (t.nextId seg.pair) seg)
    (pair_blankTrack _ seg) rfl
  have hfresh := freshTrack_shift (t.nextId seg.pair) _ hks hkp
  have hdir : (freshTrack (t.nextId seg.pair) seg).directionOf seg.flow.source =
      (blankTrack (t.nextId seg.pair) seg).directionOf seg.flow.source := by
    simp only [ConnTrack.directionOf, origin_freshTrack]
  have hfound : ((t.shift k).slot (freshTrack (t.nextId seg.pair) (seg.shift
        (k seg.pair seg.flow.source) (k seg.pair seg.flow.destination)))).found cfg (seg.shift
          (k seg.pair seg.flow.source) (k seg.pair seg.flow.destination)) =
      retrack (moved k) ((t.slot (freshTrack (t.nextId seg.pair) seg)).found cfg seg) := by
    rw [hfresh]
    refine (found_shift (t.slot (freshTrack (t.nextId seg.pair) seg)) seg ?_ ?_).trans
      (retrack_moved ?_)
    · rw [hks, ← hdir]; rfl
    · rw [hkp, ← hdir]; rfl
    · exact (eq_of_core (ConnTrack.constants k) (recorded_found _ _ seg).core
        constants_core).trans (constants_freshTrack _ seg)
  unfold Tracker.createInstance
  dsimp only [shift_pair]
  have hid : (t.shift k).nextId seg.pair = t.nextId seg.pair := rfl
  rw [hid, hfound]
  simp only [Tracker.shift, List.map_append, List.map_singleton, List.length_map]
  rfl

/-- **One step.** Shifting commutes with observing an item. -/
theorem observe_tracker_shift (hi : Indexed t.life)
    (hs : ∀ c ∈ t.conns, EndpointPair.new c.origin c.responder = c.id.pair) (x : Item) :
    (t.shift k).observe cfg (x.shift k) = (t.observe cfg x).shift k := by
  cases x with
  | segment seg =>
      cases hj : t.joins cfg seg with
      | some i =>
          obtain ⟨c, hc, hpair, -⟩ := joins_newest hi hj
          obtain ⟨hks, hkp⟩ := constants_eq (k := k) (hs c (List.mem_of_getElem? hc)) hpair
          have hj' : (t.shift k).joins cfg (seg.shift (k seg.pair seg.flow.source)
              (k seg.pair seg.flow.destination)) = some i := (joins_shift hi hs rfl).trans hj
          rw [Item.shift, observe_join hj', observe_join hj, ← evictSamples_shift]
          exact congrArg (Tracker.evictSamples cfg)
            (joinInstance_shift (t := clocked t (.segment seg)) hc hks hkp)
      | none =>
          have hj' : (t.shift k).joins cfg (seg.shift (k seg.pair seg.flow.source)
              (k seg.pair seg.flow.destination)) = none := (joins_shift hi hs rfl).trans hj
          rw [Item.shift, observe_create hj', observe_create hj, ← evictSamples_shift]
          exact congrArg (Tracker.evictSamples cfg)
            (createInstance_shift (t := clocked t (.segment seg)))
  | tick at_ =>
      cases hw : cfg.retention.window with
      | none => rw [Item.shift, observe_tick_failFast hw, observe_tick_failFast hw]
      | some w =>
          rw [Item.shift, observe_tick_evict hw, observe_tick_evict hw,
            ← evictDeadConnections_shift, ← evictSamples_shift, ← emitDecaySamples_shift]
          rfl

/-- The run on shifted items is the shifted run. -/
theorem track_shift (k : EndpointPair → Endpoint → BitVec 32) (items : List Item) :
    Tracker.track cfg (items.map (Item.shift k)) = (Tracker.track cfg items).shift k := by
  induction items using List.reverseRecOn with
  | nil => rfl
  | append_singleton p x ih =>
      rw [List.map_append, List.map_singleton, Tracker.track_snoc, Tracker.track_snoc, ih]
      exact observe_tracker_shift (indexed_track cfg p)
        (fun c hc => (sound_track cfg p c hc).pair) x

/-- **Shift invariance.** Every reading of the tracker is the same on shifted items. -/
theorem shift_invariant (cfg : EngineConfig) (k : EndpointPair → Endpoint → BitVec 32)
    (items : List Item) :
    let t := Tracker.track cfg items
    let t' := Tracker.track cfg (items.map (Item.shift k))
    t'.intoConnections = t.intoConnections ∧ t'.intoMetrics cfg = t.intoMetrics cfg ∧
      t'.intoTimeline cfg = t.intoTimeline cfg ∧ t'.snapshot = t.snapshot := by
  intro t t'
  have ht : t' = t.shift k := track_shift k items
  have hviews : t'.conns.map ConnTrack.view = t.conns.map ConnTrack.view := by
    rw [ht, Tracker.shift, List.map_map]
    rfl
  have hmetrics : (t'.conns.map fun c => (⟨c.view, c.kept.series⟩ : ConnectionMetrics)) =
      t.conns.map fun c => ⟨c.view, c.kept.series⟩ := by
    rw [ht, Tracker.shift, List.map_map]
    rfl
  have hseries : t'.conns.map ConnTrack.connSeries = t.conns.map ConnTrack.connSeries := by
    rw [ht, Tracker.shift, List.map_map]
    rfl
  have hflag : t'.overflowed = t.overflowed := by rw [ht]; rfl
  have hcount : t'.collectedSamples = t.collectedSamples := by rw [ht]; rfl
  have hnow : t'.now = t.now := by rw [ht]; rfl
  refine ⟨?_, ?_, ?_, ?_⟩
  · rw [Tracker.intoConnections, Tracker.intoConnections, hviews]
  · rw [Tracker.intoMetrics, Tracker.intoMetrics, hmetrics, hflag, hcount]
  · rw [Tracker.intoTimeline, Tracker.intoTimeline, hseries, hflag, hcount]
  · rw [Tracker.snapshot, Tracker.snapshot, hseries, hnow]

end Tracker

end Shift

end TcpVisr
