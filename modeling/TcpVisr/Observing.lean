import TcpVisr.Lib.Runs
import TcpVisr.Lib.Front
import TcpVisr.Lib.Serial
import TcpVisr.Metrics

/-!
What one segment does to the derivation state.

The direction that sends and the direction that is acknowledged are updated apart. Each
field of either is given here by one equation, so that a law of the fold never has to open
the step.
-/

namespace TcpVisr

open TcpSeq

/-- Whether a segment consumes sequence numbers. -/
def Segment.consumes (seg : Segment) : Bool := seg.isData || seg.flags.syn || seg.flags.fin

/-- The sequence numbers a segment consumes: its payload, and one each for SYN and FIN. -/
def Segment.len (seg : Segment) : ℕ :=
  seg.payloadLen.toNat + seg.flags.syn.toNat + seg.flags.fin.toNat

namespace Observing

open Lib.Serial

/-! ### Serial order -/

lemma serialLt_iff_before (a b : TcpSeq) : a.serialLt b = true ↔ Before a b := by
  have h0 : b - a ≠ 0 ↔ 0 < (b - a).toNat := by
    rw [Nat.pos_iff_ne_zero, Ne, Ne, BitVec.toNat_eq]
    rfl
  simp only [serialLt, Bool.and_eq_true, bne_iff_ne, decide_eq_true_eq, BitVec.lt_def]
  exact and_congr h0 Iff.rfl

section Marks

variable {b : TcpSeq} {m n : ℤ}

lemma serialLt_mark (h1 : n - m < 2 ^ 31) (h2 : m - n ≤ 2 ^ 31) :
    serialLt (mark b m) (mark b n) = decide (m < n) := by
  rw [Bool.eq_iff_iff, serialLt_iff_before, decide_eq_true_iff]
  exact before_mark (by omega) h1 h2

lemma serialLe_mark (h1 : n - m < 2 ^ 31) (h2 : m - n ≤ 2 ^ 31) :
    serialLe (mark b m) (mark b n) = decide (m ≤ n) := by
  have heq : mark b m = mark b n ↔ m = n := mark_eq_iff (by omega) (by omega)
  rw [serialLe, serialLt_mark h1 h2, Bool.eq_iff_iff]
  simp only [Bool.or_eq_true, beq_iff_eq, decide_eq_true_iff, heq]
  omega

lemma serialMax_mark (h1 : m - n < 2 ^ 31) (h2 : n - m ≤ 2 ^ 31) :
    serialMax (some (mark b m)) (mark b n) = mark b (max m n) := by
  simp only [serialMax, serialGt, serialLt_mark h1 h2, decide_eq_true_iff]
  split
  · rw [max_eq_left (by omega)]
  · rw [max_eq_right (by omega)]

lemma outstanding_mark (h0 : m ≤ n) (h1 : n - m < 2 ^ 31) :
    (outstanding (mark b m) (mark b n) : ℤ) = n - m := by
  rw [outstanding, serialLe_mark h1 (by omega), if_pos (by simpa using h0)]
  exact toNat_mark_sub h0 (by omega)

end Marks

lemma seqEnd_eq_mark (seg : Segment) : seqEnd seg = mark seg.seq seg.len := by
  have hbit (b : Bool) : u32OfBool b = BitVec.ofNat 32 b.toNat := by
    cases b <;> rfl
  have hlen : BitVec.ofNat 32 seg.payloadLen.toNat = seg.payloadLen := by simp
  rw [seqEnd, mark_natCast, Segment.len, hbit, hbit, BitVec.ofNat_add, BitVec.ofNat_add, hlen]
  ring

lemma len_pos_iff (seg : Segment) : 0 < seg.len ↔ seg.consumes = true := by
  unfold Segment.len Segment.consumes Segment.isData
  cases seg.flags.syn <;> cases seg.flags.fin <;> simp

/-! ### The pending queue -/

/-- What a segment queues: where it ends, and when. -/
def entry (seg : Segment) : TcpSeq × Nanos := (seqEnd seg, seg.ts)

/-- A pending send that an acknowledgement covers. -/
def covered (ack : TcpSeq) (e : TcpSeq × Nanos) : Bool := serialLe e.1 ack

/-- **The loop**: the covered sends at the front leave, and the head, if covered, is timed. -/
theorem popPending_eq (ack : TcpSeq) (l : List (TcpSeq × Nanos)) :
    popPending ack none l =
      ((l.head?.filter (covered ack)).map Prod.snd, l.dropWhile (covered ack)) := by
  have hsome : ∀ (l : List (TcpSeq × Nanos)) (t : Nanos),
      popPending ack (some t) l = (some t, l.dropWhile (covered ack)) := by
    intro l t
    induction l with
    | nil => rfl
    | cons e l ih =>
        by_cases h : serialLe e.1 ack = true
        · simpa [popPending, covered, h] using ih
        · simp [popPending, covered, h]
  cases l with
  | nil => rfl
  | cons e l =>
      by_cases h : serialLe e.1 ack = true
      · simpa [popPending, covered, h, Option.filter] using hsome l e.2
      · simp [popPending, covered, h, Option.filter]

/-! ### The direction that sends -/

section Own

variable (own : DirState) (seg : Segment) (cfg : EngineConfig)

/-- The window step writes the window alone. -/
lemma windowPushAndEvict_eq (r : Bool) :
    windowPushAndEvict own seg r cfg =
      { own with
        tput := (windowPushAndEvict own seg r cfg).tput
        tputMaxTs := (windowPushAndEvict own seg r cfg).tputMaxTs } := by
  unfold windowPushAndEvict
  dsimp only
  split_ifs
  · rfl
  · rfl
  · rfl
  · split <;> rfl

@[simp] lemma observeOwn_acked :
    (observeOwn own seg cfg).acked = some (own.acked.getD seg.seq) := by
  unfold observeOwn
  rw [windowPushAndEvict_eq]
  rfl

@[simp] lemma observeOwn_sndNxt :
    (observeOwn own seg cfg).sndNxt = some (serialMax own.sndNxt (seqEnd seg)) := by
  unfold observeOwn
  rw [windowPushAndEvict_eq]

@[simp] lemma observeOwn_frontier : (observeOwn own seg cfg).frontier =
    if seg.isData then some (serialMax own.frontier (seqEnd seg)) else own.frontier := by
  unfold observeOwn
  rw [windowPushAndEvict_eq]

@[simp] lemma observeOwn_lastDataTs : (observeOwn own seg cfg).lastDataTs =
    if seg.isData then some seg.ts else own.lastDataTs := by
  unfold observeOwn
  rw [windowPushAndEvict_eq]

@[simp] lemma observeOwn_pendingRtt : (observeOwn own seg cfg).pendingRtt =
    if (classify own seg cfg).1 then []
    else if seg.consumes then own.pendingRtt ++ [entry seg] else own.pendingRtt := by
  unfold observeOwn
  rw [windowPushAndEvict_eq]
  rfl

/-- The latest data time moves with the segments that carry data. -/
lemma observeOwn_tputMaxTs : (observeOwn own seg cfg).tputMaxTs =
    if seg.isData then some (own.tputMaxTs.elim seg.ts fun m => max m seg.ts)
    else own.tputMaxTs := by
  unfold observeOwn windowPushAndEvict
  cases hd : seg.isData with
  | true =>
      cases own.tputMaxTs <;> simp only [if_true, Option.elim] <;> split <;> rfl
  | false =>
      cases own.tputMaxTs <;> simp only [Bool.false_eq_true, if_false] <;> split <;> rfl

/-- The window after a segment. -/
lemma observeOwn_tput : (observeOwn own seg cfg).tput =
    let pushed := if seg.isData then
      own.tput ++ [(seg.ts, seg.payloadLen, (classify own seg cfg).1)] else own.tput
    if cfg.throughputWindow.ns = 0 then pushed
    else (observeOwn own seg cfg).tputMaxTs.elim pushed fun m =>
      pushed.dropWhile fun e => e.1.ns + cfg.throughputWindow.ns ≤ m.ns := by
  rw [observeOwn_tputMaxTs]
  unfold observeOwn windowPushAndEvict
  cases hd : seg.isData with
  | true =>
      cases own.tputMaxTs <;> simp only [if_true, Option.elim] <;> split <;> rfl
  | false =>
      cases own.tputMaxTs <;> simp only [Bool.false_eq_true, if_false] <;> split <;> rfl

/-- An entry of the window was there before, or is the segment's. -/
lemma mem_observeOwn_tput {e : Nanos × BitVec 32 × Bool}
    (h : e ∈ (observeOwn own seg cfg).tput) :
    e ∈ own.tput ∨ e = (seg.ts, seg.payloadLen, (classify own seg cfg).1) := by
  unfold observeOwn windowPushAndEvict at h
  cases hd : seg.isData with
  | true =>
      simp only [hd, if_true] at h
      split at h
      · simpa using h
      · simpa using List.dropWhile_subset _ h
  | false =>
      simp only [hd, Bool.false_eq_true, if_false] at h
      split at h
      · exact Or.inl h
      · split at h
        · exact Or.inl h
        · exact Or.inl (List.dropWhile_subset _ h)

end Own

/-! ### The direction that is acknowledged -/

section Peer

variable (peer : DirState) (seg : Segment)

@[simp] lemma observePeer_sndNxt : (observePeer peer seg).sndNxt = peer.sndNxt := by
  unfold observePeer
  split <;> rfl

@[simp] lemma observePeer_frontier : (observePeer peer seg).frontier = peer.frontier := by
  unfold observePeer
  split <;> rfl

@[simp] lemma observePeer_tputMaxTs : (observePeer peer seg).tputMaxTs = peer.tputMaxTs := by
  unfold observePeer
  split <;> rfl

@[simp] lemma observePeer_tput : (observePeer peer seg).tput = peer.tput := by
  unfold observePeer
  split <;> rfl

lemma observePeer_acked : (observePeer peer seg).acked =
    if ackAdvances peer seg then some seg.ack else peer.acked := by
  unfold observePeer
  split <;> rfl

lemma observePeer_pendingRtt : (observePeer peer seg).pendingRtt =
    if ackAdvances peer seg then peer.pendingRtt.dropWhile (covered seg.ack)
    else peer.pendingRtt := by
  unfold observePeer
  rw [popPending_eq]
  split <;> rfl

lemma rttOf_eq : rttOf peer seg =
    if ackAdvances peer seg then
      (peer.pendingRtt.head?.filter (covered seg.ack)).map fun e => seg.ts.saturatingSub e.2
    else none := by
  unfold rttOf
  rw [popPending_eq, Option.map_map]
  rfl

end Peer

/-! ### The step -/

section Step

variable (m : MetricState) (seg : Segment) (dir : Direction) (cfg : EngineConfig)

@[simp] lemma observe_rtt :
    (m.observe seg dir cfg).2.rtt = rttOf (m.dir.get dir.opposite) seg := rfl

@[simp] lemma observe_retransmit :
    (m.observe seg dir cfg).2.retransmit = (classify (m.dir.get dir) seg cfg).1 := rfl

@[simp] lemma observe_outOfOrder :
    (m.observe seg dir cfg).2.outOfOrder = (classify (m.dir.get dir) seg cfg).2 := rfl

@[simp] lemma observe_inFlightBytes :
    (m.observe seg dir cfg).2.inFlightBytes =
      outstanding ((m.dir.get dir).acked.getD seg.seq)
        (serialMax (m.dir.get dir).sndNxt (seqEnd seg)) := rfl

@[simp] lemma get_observe_own :
    (m.observe seg dir cfg).1.dir.get dir = observeOwn (m.dir.get dir) seg cfg := by
  simp [MetricState.observe]

@[simp] lemma get_observe_peer :
    (m.observe seg dir cfg).1.dir.get dir.opposite =
      observePeer (m.dir.get dir.opposite) seg := by
  simp [MetricState.observe]

/-- What a segment's sample says is in flight is what its direction then answers. -/
lemma inFlight_observe : (m.observe seg dir cfg).1.inFlight dir =
    some (m.observe seg dir cfg).2.inFlightBytes := by
  unfold MetricState.inFlight
  simp only [get_observe_own, observeOwn_sndNxt, observeOwn_acked, observe_inFlightBytes]

/-- A fact about both directions after a segment is one about either. -/
lemma forall_observe {P : Direction → DirState → Prop} :
    (∀ d, P d ((m.observe seg dir cfg).1.dir.get d)) ↔
      P dir (observeOwn (m.dir.get dir) seg cfg) ∧
        P dir.opposite (observePeer (m.dir.get dir.opposite) seg) := by
  rw [Direction.forall_iff dir, get_observe_own, get_observe_peer]

end Step

end Observing

end TcpVisr
