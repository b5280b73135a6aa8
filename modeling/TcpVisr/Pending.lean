import TcpVisr.Observing

/-!
The sends that wait for a round trip.

The queue of a direction is popped from the front only, and a send is queued whenever it is
not a retransmission. A send that is queued behind a later one, or after its
acknowledgement went by, therefore stays queued although it is acknowledged. This module
gives the exact condition under which no acknowledged send is ever queued.
-/

namespace TcpVisr.Pending

open TcpSeq Observing Lib.Runs

variable {cfg : EngineConfig} {own peer : DirState} {seg : Segment}

/-- The fold over the segments of one connection. -/
def observing (cfg : EngineConfig) (m : MetricState) (x : Segment × Direction) : MetricState :=
  (m.observe x.1 x.2 cfg).1

/-- No pending send of a direction is acknowledged. -/
def Clear (d : DirState) : Prop :=
  ∀ e ∈ d.pendingRtt, ∀ a, d.acked = some a → serialLe e.1 a = false

def AllClear (m : MetricState) : Prop := ∀ d, Clear (m.dir.get d)

/-! ### The condition -/

/-- Data behind the frontier of its direction that comes outside the reorder window. -/
def Resent (cfg : EngineConfig) (own : DirState) (seg : Segment) : Prop :=
  seg.isData = true ∧ (∃ fr, own.frontier = some fr ∧ seg.seq.serialLt fr = true) ∧
    ∀ prev, own.lastDataTs = some prev → cfg.reorderWindow.ns ≤ seg.ts.ns - prev.ns

/-- An acknowledgement past the mark of a direction that has sent. -/
def Advances (peer : DirState) (seg : Segment) : Prop :=
  seg.flags.ack = true ∧ peer.sndNxt.isSome = true ∧
    ∀ a, peer.acked = some a → seg.ack.serialGt a = true

/-- What a segment must meet to leave nothing acknowledged in either queue: a send that is
queued lies beyond what its direction has acknowledged, and an acknowledgement that
advances finds no send it covers behind one it does not. -/
structure Orderly (cfg : EngineConfig) (m : MetricState) (x : Segment × Direction) : Prop where
  fresh : x.1.consumes = true → ¬ Resent cfg (m.dir.get x.2) x.1 →
    serialLe (seqEnd x.1) ((m.dir.get x.2).acked.getD x.1.seq) = false
  sorted : Advances (m.dir.get x.2.opposite) x.1 →
    (m.dir.get x.2.opposite).pendingRtt.Pairwise fun e f =>
      covered x.1.ack f = true → covered x.1.ack e = true

lemma classify_iff_resent : (classify own seg cfg).1 = true ↔ Resent cfg own seg := by
  unfold classify Resent
  have hmax := cfg.reorderWindow.le_max
  cases hd : seg.isData with
  | false => simp
  | true =>
      cases hf : own.frontier with
      | none => simp
      | some fr =>
          by_cases hlt : seg.seq.serialLt fr = true
          · cases ht : own.lastDataTs with
            | none => simp [hlt, not_lt.mpr hmax]
            | some prev =>
                by_cases hgap : seg.ts.ns - prev.ns < cfg.reorderWindow.ns
                · simp [hlt, hgap]
                · simpa [hlt, hgap] using not_lt.mp hgap
          · simp [hlt]

instance (cfg : EngineConfig) (own : DirState) (seg : Segment) : Decidable (Resent cfg own seg) :=
  decidable_of_iff _ classify_iff_resent

lemma ackAdvances_iff : ackAdvances peer seg = true ↔ Advances peer seg := by
  unfold ackAdvances Advances
  cases peer.acked <;> simp [and_assoc]

/-! ### One direction -/

/-- Before its first segment a direction has nothing queued. -/
def Quiet (d : DirState) : Prop := d.acked = none → d.pendingRtt = [] ∧ d.sndNxt = none

lemma quiet_own : Quiet (observeOwn own seg cfg) := by
  intro h
  simp at h

lemma quiet_peer (h : Quiet peer) : Quiet (observePeer peer seg) := by
  intro hn
  rw [observePeer_acked] at hn
  by_cases ha : ackAdvances peer seg = true
  · rw [if_pos ha] at hn
    exact absurd hn (by simp)
  · rw [if_neg ha] at hn
    rw [observePeer_pendingRtt, if_neg ha, observePeer_sndNxt]
    exact h hn

lemma quiet_observing (xs : List (Segment × Direction)) :
    ∀ d, Quiet ((run (observing cfg) .new xs).dir.get d) := by
  refine inv_run (P := fun m : MetricState => ∀ d, Quiet (m.dir.get d)) ?_ (fun m x h => ?_) xs
  · intro d
    cases d <;> exact fun _ => ⟨rfl, rfl⟩
  · exact (forall_observe m x.1 x.2 cfg).mpr ⟨quiet_own, quiet_peer (h _)⟩

/-- **A segment of the direction** keeps its queue clear exactly if it is a retransmission,
consumes nothing, or ends beyond the mark. -/
lemma clear_own_iff (hq : Quiet own) (h : Clear own) :
    Clear (observeOwn own seg cfg) ↔
      (seg.consumes = true → ¬ Resent cfg own seg →
        serialLe (seqEnd seg) (own.acked.getD seg.seq) = false) := by
  have hold : ∀ e ∈ own.pendingRtt, serialLe e.1 (own.acked.getD seg.seq) = false := by
    intro e he
    cases ha : own.acked with
    | none => simp [(hq ha).1] at he
    | some a => exact h e he a ha
  unfold Clear
  rw [← classify_iff_resent, observeOwn_acked, observeOwn_pendingRtt]
  cases hr : (classify own seg cfg).1 with
  | true => simp
  | false =>
      cases hc : seg.consumes with
      | false => simpa using fun es ts he => hold (es, ts) he
      | true =>
          simp only [if_true, Bool.false_eq_true, if_false, List.mem_append, List.mem_singleton,
            Option.some.injEq, forall_eq', not_false_eq_true, forall_const]
          constructor
          · intro hall
            exact hall _ (Or.inr rfl)
          · rintro hend e (he | rfl)
            · exact hold e he
            · exact hend

/-- **A segment of the opposite direction** keeps the queue clear exactly if it advances
nothing, or what it covers stands at the front. -/
lemma clear_peer_iff (h : Clear peer) :
    Clear (observePeer peer seg) ↔
      (Advances peer seg → peer.pendingRtt.Pairwise fun e f =>
        covered seg.ack f = true → covered seg.ack e = true) := by
  unfold Clear
  rw [← ackAdvances_iff, observePeer_acked, observePeer_pendingRtt]
  cases ha : ackAdvances peer seg with
  | false => simpa using fun es ts => h (es, ts)
  | true =>
      simp only [if_true, Option.some.injEq, forall_eq', forall_const]
      exact Lib.Front.forall_dropWhile_iff

/-! ### Runs -/

lemma allClear_new : AllClear .new := by
  intro d
  cases d <;> exact fun e he => absurd he (List.not_mem_nil)

lemma allClear_observing_iff {m : MetricState} {x : Segment × Direction}
    (hq : ∀ d, Quiet (m.dir.get d)) (h : AllClear m) :
    AllClear (observing cfg m x) ↔ Orderly cfg m x := by
  unfold AllClear observing
  rw [forall_observe (P := fun _ => Clear), clear_own_iff (hq _) (h _), clear_peer_iff (h _)]
  exact ⟨fun ⟨h1, h2⟩ => ⟨h1, h2⟩, fun ⟨h1, h2⟩ => ⟨h1, h2⟩⟩

/-- **No acknowledged send is queued**, after every segment of a run, exactly if every segment
of the run is orderly. -/
theorem allClear_iff_orderly (cfg : EngineConfig) (xs : List (Segment × Direction)) :
    Always (observing cfg) .new AllClear xs ↔ Steps (observing cfg) .new (Orderly cfg) xs :=
  always_iff_steps quiet_observing allClear_new (fun _ _ => allClear_observing_iff) xs

/-- A SYN, its data with the halves swapped on the way, and the acknowledgement of the first
half. -/
def swapped : List (Segment × Direction) :=
  [(.between 1 2 0 TcpFlags.SYN 99, .originToResponder),
    (.between 1 2 1000000 TcpFlags.ACK 200 100, .originToResponder),
    (.between 1 2 2000000 TcpFlags.ACK 100 100, .originToResponder),
    (.between 2 1 3000000 TcpFlags.ACK 0 0 200, .responderToOrigin)]

/-- The first half stays queued behind the second. -/
theorem not_allClear : ¬ Always (observing {}) .new AllClear swapped := by
  intro h
  have hlast := h swapped List.prefix_rfl .originToResponder
  exact absurd (hlast (200, Nanos.sat 2000000) (by decide +kernel) 200 (by decide +kernel))
    (by decide)

end TcpVisr.Pending
