import TcpVisr.Pending

/-!
Round trips of sends that were made once.

An acknowledgement does not say which of two sends of the same bytes it answers, so only a
send whose bytes went out once may be timed. The derivation drops its queue at every
retransmission it recognises; this module says what that guarantees.
-/

namespace TcpVisr

open TcpSeq Observing Pending Lib.Runs Lib.Serial

/-- A segment at its place in the unbounded counts behind the wire's numbers: `pos` in that
of its own direction, `ackPos` in that of the opposite one. -/
structure Placed where
  seg : Segment
  dir : Direction
  pos : ℤ
  ackPos : ℤ
  seq_eq : seg.seq = mark 0 pos
  ack_eq : seg.ack = mark 0 ackPos

namespace Placed

/-- One past the last number the segment consumes. -/
def stop (x : Placed) : ℤ := x.pos + x.seg.len

/-- Some number lies in the ranges of both. -/
def Overlaps (x y : Placed) : Prop := max x.pos y.pos < min x.stop y.stop

instance (x y : Placed) : Decidable (x.Overlaps y) :=
  inferInstanceAs (Decidable (max x.pos y.pos < min x.stop y.stop))

lemma overlaps_comm {x y : Placed} : x.Overlaps y ↔ y.Overlaps x := by
  unfold Overlaps
  rw [max_comm, min_comm]

/-- A segment that consumes something overlaps itself. -/
lemma overlaps_self_iff {x : Placed} : x.Overlaps x ↔ x.seg.consumes = true := by
  rw [← len_pos_iff]
  unfold Overlaps stop
  omega

lemma consumes_of_overlaps {x y : Placed} (h : x.Overlaps y) : x.seg.consumes = true := by
  rw [← len_pos_iff]
  unfold Overlaps stop at h
  omega

lemma seqEnd_eq (x : Placed) : seqEnd x.seg = mark 0 x.stop := by
  rw [seqEnd_eq_mark, x.seq_eq, ← mark_add]
  rfl

/-- A segment between two fixed hosts, for concrete runs. -/
def between (dir : Direction) (ts : ℕ) (bits : BitVec 16) (pos : ℤ) (payloadLen : BitVec 32 := 0)
    (ackPos : ℤ := 0) : Placed where
  seg := .between 1 2 ts bits (mark 0 pos) payloadLen (mark 0 ackPos)
  dir := dir
  pos := pos
  ackPos := ackPos
  seq_eq := rfl
  ack_eq := rfl

end Placed

/-- The derivation beside what it has seen: all segments of each direction, and those that
its pending entries stand for. -/
structure Watch where
  metrics : MetricState
  seen : PerDir (List Placed)
  queued : PerDir (List Placed)

namespace Watch

def new : Watch := ⟨.new, ⟨[], []⟩, ⟨[], []⟩⟩

variable (cfg : EngineConfig) (w : Watch) (x : Placed)

/-- What waits in the direction of `x` after it. -/
def queuedOwn : List Placed :=
  if (classify (w.metrics.dir.get x.dir) x.seg cfg).1 then []
  else if x.seg.consumes then w.queued.get x.dir ++ [x] else w.queued.get x.dir

/-- What waits in the opposite direction after `x`. -/
def queuedPeer : List Placed :=
  if ackAdvances (w.metrics.dir.get x.dir.opposite) x.seg then
    (w.queued.get x.dir.opposite).dropWhile fun s => covered x.seg.ack (entry s.seg)
  else w.queued.get x.dir.opposite

def observe : Watch where
  metrics := (w.metrics.observe x.seg x.dir cfg).1
  seen := w.seen.set x.dir (w.seen.get x.dir ++ [x])
  queued := (w.queued.set x.dir (w.queuedOwn cfg x)).set x.dir.opposite (w.queuedPeer x)

/-- Each pending entry is that of its segment. -/
def Mirrors : Prop :=
  ∀ d, (w.metrics.dir.get d).pendingRtt = (w.queued.get d).map fun s => entry s.seg

variable {cfg w x}

lemma mirrors_observe (h : w.Mirrors) : (w.observe cfg x).Mirrors := by
  refine (Direction.forall_iff x.dir).mpr ⟨?_, ?_⟩
  · simp only [observe, get_observe_own, observeOwn_pendingRtt, PerDir.get_set_opposite,
      PerDir.get_set_self, queuedOwn]
    rw [h x.dir]
    split_ifs <;> simp
  · simp only [observe, get_observe_peer, observePeer_pendingRtt, PerDir.get_set_self, queuedPeer]
    rw [h x.dir.opposite]
    split_ifs
    · rw [List.dropWhile_map]
      rfl
    · rfl

theorem mirrors_run (xs : List Placed) : (run (observe cfg) new xs).Mirrors := by
  refine inv_run (P := Mirrors) ?_ (fun _ _ h => mirrors_observe h) xs
  intro d
  cases d <;> rfl

/-! ### Sends that were made once -/

/-- `s` is one of the segments `l`, consumes something, and overlaps itself alone. -/
def Once (l : List Placed) (s : Placed) : Prop :=
  s ∈ l ∧ s.seg.consumes = true ∧ l.countP (fun o => s.Overlaps o) = 1

/-- Every segment that waits was sent once. -/
def Single (w : Watch) : Prop := ∀ d, ∀ s ∈ w.queued.get d, Once (w.seen.get d) s

/-- A segment that overlaps an earlier one of its direction is taken for a retransmission. -/
def Caught (cfg : EngineConfig) (w : Watch) (x : Placed) : Prop :=
  ∀ o ∈ w.seen.get x.dir, o.Overlaps x → Resent cfg (w.metrics.dir.get x.dir) x.seg

lemma once_snoc_iff {l : List Placed} {s : Placed} (h : Once l s) :
    Once (l ++ [x]) s ↔ ¬ s.Overlaps x := by
  obtain ⟨hmem, hcons, hcount⟩ := h
  unfold Once
  rw [List.countP_append, hcount, List.countP_singleton]
  simp [hmem, hcons]

lemma once_last_iff {l : List Placed} (hx : x.seg.consumes = true) :
    Once (l ++ [x]) x ↔ ∀ o ∈ l, ¬ o.Overlaps x := by
  have hself : x.Overlaps x := Placed.overlaps_self_iff.mpr hx
  unfold Once
  rw [List.countP_append, List.countP_singleton]
  simp [hx, hself, Placed.overlaps_comm (x := x), List.countP_eq_zero]

/-- Only the direction that sends can cease to hold single sends. -/
lemma single_observe_own (h : w.Single) : (w.observe cfg x).Single ↔
    ∀ s ∈ w.queuedOwn cfg x, Once (w.seen.get x.dir ++ [x]) s := by
  have hpeer : ∀ s ∈ w.queuedPeer x, Once (w.seen.get x.dir.opposite) s := by
    intro s hs
    apply h x.dir.opposite s
    unfold queuedPeer at hs
    split at hs
    · exact List.dropWhile_subset _ hs
    · exact hs
  unfold Single
  rw [Direction.forall_iff x.dir]
  simpa [observe] using fun _ => hpeer

/-- **A segment keeps every waiting send a single one** exactly if it is caught when it sends
something again. -/
lemma single_observe_iff (h : w.Single) : (w.observe cfg x).Single ↔ Caught cfg w x := by
  rw [single_observe_own h]
  unfold queuedOwn Caught
  cases hr : (classify (w.metrics.dir.get x.dir) x.seg cfg).1 with
  | true => simp [classify_iff_resent.mp hr]
  | false =>
      have hn : ¬ Resent cfg (w.metrics.dir.get x.dir) x.seg := by
        simp [← classify_iff_resent, hr]
      have hkeep (hno : ∀ o ∈ w.seen.get x.dir, ¬ o.Overlaps x) :
          ∀ s ∈ w.queued.get x.dir, Once (w.seen.get x.dir ++ [x]) s := by
        intro s hs
        have hs' := h x.dir s hs
        exact (once_snoc_iff hs').mpr (hno s hs'.1)
      simp only [Bool.false_eq_true, if_false, hn, imp_false]
      by_cases hc : x.seg.consumes = true
      · rw [if_pos hc, List.forall_mem_append, List.forall_mem_singleton, once_last_iff hc]
        exact ⟨And.right, fun hno => ⟨hkeep hno, hno⟩⟩
      · have hno : ∀ o ∈ w.seen.get x.dir, ¬ o.Overlaps x := by
          intro o _ ho
          exact hc (Placed.consumes_of_overlaps (Placed.overlaps_comm.mp ho))
        rw [if_neg hc]
        exact iff_of_true (hkeep hno) hno

/-- **What waits was sent once**, after every segment of a run, exactly if every segment of
the run is caught when it sends something again. -/
theorem single_iff_caught (cfg : EngineConfig) (xs : List Placed) :
    Always (observe cfg) new Single xs ↔ Steps (observe cfg) new (Caught cfg) xs := by
  refine always_iff_steps (I := fun _ => True) (fun _ => trivial) ?_
    (fun _ _ _ h => single_observe_iff h) xs
  intro d s hs
  cases d <;> exact absurd hs (List.not_mem_nil)

/-! ### The round trips -/

/-- Nothing the acknowledged direction has sent lies half a cycle beyond the acknowledgement. -/
def Within (w : Watch) (x : Placed) : Prop :=
  x.seg.flags.ack = true → ∀ s ∈ w.seen.get x.dir.opposite, s.stop - x.ackPos < 2 ^ 31

/-- Every round trip that `x` yields is that of a send it covers and that was made once. -/
def Measures (cfg : EngineConfig) (w : Watch) (x : Placed) : Prop :=
  ∀ r, (w.metrics.observe x.seg x.dir cfg).2.rtt = some r →
    ∃ s, Once (w.seen.get x.dir.opposite) s ∧ s.stop ≤ x.ackPos ∧
      r = x.seg.ts.saturatingSub s.seg.ts

/-- What an acknowledgement covers ends at or before it. -/
lemma stop_le_of_covered {s x : Placed} (h : s.stop - x.ackPos < 2 ^ 31)
    (hc : covered x.seg.ack (entry s.seg) = true) : s.stop ≤ x.ackPos := by
  by_contra hlt
  unfold covered entry at hc
  rw [s.seqEnd_eq, x.ack_eq, serialLe_mark (by omega) (by omega)] at hc
  exact hlt (by simpa using hc)

/-- **A round trip is that of a waiting send.** -/
lemma measures_of_single (hm : w.Mirrors) (h : w.Single) (hw : Within w x) :
    Measures cfg w x := by
  intro r hr
  rw [observe_rtt, rttOf_eq] at hr
  by_cases ha : ackAdvances (w.metrics.dir.get x.dir.opposite) x.seg = true
  · rw [if_pos ha, Option.map_eq_some_iff] at hr
    obtain ⟨e, he, rfl⟩ := hr
    obtain ⟨hhead, hcov⟩ := Option.filter_eq_some_iff.mp he
    rw [hm, List.head?_map, Option.map_eq_some_iff] at hhead
    obtain ⟨s, hs, rfl⟩ := hhead
    have honce := h x.dir.opposite s (List.mem_of_mem_head? hs)
    exact ⟨s, honce, stop_le_of_covered (hw (ackAdvances_iff.mp ha).1 s honce.1) hcov, rfl⟩
  · rw [if_neg ha] at hr
    exact absurd hr (by simp)

/-- **No false round trip**: while less than half a cycle is outstanding and every segment
that sends something again is caught, each round trip is that of a covered send whose bytes
went out once. -/
theorem measures_of_caught (cfg : EngineConfig) (xs : List Placed)
    (hw : Steps (observe cfg) new Within xs) (hc : Steps (observe cfg) new (Caught cfg) xs) :
    Steps (observe cfg) new (Measures cfg) xs := by
  intro p x hp
  have hsingle := (single_iff_caught cfg xs).mpr hc p ((List.prefix_append p [x]).trans hp)
  exact measures_of_single (mirrors_run p) hsingle (hw p x hp)

instance (w : Watch) (x : Placed) : Decidable (Within w x) :=
  inferInstanceAs (Decidable (_ → ∀ s ∈ _, _))

instance (cfg : EngineConfig) (w : Watch) (x : Placed) : Decidable (Caught cfg w x) :=
  inferInstanceAs (Decidable (∀ o ∈ _, _ → _))

/-- A SYN, data lost after the vantage point and sent again a second later, and their
acknowledgements. -/
def loss : List Placed :=
  [.between .originToResponder 0 TcpFlags.SYN 99,
    .between .responderToOrigin 1000 (TcpFlags.SYN ||| TcpFlags.ACK) 499 0 100,
    .between .originToResponder 2000 TcpFlags.ACK 100 50 500,
    .between .originToResponder 1000002000 TcpFlags.ACK 100 50 500,
    .between .responderToOrigin 1000003000 TcpFlags.ACK 500 0 150]

theorem measures_of_caught_loss : Steps (observe {}) new (Measures {}) loss :=
  measures_of_caught {} loss (by decide +kernel) (by decide +kernel)

/-- A SYN that is sent twice before it is answered. -/
def resyn : List Placed :=
  [.between .originToResponder 0 TcpFlags.SYN 99,
    .between .originToResponder 1000000000 TcpFlags.SYN 99,
    .between .responderToOrigin 1000001000 (TcpFlags.SYN ||| TcpFlags.ACK) 499 0 100]

/-- The answer is timed from the first of the two. -/
theorem not_measures : Steps (observe {}) new Within resyn ∧
    ¬ Steps (observe {}) new (Measures {}) resyn := by
  refine ⟨by decide +kernel, fun h => ?_⟩
  obtain ⟨s, ⟨hs, -, hcount⟩, -⟩ := h (resyn.take 2) _ (List.prefix_rfl) (Nanos.sat 1000001000)
    (by decide +kernel)
  have htwo : ∀ s ∈ (run (observe {}) new (resyn.take 2)).seen.get .originToResponder,
      ((run (observe {}) new (resyn.take 2)).seen.get .originToResponder).countP
        (fun o => s.Overlaps o) = 2 := by
    decide +kernel
  exact absurd ((htwo s hs).symm.trans hcount) (by decide)

end Watch

end TcpVisr
