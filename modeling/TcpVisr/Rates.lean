import TcpVisr.Observing

/-!
The throughput window of a direction.

A direction queues its data segments and prunes the queue from the front, of what has left
the window that ends at its latest time. The queue is therefore the history less its stale
front. A stale entry behind a fresh one stays queued, and an entry once pruned is missing
from a window that ends before the latest time.
-/

namespace TcpVisr

open Lib.Runs

/-- A queued data segment: time, payload length, retransmit. -/
abbrev Burst := Nanos × BitVec 32 × Bool

/-- The derivation beside the data segments each direction has sent. -/
structure Meter where
  metrics : MetricState
  sent : PerDir (List Burst)

namespace Meter

def new : Meter := ⟨.new, ⟨[], []⟩⟩

variable (cfg : EngineConfig)

/-- One segment of direction `x.2`. -/
def observe (g : Meter) (x : Segment × Direction) : Meter where
  metrics := (g.metrics.observe x.1 x.2 cfg).1
  sent :=
    if x.1.isData then
      g.sent.set x.2 (g.sent.get x.2 ++
        [(x.1.ts, x.1.payloadLen, (classify (g.metrics.dir.get x.2) x.1 cfg).1)])
    else g.sent

/-- The meter after the segments `xs`. -/
def meter (xs : List (Segment × Direction)) : Meter := run (observe cfg) new xs

end Meter

namespace Rates

open Meter Observing Lib.Front

/-! ### What a window holds -/

/-- The latest time of a history. -/
def peak (l : List Burst) : ℕ := (l.map fun e => e.1.ns).foldl max 0

/-- `ts + w <= max_ts`: no window that ends at `m` or later holds the entry. -/
def stale (w m : ℕ) (e : Burst) : Bool := decide (e.1.ns + w ≤ m)

/-- The entries in the window `(t - w, t]`. -/
def within (w t : ℕ) (l : List Burst) : List Burst :=
  l.filter fun e => t < e.1.ns + w ∧ e.1.ns ≤ t

/-- The entries that are no retransmissions. -/
def good (l : List Burst) : List Burst := l.filter fun e => !e.2.2

/-- The payload bytes of some entries. -/
def bytes (l : List Burst) : ℕ := (l.map fun e => e.2.1.toNat).sum

/-- `b` bytes over `w` nanoseconds in bits per second, rounded down, saturated to `u64`. -/
def bps (w b : ℕ) : ℕ := min (8000000000 * b / w) u64Max

/-- The throughput and the goodput over the window `(t - w, t]`. -/
def rates (w t : ℕ) (l : List Burst) : ℕ × ℕ :=
  (bps w (bytes (within w t l)), bps w (bytes (good (within w t l))))

/-- The entries that a pruned queue holds. -/
def kept (w : ℕ) (l : List Burst) : List Burst := l.dropWhile (stale w (peak l))

/-- The entries pruned from the window `(t - w, t]`. -/
def lost (w t : ℕ) (l : List Burst) : List Burst := within w t (l.takeWhile (stale w (peak l)))

variable {cfg : EngineConfig} {l : List Burst} {e : Burst} {w m t : ℕ}

lemma peak_snoc (l : List Burst) (e : Burst) : peak (l ++ [e]) = max (peak l) e.1.ns := by
  simp [peak, List.foldl_append]

lemma le_peak (he : e ∈ l) : e.1.ns ≤ peak l := by
  induction l using List.reverseRecOn with
  | nil => simp at he
  | append_singleton l f ih =>
      rw [peak_snoc]
      rcases List.mem_append.mp he with he | he
      · exact le_max_of_le_left (ih he)
      · rw [List.mem_singleton.mp he]
        exact le_max_right _ _

/-- A window is split as the history is: the pruned part and the queued part. -/
lemma within_split (w t : ℕ) (l : List Burst) :
    within w t l = lost w t l ++ within w t (kept w l) := by
  rw [lost, kept, within, within, within, ← List.filter_append, List.takeWhile_append_dropWhile]

lemma bytes_append (l m : List Burst) : bytes (l ++ m) = bytes l + bytes m := by
  simp [bytes]

lemma good_append (l m : List Burst) : good (l ++ m) = good l ++ good m := List.filter_append ..

lemma bytes_good_le (l : List Burst) : bytes (good l) ≤ bytes l :=
  (List.filter_sublist.map _).sum_le_sum (by simp)

/-- Nothing is pruned from a window that ends at the latest time or later. -/
lemma lost_eq_nil (ht : peak l ≤ t) : lost w t l = [] := by
  refine List.filter_eq_nil_iff.mpr fun e he => ?_
  have hs : stale w (peak l) e = true := List.mem_takeWhile_imp he
  have := of_decide_eq_true hs
  simp only [decide_eq_true_eq]
  omega

/-! ### What a query sums -/

/-- The `u128` saturation is out of sight of the `u64` one. -/
lemma scaleBps_eq (hw : 0 < w) (hmax : w ≤ u64Max) (b : ℕ) : scaleBps b w = bps w b := by
  have hlarge : ∀ n, 2 ^ 128 - 1 ≤ n → u64Max ≤ n / w := by
    intro n hn
    rw [Nat.le_div_iff_mul_le hw]
    have : u64Max * w ≤ u64Max * u64Max := Nat.mul_le_mul_left _ hmax
    have hsq : u64Max * u64Max ≤ 2 ^ 128 - 1 := by decide
    omega
  unfold scaleBps bps
  dsimp only
  by_cases hb : 8000000000 * b < 2 ^ 128
  · have hmul : min (min (b * 8) (2 ^ 128 - 1) * 1000000000) (2 ^ 128 - 1) = 8000000000 * b := by
      omega
    rw [hmul]
  · have hmul : min (min (b * 8) (2 ^ 128 - 1) * 1000000000) (2 ^ 128 - 1) = 2 ^ 128 - 1 := by
      omega
    have h1 := hlarge (2 ^ 128 - 1) le_rfl
    have h2 := hlarge (8000000000 * b) (by omega)
    rw [hmul, min_eq_right h1, min_eq_right h2]

/-- The loop of a query adds up the bytes of the window and the good ones among them. -/
lemma foldl_window (w t : ℕ) (l : List Burst) (a b : ℕ) :
    l.foldl (fun (acc : ℕ × ℕ) e =>
        if t < e.1.ns + w ∧ e.1.ns ≤ t then
          (acc.1 + e.2.1.toNat, if e.2.2 then acc.2 else acc.2 + e.2.1.toNat)
        else acc) (a, b) =
      (a + bytes (within w t l), b + bytes (good (within w t l))) := by
  induction l generalizing a b with
  | nil => rfl
  | cons e l ih =>
      rw [List.foldl_cons]
      by_cases he : t < e.1.ns + w ∧ e.1.ns ≤ t
      · rw [if_pos he, ih]
        cases hr : e.2.2 <;>
          simp [within, good, bytes, he, hr, Nat.add_assoc]
      · rw [if_neg he, ih]
        simp [within, good, bytes, he]

/-- What a query answers, in terms of the queue. -/
lemma throughputAt_eq (m : MetricState) (dir : Direction) (t : Nanos) (cfg : EngineConfig) :
    m.throughputAt dir t cfg = (m.dir.get dir).tputMaxTs.map fun _ =>
      if cfg.throughputWindow.ns = 0 then (0, 0)
      else rates cfg.throughputWindow.ns t.ns (m.dir.get dir).tput := by
  have hmax := cfg.throughputWindow.le_max
  unfold MetricState.throughputAt
  dsimp only
  cases hm : (m.dir.get dir).tputMaxTs with
  | none => rfl
  | some a =>
      rw [foldl_window]
      simp only [Option.isNone_some, Bool.false_eq_true, if_false, Nat.zero_add, Option.map_some]
      split
      · rfl
      · next hw => rw [scaleBps_eq (by omega) hmax, scaleBps_eq (by omega) hmax, rates]

/-! ### What a direction keeps of its history -/

/-- The latest time and the queue of a direction that has sent `l`. -/
structure Holds (w : ℕ) (d : DirState) (l : List Burst) : Prop where
  latest : d.tputMaxTs.map Nanos.ns = if l = [] then none else some (peak l)
  queue : 0 < w → d.tput = kept w l

lemma kept_kept_append (w : ℕ) (l m : List Burst) (h : peak l ≤ peak (l ++ m)) :
    (kept w l ++ m).dropWhile (stale w (peak (l ++ m))) = kept w (l ++ m) := by
  refine dropWhile_dropWhile_append (fun e _ he => ?_) m
  have := of_decide_eq_true he
  exact decide_eq_true (by omega)

variable {d : DirState}

lemma holds_new (w : ℕ) : Holds w {} [] := ⟨rfl, fun _ => rfl⟩

lemma Holds.nil (h : Holds w d l) (hm : d.tputMaxTs = none) : l = [] := by
  by_contra hl
  have hlatest := h.latest
  simp [hm, hl] at hlatest

lemma Holds.peak_eq (h : Holds w d l) {a : Nanos} (hm : d.tputMaxTs = some a) : a.ns = peak l := by
  have hlatest := h.latest
  rw [hm] at hlatest
  split at hlatest
  · cases hlatest
  · exact Option.some.inj hlatest

/-- A data segment of the direction itself. -/
lemma holds_data (h : Holds cfg.throughputWindow.ns d l) {seg : Segment}
    (hd : seg.isData = true) :
    Holds cfg.throughputWindow.ns (observeOwn d seg cfg)
      (l ++ [(seg.ts, seg.payloadLen, (classify d seg cfg).1)]) := by
  have hmax : (observeOwn d seg cfg).tputMaxTs.map Nanos.ns =
      some (peak (l ++ [(seg.ts, seg.payloadLen, (classify d seg cfg).1)])) := by
    rw [observeOwn_tputMaxTs, if_pos hd, peak_snoc]
    cases hm : d.tputMaxTs with
    | none =>
        rw [h.nil hm]
        simp [peak]
    | some a => simp [h.peak_eq hm]
  refine ⟨by simpa using hmax, fun hw => ?_⟩
  obtain ⟨a, ha, hpeak⟩ := Option.map_eq_some_iff.mp hmax
  rw [observeOwn_tput, if_neg hw.ne', ha, if_pos hd]
  simp only [Option.elim, h.queue hw, hpeak]
  exact kept_kept_append _ l _ (by rw [peak_snoc]; exact le_max_left _ _)

/-- Any other segment of the direction prunes once more what is pruned already. -/
lemma holds_quiet (h : Holds cfg.throughputWindow.ns d l) {seg : Segment}
    (hd : seg.isData = false) : Holds cfg.throughputWindow.ns (observeOwn d seg cfg) l := by
  have hmax : (observeOwn d seg cfg).tputMaxTs = d.tputMaxTs := by
    rw [observeOwn_tputMaxTs, hd]
    rfl
  refine ⟨by rw [hmax]; exact h.latest, fun hw => ?_⟩
  rw [observeOwn_tput, if_neg hw.ne', hmax]
  simp only [hd, Bool.false_eq_true, if_false]
  cases hm : d.tputMaxTs with
  | none => exact h.queue hw
  | some a =>
      simp only [Option.elim, h.queue hw, h.peak_eq hm]
      have h := kept_kept_append cfg.throughputWindow.ns l [] (by simp)
      rwa [List.append_nil, List.append_nil] at h

/-- A segment of the direction itself. -/
lemma holds_own (h : Holds cfg.throughputWindow.ns d l) (seg : Segment) :
    Holds cfg.throughputWindow.ns (observeOwn d seg cfg)
      (if seg.isData then l ++ [(seg.ts, seg.payloadLen, (classify d seg cfg).1)] else l) := by
  cases hd : seg.isData with
  | true => exact holds_data h hd
  | false => exact holds_quiet h hd

/-- A segment of the opposite direction. -/
lemma holds_peer (h : Holds w d l) (seg : Segment) : Holds w (observePeer d seg) l :=
  ⟨by rw [observePeer_tputMaxTs]; exact h.latest, by rw [observePeer_tput]; exact h.queue⟩

/-- One segment. -/
lemma holds_observe {g : Meter}
    (h : ∀ dir, Holds cfg.throughputWindow.ns (g.metrics.dir.get dir) (g.sent.get dir))
    (x : Segment × Direction) :
    ∀ dir, Holds cfg.throughputWindow.ns ((g.observe cfg x).metrics.dir.get dir)
      ((g.observe cfg x).sent.get dir) := by
  refine (Direction.forall_iff x.2).mpr ⟨?_, ?_⟩
  · have hown := holds_own (h x.2) x.1
    simp only [Meter.observe, get_observe_own]
    cases hd : x.1.isData <;> simpa [hd] using hown
  · have hpeer := holds_peer (h x.2.opposite) x.1
    simp only [Meter.observe, get_observe_peer]
    cases hd : x.1.isData <;> simpa [hd] using hpeer

/-- **The queue is the history less its stale front.** -/
theorem holds_meter (cfg : EngineConfig) (xs : List (Segment × Direction)) :
    ∀ dir, Holds cfg.throughputWindow.ns ((meter cfg xs).metrics.dir.get dir)
      ((meter cfg xs).sent.get dir) := by
  refine inv_run (P := fun g : Meter => ∀ dir,
    Holds cfg.throughputWindow.ns (g.metrics.dir.get dir) (g.sent.get dir)) ?_
    (fun _ x h => holds_observe h x) xs
  intro dir
  cases dir <;> exact holds_new _

/-! ### The bound on the queue -/

/-- The queue holds exactly the entries that some window ending at the latest time or later
may hold. -/
def Pruned (cfg : EngineConfig) (g : Meter) (dir : Direction) : Prop :=
  ((g.metrics.dir.get dir).tputMaxTs.map Nanos.ns =
      if g.sent.get dir = [] then none else some (peak (g.sent.get dir))) ∧
    (g.metrics.dir.get dir).tput = (g.sent.get dir).filter fun e =>
      !stale cfg.throughputWindow.ns (peak (g.sent.get dir)) e

/-- Every entry sent before a stale one is stale. -/
def StaleFirst (w : ℕ) (l : List Burst) : Prop :=
  l.Pairwise fun e f => stale w (peak l) f = true → stale w (peak l) e = true

instance (cfg : EngineConfig) (g : Meter) (dir : Direction) : Decidable (Pruned cfg g dir) :=
  inferInstanceAs (Decidable (_ ∧ _))

instance (w : ℕ) (l : List Burst) : Decidable (StaleFirst w l) :=
  inferInstanceAs (Decidable (l.Pairwise _))

/-- **The queue is bounded by its window** after a segment exactly if, among all data the
direction has sent, nothing stale comes behind something that is not. -/
theorem pruned_iff_staleFirst (hw : 0 < cfg.throughputWindow.ns)
    (xs : List (Segment × Direction)) (dir : Direction) :
    Pruned cfg (meter cfg xs) dir ↔
      StaleFirst cfg.throughputWindow.ns ((meter cfg xs).sent.get dir) := by
  obtain ⟨hlatest, hqueue⟩ := holds_meter cfg xs dir
  unfold Pruned StaleFirst
  rw [and_iff_right hlatest, hqueue hw]
  exact dropWhile_eq_filter_iff

/-- A data segment ten seconds ahead of the three that follow it. -/
def farAhead : List (Segment × Direction) :=
  [(.between 1 2 10000000000 TcpFlags.ACK 100 10, .originToResponder),
    (.between 1 2 1 TcpFlags.ACK 110 10, .originToResponder),
    (.between 1 2 2 TcpFlags.ACK 120 10, .originToResponder),
    (.between 1 2 3 TcpFlags.ACK 130 10, .originToResponder)]

/-- Behind the one ahead the others stay. -/
theorem not_pruned : ¬ Pruned {} (meter {} farAhead) .originToResponder := by
  decide +kernel

/-- In order, a queue of one window prunes its first entry. -/
theorem pruned_iff_staleFirst_inOrder :
    Pruned {} (meter {} farAhead.reverse) .originToResponder :=
  (pruned_iff_staleFirst (by decide) farAhead.reverse .originToResponder).mpr (by decide +kernel)

/-! ### What a query reports -/

/-- A query at `t` reports the rates of everything the direction has sent in its window, and
none before the direction has sent anything. -/
def Windowed (cfg : EngineConfig) (g : Meter) (dir : Direction) (t : Nanos) : Prop :=
  g.metrics.throughputAt dir t cfg =
    if g.sent.get dir = [] then none
    else some (rates cfg.throughputWindow.ns t.ns (g.sent.get dir))

/-- What is pruned from the window `(t - w, t]` carries too little to change either rate. -/
def Negligible (w t : ℕ) (l : List Burst) : Prop :=
  bps w (bytes (within w t l) - bytes (lost w t l)) = bps w (bytes (within w t l)) ∧
    bps w (bytes (good (within w t l)) - bytes (good (lost w t l))) =
      bps w (bytes (good (within w t l)))

instance (cfg : EngineConfig) (g : Meter) (dir : Direction) (t : Nanos) :
    Decidable (Windowed cfg g dir t) :=
  inferInstanceAs (Decidable (_ = _))

instance (w t : ℕ) (l : List Burst) : Decidable (Negligible w t l) :=
  inferInstanceAs (Decidable (_ ∧ _))

/-- What the code reports of a direction that has sent `l`. -/
def shown (w t : ℕ) (l : List Burst) : ℕ × ℕ := if w = 0 then (0, 0) else rates w t (kept w l)

lemma throughputAt_meter (cfg : EngineConfig) (xs : List (Segment × Direction))
    (dir : Direction) (t : Nanos) :
    (meter cfg xs).metrics.throughputAt dir t cfg =
      if (meter cfg xs).sent.get dir = [] then none
      else some (shown cfg.throughputWindow.ns t.ns ((meter cfg xs).sent.get dir)) := by
  obtain ⟨hlatest, hqueue⟩ := holds_meter cfg xs dir
  have hshown : (if cfg.throughputWindow.ns = 0 then (0, 0) else
      rates cfg.throughputWindow.ns t.ns ((meter cfg xs).metrics.dir.get dir).tput) =
        shown cfg.throughputWindow.ns t.ns ((meter cfg xs).sent.get dir) := by
    unfold shown
    split
    · rfl
    · next hw => rw [hqueue (by omega)]
  rw [throughputAt_eq, hshown]
  split at hlatest
  · next h => rw [Option.map_eq_none_iff.mp hlatest, if_pos h, Option.map_none]
  · next h =>
      obtain ⟨a, ha, -⟩ := Option.map_eq_some_iff.mp hlatest
      rw [ha, if_neg h, Option.map_some]

/-- The rates reported are those of the window less what is lost of it. -/
lemma shown_eq (hw : 0 < w) (t : ℕ) (l : List Burst) :
    shown w t l =
      (bps w (bytes (within w t l) - bytes (lost w t l)),
        bps w (bytes (good (within w t l)) - bytes (good (lost w t l)))) := by
  rw [shown, if_neg hw.ne', within_split w t l, good_append, bytes_append, bytes_append,
    Nat.add_sub_cancel_left, Nat.add_sub_cancel_left]
  rfl

/-- Queries at the latest time or later, those of a tick among them, lose nothing. -/
lemma windowed_of_peak_le (hw : 0 < cfg.throughputWindow.ns) (xs : List (Segment × Direction))
    (dir : Direction) {t : Nanos} (ht : peak ((meter cfg xs).sent.get dir) ≤ t.ns) :
    Windowed cfg (meter cfg xs) dir t := by
  unfold Windowed
  rw [throughputAt_meter, shown_eq hw, lost_eq_nil ht]
  rfl

/-- **The windowed rates**, with the exact condition: a query is right exactly if what has been
pruned from its window is negligible, as it is in a query at the latest time or later. -/
theorem windowed_iff_negligible (hw : 0 < cfg.throughputWindow.ns)
    (xs : List (Segment × Direction)) (dir : Direction) (t : Nanos) :
    (Windowed cfg (meter cfg xs) dir t ↔
      Negligible cfg.throughputWindow.ns t.ns ((meter cfg xs).sent.get dir)) ∧
    (peak ((meter cfg xs).sent.get dir) ≤ t.ns → Windowed cfg (meter cfg xs) dir t) := by
  refine ⟨?_, windowed_of_peak_le hw xs dir⟩
  unfold Windowed
  rw [throughputAt_meter]
  split
  · next h =>
      rw [h]
      exact iff_of_true rfl ⟨rfl, rfl⟩
  · rw [Option.some.injEq, shown_eq hw, rates, Prod.mk.injEq]
    rfl

/-- Data now and two seconds later, then a late acknowledgement of the first. -/
def lateAck : List (Segment × Direction) :=
  [(.between 1 2 0 TcpFlags.ACK 100 10, .originToResponder),
    (.between 1 2 2000000000 TcpFlags.ACK 110 10, .originToResponder),
    (.between 2 1 500000000 TcpFlags.ACK 500 0 110, .responderToOrigin)]

/-- When the acknowledgement is observed, ten bytes have left the queue that are in its
window. -/
theorem not_windowed :
    ¬ Windowed {} (meter {} lateAck) .originToResponder (Nanos.sat 500000000) := by
  decide +kernel

/-- Half a second after the second data segment its bytes alone are in the window; half a second
before it, what has been pruned decides. -/
theorem windowed_iff_negligible_lateAck :
    Windowed {} (meter {} lateAck) .originToResponder (Nanos.sat 2500000000) ∧
      (Windowed {} (meter {} lateAck) .originToResponder (Nanos.sat 1500000000) ↔
        Negligible 1000000000 1500000000 ((meter {} lateAck).sent.get .originToResponder)) :=
  ⟨(windowed_iff_negligible (by decide) lateAck .originToResponder (Nanos.sat 2500000000)).2
      (by decide +kernel),
    (windowed_iff_negligible (by decide) lateAck .originToResponder (Nanos.sat 1500000000)).1⟩

end Rates

end TcpVisr
