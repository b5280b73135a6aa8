import TcpVisr.Ledger
import TcpVisr.Observing

/-!
Sequence wraps and instance splits.

A direction's baseline keeps 32 bits of the largest sequence offset it has seen. Behind
offsets that stay within half a cycle of the running maximum it is that maximum modulo
`2 ^ 32`, over any number of wraps, and the backward-reset rule measures the true distance.
-/

namespace TcpVisr.Wraps

open TcpSeq Lib.Serial Observing Slots Plan Index Kept Lifecycle Ledger

/-- The sequence numbers of `l` in direction `dir` of a connection. -/
def wire (c : ConnTrack) (dir : Direction) (l : List Segment) : List TcpSeq :=
  (l.filter fun seg => c.directionOf seg.flow.source = dir).map Segment.seq

/-- Each baseline of a connection is the largest offset behind its segments, as a word. -/
def Based (c : ConnTrack) (l : List Segment) : Prop :=
  ∀ dir xs, Traces (wire c dir l) xs → c.baseline dir = xs.max?.map (mark 0)

/-- The segment makes the tracker open its pair's next instance. -/
def Opens (cfg : EngineConfig) (t : Tracker) (seg : Segment) : Prop :=
  ∃ c ∈ (t.observe cfg (.segment seg)).conns, c.id = t.nextId seg.pair

variable {cfg : EngineConfig} {t : Tracker} {c : ConnTrack} {seg : Segment} {l : List Segment}
  {dir : Direction}

/-! ### One number -/

/-- The more forward word stands for the larger offset. -/
lemma advanceBaseline_mark {m x : ℤ} (h1 : m - x < 2 ^ 31) (h2 : x - m < 2 ^ 31) :
    advanceBaseline (some (mark 0 m)) (mark 0 x) = mark 0 (max m x) := by
  simp only [advanceBaseline, serialGt, serialLt_mark h1 h2.le, decide_eq_true_iff]
  split
  · rw [max_eq_left (by omega)]
  · rw [max_eq_right (by omega)]

/-- The reset rule compares offsets. -/
lemma isBackwardReset_mark {m x : ℤ} (h1 : m - x < 2 ^ 31) (h2 : x - m < 2 ^ 31)
    (threshold : BitVec 32) :
    isBackwardReset (mark 0 m) (mark 0 x) threshold = true ↔ (threshold.toNat : ℤ) < m - x := by
  simp only [isBackwardReset, serialLt_mark h1 h2.le, serialDiff, Bool.and_eq_true,
    decide_eq_true_iff, BitVec.lt_def]
  constructor
  · rintro ⟨hlt, hthr⟩
    have hdist := toNat_mark_sub (w := 32) (b := 0) hlt.le (by omega)
    omega
  · intro hthr
    have hlt : x < m := by omega
    have hdist := toNat_mark_sub (w := 32) (b := 0) hlt.le (by omega)
    refine ⟨hlt, ?_⟩
    omega

/-! ### The baselines -/

lemma baseline_account (c : ConnTrack) (seg : Segment) (own dir : Direction) :
    (c.account seg own).baseline dir =
      if dir = own then some (advanceBaseline (c.baseline dir) seg.seq) else c.baseline dir := by
  cases own <;> cases dir <;> rfl

lemma baseline_applyState (c : ConnTrack) (seg : Segment) (own dir : Direction) :
    (c.applyState seg own).baseline dir = c.baseline dir := by
  obtain ⟨s, f, g, h⟩ := applyState_frame c seg own
  rw [h]
  cases dir <;> rfl

lemma baseline_accounted (c : ConnTrack) (seg : Segment) (dir : Direction) :
    (accounted c seg).baseline dir =
      if dir = c.directionOf seg.flow.source then
        some (advanceBaseline (c.baseline dir) seg.seq)
      else c.baseline dir := by
  rw [accounted, baseline_applyState, baseline_account]

lemma baseline_freshTrack (id : ConnId) (seg : Segment) (dir : Direction) :
    (freshTrack id seg).baseline dir =
      if dir = (freshTrack id seg).directionOf seg.flow.source then some seg.seq else none := by
  have hmark (c : ConnTrack) (own : Direction) : (c.markFin own).baseline dir = c.baseline dir := by
    cases own <;> cases dir <;> rfl
  have hblank : (blankTrack id seg).baseline dir = none := by
    cases dir <;> rfl
  have hdir : (freshTrack id seg).directionOf seg.flow.source
      = (blankTrack id seg).directionOf seg.flow.source := by
    unfold ConnTrack.directionOf
    rw [origin_freshTrack]
  have hbase : (freshTrack id seg).baseline dir = ((blankTrack id seg).account seg
      ((blankTrack id seg).directionOf seg.flow.source)).baseline dir := by
    unfold freshTrack
    simp only
    split
    · exact hmark _ _
    · rfl
  rw [hbase, baseline_account, hdir, hblank]
  rfl

lemma wire_accounted (c : ConnTrack) (seg : Segment) (dir : Direction) (l : List Segment) :
    wire (accounted c seg) dir l = wire c dir l := by
  unfold wire
  rw [directionOf_accounted]

lemma wire_snoc (c : ConnTrack) (dir : Direction) (l : List Segment) (seg : Segment) :
    wire c dir (l ++ [seg]) =
      wire c dir l ++ if dir = c.directionOf seg.flow.source then [seg.seq] else [] := by
  unfold wire
  by_cases h : dir = c.directionOf seg.flow.source
  · simp [h]
  · simp [h, Ne.symm h]

lemma onCore_based : OnCore Based := fun _ _ => Iff.rfl

/-- A fresh instance. -/
lemma based_fresh (id : ConnId) (seg : Segment) : Based (freshTrack id seg) [seg] := by
  intro dir xs htr
  rw [← List.nil_append [seg], wire_snoc] at htr
  rw [baseline_freshTrack]
  split at htr
  · next hdir =>
      obtain ⟨ys, x, rfl, hys, hx, -⟩ := htr.of_snoc
      obtain rfl : ys = [] := List.map_eq_nil_iff.mp hys.words.symm
      rw [if_pos hdir, hx]
      rfl
  · next hdir =>
      obtain rfl : xs = [] := List.map_eq_nil_iff.mp htr.words.symm
      rw [if_neg hdir]
      rfl

/-- **One segment** moves the running maximum, and the baseline with it. -/
lemma based_join (h : Based c l) : Based (accounted c seg) (l ++ [seg]) := by
  intro dir xs htr
  rw [wire_accounted, wire_snoc] at htr
  rw [baseline_accounted]
  split at htr
  · next hdir =>
      obtain ⟨ys, x, rfl, hys, hx, hnear⟩ := htr.of_snoc
      rw [if_pos hdir, h dir ys hys, hx, max?_concat]
      cases hm : ys.max? with
      | none => rfl
      | some m =>
          obtain ⟨hlo, hhi⟩ := hnear m hm
          exact congrArg some (advanceBaseline_mark (by omega) (by omega))
  · next hdir =>
      rw [List.append_nil] at htr
      rw [if_neg hdir]
      exact h dir xs htr

/-! ### Opening -/

/-- Only a segment that joins no instance opens one. -/
lemma opens_iff (hi : Indexed t.life) : Opens cfg t seg ↔ t.joins cfg seg = none := by
  have hids : Opens cfg t seg ↔
      t.nextId seg.pair ∈ (t.observe cfg (.segment seg)).life.conns.map ConnTrack.id := by
    simp [Opens, Tracker.life, core]
  have hold : t.nextId seg.pair ∉ t.life.conns.map ConnTrack.id := by
    intro hmem
    obtain ⟨d, hd, hid⟩ := List.mem_map.mp hmem
    obtain ⟨e, he, rfl⟩ := List.mem_map.mp hd
    exact nextId_ne hi he seg.pair hid.symm
  rw [hids, life_observe]
  cases hj : t.joins cfg seg with
  | some i =>
      rw [Life.observe_join ((joins_life t seg).trans hj), map_id_modify]
      simpa using hold
  | none =>
      rw [Life.observe_open ((joins_life t seg).trans hj)]
      simp [Life.opened, Tracker.nextId]

/-- Among segments of a pair with a live instance, the split rule decides. -/
lemma joins_none_iff {i : ℕ} (hlive : t.live seg.pair = some i) (hc : t.conns[i]? = some c) :
    t.joins cfg seg = none ↔ shouldSplit cfg c seg = true := by
  simp [Tracker.joins, hlive, hc]

/-- The split rule for a segment that is no bare SYN, at the offset `x`. -/
lemma shouldSplit_iff (hsyn : isBareSyn seg.flags = false) {m : Option ℤ} {x : ℤ}
    (hbase : c.baseline (c.directionOf seg.flow.source) = m.map (mark 0))
    (hx : seg.seq = mark 0 x) (hnear : ∀ y ∈ m, y - 2 ^ 31 < x ∧ x < y + 2 ^ 31) :
    shouldSplit cfg c seg = true ↔
      c.state = .established ∧ ∃ y ∈ m, (cfg.resetThreshold.toNat : ℤ) < y - x := by
  unfold shouldSplit
  rw [if_neg (by rw [hsyn]; simp), hbase, hx]
  by_cases hs : c.state = .established
  · rw [if_pos hs]
    cases m with
    | none => simp
    | some y =>
        obtain ⟨hlo, hhi⟩ := hnear y rfl
        simp only [Option.map_some]
        rw [isBackwardReset_mark (by omega) (by omega)]
        simp [hs]
  · rw [if_neg hs]
    simp [hs]

/-- **Exact splits, over any number of wraps.** After every run, behind any offsets of a
direction's segments that stay within half a cycle of the running maximum, the baseline is
that maximum modulo `2 ^ 32`; and a segment that is no bare SYN, of a pair with a live
instance, opens a new one exactly if the live one is established, the direction has a
baseline, and the segment lies further behind the maximum than the threshold. -/
theorem split_exact (cfg : EngineConfig) (items : List Item) :
    (∀ c ∈ (ledger cfg items).tracker.conns, ∀ dir xs,
      Traces (wire c dir ((ledger cfg items).entries c.id)) xs →
        c.baseline dir = xs.max?.map (mark 0)) ∧
    ∀ seg i c, isBareSyn seg.flags = false →
      (ledger cfg items).tracker.live seg.pair = some i →
      (ledger cfg items).tracker.conns[i]? = some c →
      ∀ xs x,
        Traces (wire c (c.directionOf seg.flow.source) ((ledger cfg items).entries c.id)) xs →
        seg.seq = mark 0 x → (∀ m ∈ xs.max?, m - 2 ^ 31 < x ∧ x < m + 2 ^ 31) →
        (Opens cfg (ledger cfg items).tracker seg ↔
          c.state = .established ∧ ∃ m ∈ xs.max?, (cfg.resetThreshold.toNat : ℤ) < m - x) := by
  have hbased : Everywhere Based (ledger cfg items) :=
    everywhere_ledger onCore_based based_fresh (fun _ _ _ h => based_join h) items
  refine ⟨hbased, fun seg i c hsyn hlive hc xs x htr hx hnear => ?_⟩
  rw [opens_iff (indexed_ledger cfg items), joins_none_iff hlive hc]
  exact shouldSplit_iff hsyn (hbased c (List.mem_of_getElem? hc) _ xs htr) hx hnear

/-- A flow taken up in the middle, 10 before the wrap, that goes on 90 past it. -/
def wrapped : List Item :=
  [.segment (.between 1 2 0 TcpFlags.ACK (mark 0 (2 ^ 32 - 10)) 100),
    .segment (.between 1 2 1 TcpFlags.ACK (mark 0 (2 ^ 32 + 90)) 100)]

/-- Its next segment, at the offset `x`. -/
def wrappedNext (x : ℤ) : Segment := .between 1 2 2 TcpFlags.ACK (mark 0 x) 9

/-- The one connection it opens. -/
def wrappedTrack : ConnTrack :=
  (ledger {} wrapped).tracker.conns.headD (freshTrack ⟨(wrappedNext 0).pair, 0⟩ (wrappedNext 0))

/-- A retransmission from before the wrap joins the flow, a number 1200000000 behind starts
anew. -/
theorem split_exact_wrapped :
    ¬ Opens {} (ledger {} wrapped).tracker (wrappedNext (2 ^ 32 - 10)) ∧
      Opens {} (ledger {} wrapped).tracker (wrappedNext (2 ^ 32 + 90 - 1200000000)) := by
  have hc : (ledger {} wrapped).tracker.conns[0]? = some wrappedTrack := by decide +kernel
  have hwire : wire wrappedTrack .originToResponder ((ledger {} wrapped).entries wrappedTrack.id)
      = [mark 0 (2 ^ 32 - 10), mark 0 (2 ^ 32 + 90)] := by decide +kernel
  have hstate : wrappedTrack.state = .established := by decide +kernel
  have htr : Traces (w := 32) [mark 0 (2 ^ 32 - 10), mark 0 (2 ^ 32 + 90)]
      [2 ^ 32 - 10, 2 ^ 32 + 90] := (traces_nil.snoc (by simp)).snoc (by simp)
  rw [← hwire] at htr
  constructor
  · rw [(split_exact {} wrapped).2 (wrappedNext (2 ^ 32 - 10)) 0 wrappedTrack (by decide)
      (by decide +kernel) hc _ (2 ^ 32 - 10) htr rfl (by simp)]
    simp
  · rw [(split_exact {} wrapped).2 (wrappedNext (2 ^ 32 + 90 - 1200000000)) 0 wrappedTrack
      (by decide) (by decide +kernel) hc _ (2 ^ 32 + 90 - 1200000000) htr rfl (by simp)]
    exact ⟨hstate, 2 ^ 32 + 90, by simp, by decide⟩

end TcpVisr.Wraps
