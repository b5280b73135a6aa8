import TcpVisr.History
import TcpVisr.Kept

/-!
Seeking in a replay.

On a capture in time order, what the timeline says at a cursor is what a fresh tracker would
say that had read the capture up to the cursor. On a capture out of time order the timeline
resolves by capture time, and is monotone on every connection whose lifecycle changes in
time order.
-/

namespace TcpVisr.Seek

open Lib.AsOf Slots Plan Lifecycle Index Steps States Queries History Kept

variable {cfg : EngineConfig} {items : List Item}

/-- The items up to the cursor. -/
def upTo (T : Nanos) (items : List Item) : List Item :=
  items.filter fun x => decide (x.ts.ns ≤ T.ns)

/-- Opened by `T`, and still open or active at `T` or later. -/
def listedAt (T : Nanos) (c : ConnTrack) : Bool :=
  decide (c.openedAt.ns ≤ T.ns) && (!c.state.terminal || decide (T.ns ≤ c.lastAt.ns))

lemma upTo_snoc_of_le {p : List Item} {x : Item} {T : Nanos}
    (hord : (p ++ [x]).Pairwise fun a b => a.ts.ns ≤ b.ts.ns) (hx : x.ts.ns ≤ T.ns) :
    upTo T (p ++ [x]) = p ++ [x] := by
  refine List.filter_eq_self.mpr fun y hy => ?_
  rcases List.mem_append.mp hy with hy | hy
  · have := (List.pairwise_append.mp hord).2.2 y hy x (by simp)
    simpa using this.trans hx
  · rw [List.mem_singleton.mp hy]
    simpa using hx

lemma upTo_snoc_of_lt {p : List Item} {x : Item} {T : Nanos} (hx : T.ns < x.ts.ns) :
    upTo T (p ++ [x]) = upTo T p := by
  have : ¬ x.ts.ns ≤ T.ns := by omega
  simp [upTo, List.filter_append, this]

/-- When no item is past `T`, the last snapshot at or before `T` is the current one. -/
lemma asOf_eq_current (hw : cfg.retention.window = none) (hc : cfg.collectStateTimeline = true)
    (ho : (Tracker.track cfg items).overflowed = false) {T : Nanos}
    (hT : ∀ x ∈ items, x.ts.ns ≤ T.ns) {c : ConnTrack}
    (hmem : c ∈ (Tracker.track cfg items).conns) :
    ∃ a, asOf (fun s : StateSample => s.t.ns) T.ns c.kept.states = some (c.snapshot a) := by
  have hch := chronicle_track hw hc ho c hmem
  obtain ⟨a, ha⟩ := hch.last
  have hnow : c.lastAt.ns ≤ T.ns := (sound_track cfg items c hmem).last.trans (now_le hT)
  refine ⟨a, ?_⟩
  rw [asOf_eq_getLast? fun s hs => (hch.below s hs).trans hnow, ha]

/-- The last snapshot at or before `T` is the current one of the tracker that read the items
up to `T`. -/
lemma asOf_eq_replay (hw : cfg.retention.window = none) (hc : cfg.collectStateTimeline = true)
    (hord : items.Pairwise fun a b => a.ts.ns ≤ b.ts.ns)
    (ho : (Tracker.track cfg items).overflowed = false) (T : Nanos) :
    ∀ c ∈ (Tracker.track cfg items).conns, c.openedAt.ns ≤ T.ns →
      ∃ d a, (Tracker.track cfg (upTo T items)).find c.id = some d ∧
        asOf (fun s : StateSample => s.t.ns) T.ns c.kept.states = some (d.snapshot a) := by
  induction items using List.reverseRecOn with
  | nil => simp [Tracker.new]
  | append_singleton p x ih =>
      intro c hmem hopened
      by_cases hx : x.ts.ns ≤ T.ns
      · -- Everything is at or before the cursor: both runs are the same one.
        have hT : ∀ y ∈ p ++ [x], y.ts.ns ≤ T.ns := by
          intro y hy
          rw [← upTo_snoc_of_le hord hx] at hy
          simpa using (List.mem_filter.mp hy).2
        obtain ⟨a, ha⟩ := asOf_eq_current hw hc ho hT hmem
        rw [upTo_snoc_of_le hord hx]
        exact ⟨c, a, find_of_mem (indexed_track _ _) hmem, ha⟩
      · -- The item is past the cursor: the shorter run does not read it.
        have hx' : T.ns < x.ts.ns := by omega
        rw [upTo_snoc_of_lt hx']
        have hb := (counted_track cfg p).balance
        rw [Tracker.track_snoc] at ho hmem
        have ih' := ih (List.pairwise_append.mp hord).1
          (not_overflowed (indexed_track cfg p) hb hw x ho)
        cases told_of_mem hb hw hc ho c hmem with
        | same hc₀ => exact ih' c hc₀ hopened
        | @more seg c₀ _ hc₀ hd hs =>
            have hid := (eq_of_core ConnTrack.id hd).trans (accounted_id c₀ seg)
            have hopen := (eq_of_core ConnTrack.openedAt hd).trans (accounted_openedAt c₀ seg)
            rw [hid, hs, asOf_append_later fun s hmem => ?_]
            · exact ih' c₀ hc₀ (hopen ▸ hopened)
            · rw [List.mem_singleton.mp hmem]
              exact hx'
        | @fresh seg _ hd hs =>
            have hopen := (eq_of_core ConnTrack.openedAt hd).trans (openedAt_freshTrack _ seg)
            rw [hopen] at hopened
            exact absurd hopened hx

/-- A finished timeline is the one of a run that did not overflow. -/
lemma timeline_of_ok {t : Tracker} {tl : Timeline} (h : t.intoTimeline cfg = .ok tl) :
    t.overflowed = false ∧ tl = Timeline.withSeq (t.conns.map ConnTrack.connSeries) := by
  unfold Tracker.intoTimeline at h
  split at h
  · simp at h
  · next ho => exact ⟨by simpa using ho, (Except.ok.inj h).symm⟩

lemma ok_of_not_overflowed {t : Tracker} (h : t.overflowed = false) :
    t.intoTimeline cfg = .ok (Timeline.withSeq (t.conns.map ConnTrack.connSeries)) := by
  simp [Tracker.intoTimeline, h]

lemma activeTrack_eq_listedAt {finish T : Nanos} (hT : T.ns ≤ finish.ns) :
    activeTrack finish T = listedAt T := by
  funext c
  unfold activeTrack listedAt
  cases c.state.terminal <;> simp [hT]

/-- **Seek equals prefix replay.** On a capture in time order, the resolution at `T` lists
the connections opened by `T` that are still open or active at `T` or later, each with the
state and the byte counts it has in a fresh tracker fed the items up to `T`. -/
theorem seek_eq_replay {m : ℕ} (hr : cfg.retention = .failFast m)
    (hc : cfg.collectStateTimeline = true)
    (hord : items.Pairwise fun a b => a.ts.ns ≤ b.ts.ns) {tl : Timeline}
    (htl : (Tracker.track cfg items).intoTimeline cfg = .ok tl) {T : Nanos}
    (hT : T.ns ≤ tl.finish.ns) :
    (tl.resolveAt T).map AsOf.id =
        ((Tracker.track cfg items).conns.filter (listedAt T)).map ConnTrack.id ∧
      ∀ a ∈ tl.resolveAt T, ∃ d, (Tracker.track cfg (upTo T items)).find a.id = some d ∧
        a.state = d.state ∧ a.bytesO2r = d.bytesO2r ∧ a.bytesR2o = d.bytesR2o := by
  have hw : cfg.retention.window = none := by rw [hr]; rfl
  obtain ⟨ho, rfl⟩ := timeline_of_ok htl
  have hres : ∀ c ∈ (Tracker.track cfg items).conns, listedAt T c = true →
      ∃ d a, (Tracker.track cfg (upTo T items)).find c.id = some d ∧
        resolved T c = some ⟨c.id, (d.snapshot a).state, (d.snapshot a).bytesO2r,
          (d.snapshot a).bytesR2o⟩ := by
    intro c hmem hlisted
    have hopened : c.openedAt.ns ≤ T.ns := by
      simp only [listedAt, Bool.and_eq_true, decide_eq_true_eq] at hlisted
      exact hlisted.1
    obtain ⟨d, a, hd, ha⟩ := asOf_eq_replay hw hc hord ho T c hmem hopened
    refine ⟨d, a, hd, ?_⟩
    rw [resolved, sortByTime_eq_self (inTime_track hord c hmem).states.1, ha, Option.map_some]
  rw [resolveAt_replayed, activeTrack_eq_listedAt hT]
  refine ⟨map_filterMap_resolved fun c hmem => ?_, fun a ha => ?_⟩
  · obtain ⟨hmem, hlisted⟩ := List.mem_filter.mp hmem
    obtain ⟨d, a, -, h⟩ := hres c hmem hlisted
    rw [h]
    rfl
  · obtain ⟨c, hmem, hca⟩ := List.mem_filterMap.mp ha
    obtain ⟨hmem, hlisted⟩ := List.mem_filter.mp hmem
    obtain ⟨d, b, hd, h⟩ := hres c hmem hlisted
    obtain rfl := Option.some.inj (h.symm.trans hca)
    exact ⟨d, hd, rfl, rfl, rfl⟩

/-- A fail-fast configuration that records lifecycle snapshots. -/
def replayConfig : EngineConfig where
  retention := .failFast 100
  collectStateTimeline := true

/-- A handshake, some data, and a reset. -/
def session : List Item :=
  [.segment (.between 1 2 0 TcpFlags.SYN 100),
    .segment (.between 2 1 10 (TcpFlags.SYN ||| TcpFlags.ACK) 300),
    .segment (.between 1 2 20 TcpFlags.ACK 101 40), .segment (.between 1 2 40 TcpFlags.RST 141)]

theorem seek_eq_replay_session :
    let tl := Timeline.withSeq ((Tracker.track replayConfig session).conns.map ConnTrack.connSeries)
    (tl.resolveAt (Nanos.sat 25)).map AsOf.id =
        ((Tracker.track replayConfig session).conns.filter (listedAt (Nanos.sat 25))).map
          ConnTrack.id ∧
      ∀ a ∈ tl.resolveAt (Nanos.sat 25),
        ∃ d, (Tracker.track replayConfig (upTo (Nanos.sat 25) session)).find a.id = some d ∧
          a.state = d.state ∧ a.bytesO2r = d.bytesO2r ∧ a.bytesR2o = d.bytesR2o :=
  seek_eq_replay (m := 100) rfl rfl (by decide) (ok_of_not_overflowed (by decide +kernel))
    (by decide +kernel)

/-! ### Captures out of time order -/

/-- No snapshot carries an earlier time than a differing one recorded before it. -/
def InOrder (c : ConnTrack) : Prop :=
  c.kept.states.Pairwise fun a b => b.t.ns < a.t.ns →
    a.state = b.state ∧ a.bytesO2r = b.bytesO2r ∧ a.bytesR2o = b.bytesR2o

instance (c : ConnTrack) : Decidable (InOrder c) := inferInstanceAs (Decidable (List.Pairwise _ _))

/-- Every connection of a capture in time order is in order. -/
lemma inOrder_of_sorted (hord : items.Pairwise fun a b => a.ts.ns ≤ b.ts.ns) :
    ∀ c ∈ (Tracker.track cfg items).conns, InOrder c := fun c hmem =>
  (inTime_track hord c hmem).states.1.imp fun hle hlt => absurd hlt (by omega)

/-- Along the series sorted by time nothing goes down. -/
lemma pairwise_sorted_states {c : ConnTrack} (hch : Chronicle c) (hin : InOrder c) :
    (sortByTime StateSample.t c.kept.states).Pairwise NoLess := by
  refine pairwise_sorted (fun s : StateSample => s.t.ns) ?_
  refine (hch.grows.and hin).imp fun h => ⟨h.1, fun hlt => ?_⟩
  obtain ⟨h1, h2, h3⟩ := h.2 hlt
  exact ⟨h1 ▸ le_rfl, h2 ▸ le_rfl, h3 ▸ le_rfl⟩

/-- The last snapshot in time order is the connection's current state. -/
lemma resolved_finish {c : ConnTrack} (hch : Chronicle c) (hin : InOrder c) {T : Nanos}
    (hT : c.lastAt.ns ≤ T.ns) :
    resolved T c = some ⟨c.id, c.state, c.bytesO2r, c.bytesR2o⟩ := by
  obtain ⟨a, ha⟩ := hch.last
  have hperm := sortByTime_perm StateSample.t c.kept.states
  have hmem := hperm.mem_iff.mpr (List.mem_of_getLast? ha)
  obtain ⟨z, hz⟩ : ∃ z, (sortByTime StateSample.t c.kept.states).getLast? = some z :=
    Option.isSome_iff_exists.mp (List.getLast?_isSome.mpr (List.ne_nil_of_mem hmem))
  have hle : NoLess (c.snapshot a) z :=
    rel_getLast? NoLess.refl (pairwise_sorted_states hch hin) hmem hz
  have hge := hch.noLess a z (hperm.mem_iff.mp (List.mem_of_getLast? hz))
  obtain ⟨h1, h2, h3⟩ := hge.antisymm hle
  have hall : ∀ s ∈ sortByTime StateSample.t c.kept.states, s.t.ns ≤ T.ns := fun s hs =>
    (hch.below s (hperm.mem_iff.mp hs)).trans hT
  rw [resolved, asOf_eq_getLast? hall, hz, Option.map_some, h1, h2, h3]
  rfl

/-- What is listed under the identity of a tracked connection is what it resolves to. -/
lemma resolved_of_listed {c : ConnTrack} (hmem : c ∈ (Tracker.track cfg items).conns)
    {T : Nanos} {a : AsOf} (ha : a ∈ (Timeline.withSeq ((Tracker.track cfg items).conns.map
      ConnTrack.connSeries)).resolveAt T) (hid : a.id = c.id) : resolved T c = some a := by
  rw [resolveAt_replayed] at ha
  obtain ⟨d, hd, hda⟩ := List.mem_filterMap.mp ha
  have hdmem := (List.mem_filter.mp hd).1
  have hdid : d.id = c.id := by
    obtain ⟨s, -, rfl⟩ := Option.map_eq_some_iff.mp hda
    exact hid
  have hfind := find_of_mem (indexed_track cfg items) hdmem
  rw [hdid, find_of_mem (indexed_track cfg items) hmem] at hfind
  rwa [Option.some.inj hfind]

/-- **As-of-T state is monotone and lands on the final totals**, for every connection whose
snapshots are in order, whatever the order of all other items. -/
theorem resolved_monotone {m : ℕ} (hr : cfg.retention = .failFast m)
    (hc : cfg.collectStateTimeline = true) {tl : Timeline}
    (htl : (Tracker.track cfg items).intoTimeline cfg = .ok tl) {c : ConnTrack}
    (hmem : c ∈ (Tracker.track cfg items).conns) (hin : InOrder c) :
    (∀ T₁ T₂ a₁ a₂, T₁.ns ≤ T₂.ns → a₁ ∈ tl.resolveAt T₁ → a₂ ∈ tl.resolveAt T₂ →
        a₁.id = c.id → a₂.id = c.id →
        a₁.state.rank ≤ a₂.state.rank ∧ a₁.bytesO2r ≤ a₂.bytesO2r ∧
          a₁.bytesR2o ≤ a₂.bytesR2o) ∧
      (c.state.terminal = false →
        ∀ a, (a ∈ tl.resolveAt tl.finish ∧ a.id = c.id) ↔
          a = ⟨c.id, c.state, c.bytesO2r, c.bytesR2o⟩) := by
  have hw : cfg.retention.window = none := by rw [hr]; rfl
  obtain ⟨ho, rfl⟩ := timeline_of_ok htl
  have hch := chronicle_track hw hc ho c hmem
  have hfinish : c.lastAt.ns ≤
      (Timeline.withSeq ((Tracker.track cfg items).conns.map ConnTrack.connSeries)).finish.ns :=
    le_maxTime (List.mem_map_of_mem (List.mem_map_of_mem hmem))
  constructor
  · intro T₁ T₂ a₁ a₂ hT h₁ h₂ hid₁ hid₂
    obtain ⟨s₁, hs₁, rfl⟩ := Option.map_eq_some_iff.mp (resolved_of_listed hmem h₁ hid₁)
    obtain ⟨s₂, hs₂, rfl⟩ := Option.map_eq_some_iff.mp (resolved_of_listed hmem h₂ hid₂)
    exact asOf_mono NoLess.refl (pairwise_sorted_states hch hin) hT hs₁ hs₂
  · intro hopen a
    have hfin := resolved_finish hch hin hfinish
    constructor
    · rintro ⟨ha, hid⟩
      exact Option.some.inj ((resolved_of_listed hmem ha hid).symm.trans hfin)
    · rintro rfl
      refine ⟨?_, rfl⟩
      rw [resolveAt_replayed]
      refine List.mem_filterMap.mpr ⟨c, List.mem_filter.mpr ⟨hmem, ?_⟩, hfin⟩
      have hopened := (sound_track cfg items c hmem).opened.trans hfinish
      simp [activeTrack, hopen, hopened]

/-- A segment of another connection arrives with an earlier time. -/
def crossed : List Item :=
  [.segment (.between 1 2 10 TcpFlags.ACK 100 10), .segment (.between 3 4 5 TcpFlags.ACK 700 7),
    .segment (.between 1 2 20 TcpFlags.ACK 110 20)]

theorem resolved_monotone_crossed :
    let tl := Timeline.withSeq ((Tracker.track replayConfig crossed).conns.map ConnTrack.connSeries)
    ∃ c ∈ (Tracker.track replayConfig crossed).conns, InOrder c ∧
      (∀ T₁ T₂ a₁ a₂, T₁.ns ≤ T₂.ns → a₁ ∈ tl.resolveAt T₁ → a₂ ∈ tl.resolveAt T₂ →
        a₁.id = c.id → a₂.id = c.id →
        a₁.state.rank ≤ a₂.state.rank ∧ a₁.bytesO2r ≤ a₂.bytesO2r ∧
          a₁.bytesR2o ≤ a₂.bytesR2o) ∧
      (c.state.terminal = false →
        ∀ a, (a ∈ tl.resolveAt tl.finish ∧ a.id = c.id) ↔
          a = ⟨c.id, c.state, c.bytesO2r, c.bytesR2o⟩) := by
  obtain ⟨c, hmem, hin⟩ : ∃ c ∈ (Tracker.track replayConfig crossed).conns, InOrder c := by
    decide +kernel
  exact ⟨c, hmem, hin, resolved_monotone (m := 100) rfl rfl
    (ok_of_not_overflowed (by decide +kernel)) hmem hin⟩

/-- Three data segments, the last one stamped before the second. -/
def reordered : List Item :=
  [.segment (.between 1 2 1 TcpFlags.ACK 100 10), .segment (.between 1 2 5 TcpFlags.ACK 110 20),
    .segment (.between 1 2 3 TcpFlags.ACK 130 30)]

/-- As of 3 the connection has sent 60 bytes, as of 5 it has sent 30. -/
theorem not_monotone :
    ¬ ∀ (cfg : EngineConfig) (m : ℕ) (items : List Item) (tl : Timeline),
      cfg.retention = .failFast m → cfg.collectStateTimeline = true →
      (Tracker.track cfg items).intoTimeline cfg = .ok tl →
      ∀ c ∈ (Tracker.track cfg items).conns, ∀ T₁ T₂ a₁ a₂, T₁.ns ≤ T₂.ns →
        a₁ ∈ tl.resolveAt T₁ → a₂ ∈ tl.resolveAt T₂ → a₁.id = c.id → a₂.id = c.id →
        a₁.state.rank ≤ a₂.state.rank ∧ a₁.bytesO2r ≤ a₂.bytesO2r ∧
          a₁.bytesR2o ≤ a₂.bytesR2o := by
  intro h
  have hex : ∃ c ∈ (Tracker.track replayConfig reordered).conns,
      (⟨c.id, .established, 60, 0⟩ : AsOf) ∈ (Timeline.withSeq
        ((Tracker.track replayConfig reordered).conns.map ConnTrack.connSeries)).resolveAt
          (Nanos.sat 3) ∧
      (⟨c.id, .established, 30, 0⟩ : AsOf) ∈ (Timeline.withSeq
        ((Tracker.track replayConfig reordered).conns.map ConnTrack.connSeries)).resolveAt
          (Nanos.sat 5) := by
    decide +kernel
  obtain ⟨c, hmem, h₁, h₂⟩ := hex
  have ho : (Tracker.track replayConfig reordered).overflowed = false := by decide +kernel
  have hgrow := h replayConfig 100 reordered _ rfl rfl (ok_of_not_overflowed ho) c hmem
  have hle : 60 ≤ 30 := (hgrow _ _ _ _ (by decide) h₁ h₂ rfl rfl).2.1
  exact absurd hle (by decide)

end TcpVisr.Seek
