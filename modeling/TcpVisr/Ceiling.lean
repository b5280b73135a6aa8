import TcpVisr.Forgetting
import TcpVisr.History

/-!
Replays and their ceiling.

Under fail-fast a run is a replay that has no ceiling, up to the first sample past the
ceiling; from there on it is marked overflowed and keeps no more than the ceiling allows.
What a replay without a ceiling collects does not depend on the ceiling, so it settles which
ceilings suffice.
-/

namespace TcpVisr.Ceiling

open Lib.Runs Recording Slots Plan Passes Lifecycle Index Steps Appending Forgetting History

/-- A count that never passes the ceiling, and stands at it once the flag is set. -/
structure Capped (cfg : EngineConfig) (n : ℕ) (o : Bool) : Prop where
  within : n ≤ cfg.retention.maxSamples
  full : o = true → n = cfg.retention.maxSamples

variable {cfg : EngineConfig} {s : Slot} {t u : Tracker} {seg : Segment} {m : ℕ}

/-! ### Refusing at the ceiling -/

lemma capped_record (hw : cfg.retention.window = none)
    (h : Capped cfg s.collectedSamples s.overflowed) (x : Sample) :
    Capped cfg (s.record cfg x).collectedSamples (s.record cfg x).overflowed := by
  unfold Slot.record
  split
  · exact h
  · next ho =>
      have hc := store_cases cfg s x
      generalize s.store cfg x = s' at hc
      cases hc with
      | room hn => exact ⟨hn, fun hs => absurd hs ho⟩
      | swap _ hw' _ _ _ => simp [hw] at hw'
      | spill _ hw' _ => simp [hw] at hw'
      | refuse hn _ => exact ⟨h.within, fun _ => le_antisymm h.within hn⟩

lemma capped_recordAll (hw : cfg.retention.window = none) (xs : List Sample)
    (h : Capped cfg s.collectedSamples s.overflowed) :
    Capped cfg (recordAll cfg xs s).collectedSamples (recordAll cfg xs s).overflowed := by
  induction xs generalizing s with
  | nil => exact h
  | cons x xs ih => exact ih (capped_record hw h x)

lemma capped_collectSeqPoints (hw : cfg.retention.window = none)
    (h : Capped cfg s.collectedSamples s.overflowed) (dir : Direction) (sample : MetricSample) :
    Capped cfg (s.collectSeqPoints cfg seg dir sample).collectedSamples
      (s.collectSeqPoints cfg seg dir sample).overflowed := by
  cases ho : s.overflowed with
  | true => simpa [Slot.collectSeqPoints, ho] using h
  | false =>
      rw [collectSeqPoints_eq seg dir sample ho]
      exact capped_recordAll hw _ h

lemma capped_collectRttPoints (hw : cfg.retention.window = none)
    (h : Capped cfg s.collectedSamples s.overflowed) (sample : MetricSample) :
    Capped cfg (s.collectRttPoints cfg sample).collectedSamples
      (s.collectRttPoints cfg sample).overflowed := by
  cases ho : s.overflowed with
  | true => simpa [Slot.collectRttPoints, ho] using h
  | false =>
      rw [collectRttPoints_eq sample ho]
      exact capped_recordAll hw _ h

lemma capped_recordSample (hw : cfg.retention.window = none) (ho : s.overflowed = false)
    (h : Capped cfg s.collectedSamples s.overflowed) (sample : MetricSample) :
    Capped cfg (s.recordSample cfg sample).collectedSamples
      (s.recordSample cfg sample).overflowed := by
  unfold Slot.recordSample
  split
  · exact h
  · have hr := capped_record hw h (.metric sample)
    rwa [Slot.record, if_neg (by simp [ho])] at hr

lemma capped_derive (hw : cfg.retention.window = none)
    (h : Capped cfg s.collectedSamples s.overflowed) (seg : Segment) (dir : Direction) :
    Capped cfg (s.derive cfg seg dir).collectedSamples (s.derive cfg seg dir).overflowed := by
  cases hwants : s.wantsDerivation cfg with
  | false => rw [Slot.derive, if_neg (by simp [hwants])]; exact h
  | true =>
      have ho : s.overflowed = false := by
        rw [Slot.wantsDerivation, Bool.and_eq_true, Bool.not_eq_true'] at hwants
        exact hwants.1
      obtain ⟨s₂, hs₂, hd⟩ := derive_of_wants s seg dir hwants
      have h₂ : Capped cfg s₂.collectedSamples s₂.overflowed := by
        rw [hs₂]
        split
        · apply capped_recordSample hw
          exacts [ho, h]
        · exact h
      rw [hd, collectThroughputAt_eq]
      apply capped_recordAll hw
      apply capped_collectRttPoints hw
      rw [collectInflightAt_eq]
      apply capped_recordAll hw
      exact capped_collectSeqPoints hw h₂ dir _

lemma capped_noteState (hw : cfg.retention.window = none)
    (h : Capped cfg s.collectedSamples s.overflowed) (t : Nanos) :
    Capped cfg (s.noteState cfg t).collectedSamples (s.noteState cfg t).overflowed := by
  rw [noteState_eq]
  exact capped_recordAll hw _ h

lemma capped_join (hw : cfg.retention.window = none)
    (h : Capped cfg s.collectedSamples s.overflowed) (seg : Segment) :
    Capped cfg (s.join cfg seg).collectedSamples (s.join cfg seg).overflowed :=
  capped_derive hw
    (capped_noteState (s := { s with track := accounted s.track seg }) hw h seg.ts) seg _

lemma capped_found (hw : cfg.retention.window = none)
    (h : Capped cfg s.collectedSamples s.overflowed) (seg : Segment) :
    Capped cfg (s.found cfg seg).collectedSamples (s.found cfg seg).overflowed :=
  capped_noteState hw (capped_derive hw h seg _) seg.ts

/-- A segment whose samples do not all fit overflows. -/
lemma overflowed_join_of_spills (hw : cfg.retention.window = none)
    (h : Capped cfg s.collectedSamples s.overflowed)
    (hn : cfg.retention.maxSamples < s.collectedSamples + (joinPlan cfg s.track seg).2.length) :
    (s.join cfg seg).overflowed = true := by
  by_contra ho
  rw [Bool.not_eq_true] at ho
  have hcap := (capped_join hw h seg).within
  have heq := join_eq (Or.inl ho)
  rw [heq, recordAll_rederive, rederive_overflowed] at ho
  rw [heq, recordAll_rederive, rederive_collected, recordAll_of_not_overflowed hw ho,
    put_collected] at hcap
  exact absurd hcap (not_le.mpr hn)

lemma overflowed_found_of_spills (hw : cfg.retention.window = none)
    (h : Capped cfg s.collectedSamples s.overflowed)
    (hn : cfg.retention.maxSamples < s.collectedSamples + (foundPlan cfg s.track seg).2.length) :
    (s.found cfg seg).overflowed = true := by
  by_contra ho
  rw [Bool.not_eq_true] at ho
  have hcap := (capped_found hw h seg).within
  have heq := found_eq ((recorded_found cfg s seg).not_overflowed ho) (Or.inl ho)
  rw [heq, recordAll_rederive, rederive_overflowed] at ho
  rw [heq, recordAll_rederive, rederive_collected, recordAll_of_not_overflowed hw ho,
    put_collected] at hcap
  exact absurd hcap (not_le.mpr hn)

/-! ### Replays without a ceiling -/

/-- One item of a replay: the lifecycle moves, and all that is asked for is appended. -/
def replayed (cfg : EngineConfig) (u : Tracker) (x : Item) : Tracker where
  conns := appended cfg u x
  live := (u.life.observe cfg x).live
  nextInstance := (u.life.observe cfg x).nextInstance
  collectedSamples := retained (appended cfg u x)
  overflowed := false
  now := (u.life.observe cfg x).now

/-- The replay of `items`. -/
def replay (cfg : EngineConfig) (items : List Item) : Tracker :=
  run (replayed cfg) Tracker.new items

@[simp] lemma replay_snoc (p : List Item) (x : Item) :
    replay cfg (p ++ [x]) = replayed cfg (replay cfg p) x := run_snoc _ _ p x

@[simp] lemma conns_replayed (u : Tracker) (x : Item) :
    (replayed cfg u x).conns = appended cfg u x := rfl

@[simp] lemma core_joined (seg : Segment) (c : ConnTrack) :
    core (joined cfg seg c) = accounted (core c) seg := core_accounted c seg

@[simp] lemma core_founded (seg : Segment) (c : ConnTrack) :
    core (founded cfg seg c) = core c := rfl

lemma appended_join {i : ℕ} (hj : t.joins cfg seg = some i) :
    appended cfg t (.segment seg) = t.conns.modify i (joined cfg seg) := by
  simp only [appended, hj]

lemma appended_create (hj : t.joins cfg seg = none) :
    appended cfg t (.segment seg) =
      t.conns ++ [founded cfg seg (freshTrack (t.nextId seg.pair) seg)] := by
  simp only [appended, hj]

lemma appended_tick (hw : cfg.retention.window = none) (at_ : Nanos) :
    appended cfg t (.tick at_) = t.conns := by
  simp [appended, hw]

/-- The lifecycle part of a replay moves as the lifecycle machine does. -/
lemma life_replayed (hw : cfg.retention.window = none) (u : Tracker) (x : Item) :
    (replayed cfg u x).life = u.life.observe cfg x := by
  have hconns : (appended cfg u x).map core = (u.life.observe cfg x).conns := by
    cases x with
    | segment seg =>
        cases hj : u.joins cfg seg with
        | some i =>
            rw [appended_join hj, Life.observe_join (joins_life u seg ▸ hj)]
            simp only [List.modify_eq_set_getElem?, Tracker.life, List.getElem?_map]
            cases u.conns[i]? <;> simp
        | none =>
            rw [appended_create hj, Life.observe_open (joins_life u seg ▸ hj), List.map_append,
              List.map_singleton, core_founded, core_freshTrack]
            rfl
    | tick at_ => rw [appended_tick hw, Life.observe_tick_failFast hw]; rfl
  simp only [Tracker.life, replayed] at hconns ⊢
  rw [hconns]

lemma life_replay (hw : cfg.retention.window = none) (items : List Item) :
    (replay cfg items).life = (Tracker.track cfg items).life := by
  rw [life_track]
  induction items using List.reverseRecOn with
  | nil => rfl
  | append_singleton p x ih => rw [replay_snoc, run_snoc, life_replayed hw, ih]

lemma retained_le_appended (hw : cfg.retention.window = none) (u : Tracker) (x : Item) :
    retained u.conns ≤ retained (appended cfg u x) := by
  cases x with
  | segment seg =>
      cases hj : u.joins cfg seg with
      | some i =>
          obtain ⟨c, hc⟩ := joins_conns hj
          rw [retained_appended_join hj hc]
          exact Nat.le_add_right _ _
      | none =>
          rw [retained_appended_create hj]
          exact Nat.le_add_right _ _
  | tick at_ => rw [appended_tick hw]

/-- How a run under the ceiling `m` stands to the replay without one. -/
inductive Stands (m : ℕ) (t u : Tracker) : Prop
  | whole (ho : t.overflowed = false) (hc : t.conns = u.conns) (hn : retained u.conns ≤ m)
  | spilled (ho : t.overflowed = true) (hm : t.collectedSamples = m) (hn : m < retained u.conns)

lemma observe_failFast (hw : cfg.retention.window = none) (t : Tracker) (x : Item) :
    t.observe cfg x = recording cfg t x := by
  cases x with
  | segment seg => simp only [Tracker.observe, Tracker.evictSamples, hw]; rfl
  | tick at_ => rw [observe_tick_failFast hw]; simp [recording, hw]

lemma appended_congr (hw : cfg.retention.window = none) (hl : t.life = u.life)
    (hc : t.conns = u.conns) (x : Item) : appended cfg t x = appended cfg u x := by
  cases x with
  | segment seg =>
      have hnext : t.nextId seg.pair = u.nextId seg.pair := by
        unfold Tracker.nextId
        rw [← life_nextInstance, hl, life_nextInstance]
      have hjoins : t.joins cfg seg = u.joins cfg seg := by
        rw [← joins_life, hl, joins_life]
      simp only [appended, hjoins, hc, hnext]
  | tick at_ => rw [appended_tick hw, appended_tick hw, hc]

lemma capped_observe (hw : cfg.retention.window = none)
    (h : Capped cfg t.collectedSamples t.overflowed) (x : Item) :
    Capped cfg (t.observe cfg x).collectedSamples (t.observe cfg x).overflowed := by
  rw [observe_failFast hw]
  cases x with
  | segment seg =>
      cases hj : t.joins cfg seg with
      | some i =>
          obtain ⟨c, hc⟩ := joins_conns hj
          rw [recording_join hj hc]
          exact capped_join (s := t.slot c) hw h seg
      | none =>
          rw [recording_create hj]
          exact capped_found (s := t.slot (freshTrack (t.nextId seg.pair) seg)) hw h seg
  | tick at_ => simpa [recording, hw] using h

lemma overflowed_of_spills (hw : cfg.retention.window = none) (hn : Counted cfg t)
    (hcap : Capped cfg t.collectedSamples t.overflowed) {x : Item}
    (h : cfg.retention.maxSamples < retained (appended cfg t x)) :
    (t.observe cfg x).overflowed = true := by
  have hb := hn.balance
  rw [observe_failFast hw]
  cases x with
  | segment seg =>
      cases hj : t.joins cfg seg with
      | some i =>
          obtain ⟨c, hc⟩ := joins_conns hj
          rw [retained_appended_join hj hc, ← hb] at h
          rw [recording_join hj hc]
          exact overflowed_join_of_spills (s := t.slot c) hw hcap h
      | none =>
          rw [retained_appended_create hj, ← hb] at h
          rw [recording_create hj]
          exact overflowed_found_of_spills (s := t.slot (freshTrack (t.nextId seg.pair) seg))
            hw hcap h
  | tick at_ =>
      rw [appended_tick hw, ← hb] at h
      exact absurd hcap.within (not_le.mpr h)

lemma stays_overflowed (hw : cfg.retention.window = none) (hi : Indexed t.life)
    (hb : t.collectedSamples = retained t.conns) (ho : t.overflowed = true) (x : Item) :
    (t.observe cfg x).overflowed = true := by
  by_contra h
  rw [not_overflowed hi hb hw x (by simpa using h)] at ho
  exact absurd ho (by simp)

lemma capped_track (hw : cfg.retention.window = none) (items : List Item) :
    Capped cfg (Tracker.track cfg items).collectedSamples
      (Tracker.track cfg items).overflowed :=
  inv_run (P := fun t : Tracker => Capped cfg t.collectedSamples t.overflowed)
    ⟨Nat.zero_le _, fun h => by simp [Tracker.new] at h⟩
    (fun _ x h => capped_observe hw h x) items

/-- **Refinement.** A fail-fast run is the replay without a ceiling while that fits, and is
marked overflowed at the ceiling from the first step on that does not. -/
theorem stands_track (cfg : EngineConfig) (hr : cfg.retention = .failFast m) (items : List Item) :
    Stands m (Tracker.track cfg items) (replay cfg items) := by
  have hw : cfg.retention.window = none := by rw [hr]; rfl
  have hm : cfg.retention.maxSamples = m := by rw [hr]; rfl
  induction items using List.reverseRecOn with
  | nil => exact .whole rfl rfl (Nat.zero_le m)
  | append_singleton p x ih =>
      have hn := counted_track cfg p
      have hcap := capped_track hw p
      have hlife := (life_replay hw p).symm
      have hmono := retained_le_appended hw (replay cfg p) x
      have hcap' := capped_observe hw hcap x
      rw [Tracker.track_snoc, replay_snoc]
      cases ih with
      | whole ho hc hfit =>
          have happ := appended_congr hw hlife hc x
          by_cases hle : retained (appended cfg (replay cfg p) x) ≤ m
          · obtain ⟨hconns, hflag⟩ := recording_of_fits hn.balance ho (x := x)
              (by rw [happ, hm]; exact hle)
            refine .whole ?_ ?_ hle
            · rw [observe_failFast hw, hflag]
            · rw [observe_failFast hw, hconns, happ, conns_replayed]
          · have hspill := overflowed_of_spills hw hn hcap (x := x)
              (by rw [happ, hm]; omega)
            exact .spilled hspill ((hcap'.full hspill).trans hm) (not_le.mp hle)
      | spilled ho hcount hlt =>
          have hstay := stays_overflowed hw (indexed_track cfg p) hn.balance ho x
          exact .spilled hstay ((hcap'.full hstay).trans hm) (hlt.trans_le hmono)

/-- A fail-fast run that did not overflow is its replay. -/
lemma conns_of_whole (cfg : EngineConfig) {m : ℕ} (hr : cfg.retention = .failFast m)
    {items : List Item} (ho : (Tracker.track cfg items).overflowed = false) :
    (Tracker.track cfg items).conns = (replay cfg items).conns := by
  cases stands_track cfg hr items with
  | whole _ hc _ => exact hc
  | spilled ho' _ _ => rw [ho] at ho'; exact absurd ho' (by simp)

/-! ### Which ceilings suffice -/

lemma shouldSplit_congr {cfg' : EngineConfig} (hd : cfg.deadAfter = cfg'.deadAfter)
    (hr : cfg.resetThreshold = cfg'.resetThreshold) (c : ConnTrack) (seg : Segment) :
    shouldSplit cfg c seg = shouldSplit cfg' c seg := by
  unfold shouldSplit
  rw [hd, hr]

/-- A fail-fast lifecycle is decided by two settings. -/
lemma life_congr (cfg cfg' : EngineConfig) (hw : cfg.retention.window = none)
    (hw' : cfg'.retention.window = none) (hd : cfg.deadAfter = cfg'.deadAfter)
    (hr : cfg.resetThreshold = cfg'.resetThreshold) (items : List Item) :
    (Tracker.track cfg items).life = (Tracker.track cfg' items).life := by
  have hstep : Life.observe cfg = Life.observe cfg' := by
    funext l x
    cases x with
    | segment seg =>
        have hj : l.joins cfg seg = l.joins cfg' seg := by
          simp only [Life.joins, shouldSplit_congr hd hr]
        simp only [Life.observe, hj]
    | tick at_ => rw [Life.observe_tick_failFast hw, Life.observe_tick_failFast hw']
  rw [life_track, life_track, hstep]

lemma intoConnections_congr (hl : t.life = u.life) : t.intoConnections = u.intoConnections := by
  have hview : ∀ t : Tracker, t.conns.map ConnTrack.view = t.life.conns.map ConnTrack.view := by
    intro t
    rw [Tracker.life, List.map_map]
    rfl
  unfold Tracker.intoConnections
  rw [hview, hview, hl]

lemma replayed_retaining (m m' : ℕ) :
    replayed (retaining cfg (.failFast m)) = replayed (retaining cfg (.failFast m')) := by
  funext u x
  cases x <;> rfl

/-- A replay knows nothing of the ceiling. -/
lemma replay_retaining (m m' : ℕ) (items : List Item) :
    replay (retaining cfg (.failFast m)) items = replay (retaining cfg (.failFast m')) items := by
  unfold replay
  rw [replayed_retaining m m']

/-- What a run whose replay does not fit returns. -/
lemma error_of_spilled (hr : cfg.retention = .failFast m) (ho : t.overflowed = true)
    (hc : t.collectedSamples = m) :
    t.intoMetrics cfg = .error (.sampleCeiling (m + 1) m) ∧
      t.intoTimeline cfg = .error (.sampleCeiling (m + 1) m) := by
  simp [Tracker.intoMetrics, Tracker.intoTimeline, ho, hc, hr, RetentionPolicy.maxSamples]

/-- Two runs of the same connections, neither overflowed, return the same. -/
lemma same_results {cfg' : EngineConfig} (ht : t.overflowed = false) (hu : u.overflowed = false)
    (hc : t.conns = u.conns) :
    (∃ ms, t.intoMetrics cfg = .ok ms ∧ u.intoMetrics cfg' = .ok ms) ∧
      ∃ tl, t.intoTimeline cfg = .ok tl ∧ u.intoTimeline cfg' = .ok tl := by
  simp [Tracker.intoMetrics, Tracker.intoTimeline, ht, hu, hc]

/-- `usize::MAX`. -/
def usizeMax : ℕ := 2 ^ 64 - 1

/-- **The ceiling law.** A ceiling suffices exactly if the run with the largest one collects no
more than it allows; the results are then the same, and an error otherwise. The connections
are the same in any case. -/
theorem ceiling_law (cfg : EngineConfig) {m : ℕ} (hm : m ≤ usizeMax) (items : List Item) :
    let limited := retaining cfg (.failFast m)
    let unlimited := retaining cfg (.failFast usizeMax)
    let t := Tracker.track limited items
    let u := Tracker.track unlimited items
    (u.overflowed = false ∧ retained u.conns ≤ m →
      (∃ ms, t.intoMetrics limited = .ok ms ∧ u.intoMetrics unlimited = .ok ms) ∧
        ∃ tl, t.intoTimeline limited = .ok tl ∧ u.intoTimeline unlimited = .ok tl) ∧
    (¬ (u.overflowed = false ∧ retained u.conns ≤ m) →
      t.intoMetrics limited = .error (.sampleCeiling (m + 1) m) ∧
        t.intoTimeline limited = .error (.sampleCeiling (m + 1) m)) ∧
    t.intoConnections = u.intoConnections := by
  have ht := stands_track (retaining cfg (.failFast m)) rfl items
  have hu := stands_track (retaining cfg (.failFast usizeMax)) rfl items
  rw [replay_retaining usizeMax m] at hu
  intro limited unlimited t u
  refine ⟨fun ⟨ho, hfit⟩ => ?_, fun hnot => ?_,
    intoConnections_congr (life_congr limited unlimited rfl rfl rfl rfl items)⟩
  · cases hu with
    | spilled ho' _ _ => rw [ho] at ho'; exact absurd ho' (by simp)
    | whole _ hcu _ =>
        have hfit' : retained (replay limited items).conns ≤ m := hcu ▸ hfit
        cases ht with
        | spilled _ _ hlt => exact absurd hlt (not_lt.mpr hfit')
        | whole hot hct _ => exact same_results hot ho (hct.trans hcu.symm)
  · have hlt : m < retained (replay limited items).conns := by
      cases hu with
      | spilled _ _ hlt => exact hm.trans_lt hlt
      | whole hou hcu _ =>
          by_contra hle
          exact hnot ⟨hou, hcu ▸ not_lt.mp hle⟩
    cases ht with
    | whole _ _ hle => exact absurd hlt (not_lt.mpr hle)
    | spilled hot hct _ => exact error_of_spilled rfl hot hct

/-- Every series is collected. -/
def fullConfig : EngineConfig where
  seriesCollection := .all
  collectStateTimeline := true
  collectSeqTimeline := true
  collectInflightTimeline := true
  collectRttTimeline := true
  collectThroughputTimeline := true

/-- A handshake. -/
def handshake : List Item :=
  [.segment (.between 1 2 0 TcpFlags.SYN 100),
    .segment (.between 2 1 10 (TcpFlags.SYN ||| TcpFlags.ACK) 500 0 101),
    .segment (.between 1 2 20 TcpFlags.ACK 101 0 501)]

theorem ceiling_law_handshake :
    let unlimited := retaining fullConfig (.failFast usizeMax)
    (Tracker.track (retaining fullConfig (.failFast 12)) handshake).intoMetrics
        (retaining fullConfig (.failFast 12)) = .error (.sampleCeiling 13 12) ∧
      ∃ ms, (Tracker.track (retaining fullConfig (.failFast 13)) handshake).intoMetrics
          (retaining fullConfig (.failFast 13)) = .ok ms ∧
        (Tracker.track unlimited handshake).intoMetrics unlimited = .ok ms :=
  ⟨((ceiling_law fullConfig (m := 12) (by decide) handshake).2.1 (by decide +kernel)).1,
    ((ceiling_law fullConfig (m := 13) (by decide) handshake).1 (by decide +kernel)).1⟩

end TcpVisr.Ceiling
