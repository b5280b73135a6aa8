import TcpVisr.Appending
import TcpVisr.Kept

/-!
Ageing forgets, and changes nothing else.

A run with a window and a run that ages nothing out, neither of them at its ceiling, derive
the same samples and differ in what they still retain: the first is at all times the second
with every series aged. On items in time order ageing is a restriction to the window.
-/

namespace TcpVisr.Forgetting

open Lib.Runs Recording Slots Plan Passes Lifecycle Index Steps Appending Kept

/-- The configuration with another retention policy. -/
def retaining (cfg : EngineConfig) (r : RetentionPolicy) : EngineConfig :=
  { cfg with retention := r }

/-- The longest window there is: nothing is ever older. -/
def maxWindow : Nanos := ⟨u64Max, le_rfl⟩

/-- The retained total stays below the ceiling while an item is recorded. -/
def Unreached (cfg : EngineConfig) (t : Tracker) (x : Item) : Prop :=
  (recording cfg t x).collectedSamples < cfg.retention.maxSamples

/-- `evict_dead_connections` removes nothing. -/
def RemovesNothing (cfg : EngineConfig) (t : Tracker) : Item → Prop
  | .segment _ => True
  | .tick at_ =>
    let u := ((clocked t (.tick at_)).emitDecaySamples cfg).evictSamples cfg
    (u.evictDeadConnections cfg).conns = u.conns

/-- The samples at or after `h`; the last snapshot when there is none. -/
def restrict (h : ℕ) (k : Retained) : Retained where
  states := Lib.Ageing.freshOrLast (fun x => x.t.ns) h k.states
  series := k.series.filter fun x => h ≤ x.t.ns
  seq := k.seq.filter fun x => h ≤ x.t.ns
  inflight := k.inflight.filter fun x => h ≤ x.t.ns
  rtt := k.rtt.filter fun x => h ≤ x.t.ns
  throughput := k.throughput.filter fun x => h ≤ x.t.ns

/-- The connection with its series restricted. -/
def restricted (h : ℕ) (c : ConnTrack) : ConnTrack := { c with kept := restrict h c.kept }

/-- `t` is `u` with every series aged to the horizon of `w`. -/
structure Forgets (w : Nanos) (t u : Tracker) : Prop where
  life : t.life = u.life
  conns : t.conns = u.conns.map (aged (t.now.ns - w.ns))

instance (cfg : EngineConfig) (t : Tracker) (x : Item) : Decidable (Unreached cfg t x) :=
  inferInstanceAs (Decidable (_ < _))

instance (cfg : EngineConfig) (t : Tracker) : ∀ x, Decidable (RemovesNothing cfg t x)
  | .segment _ => inferInstanceAs (Decidable True)
  | .tick _ => inferInstanceAs (Decidable (_ = _))

variable {cfg : EngineConfig} {r r' : RetentionPolicy} {t u : Tracker} {seg : Segment} {w : Nanos}
  {h h' : ℕ}

/-! ### Ageing and appending -/

lemma age_pushAll_congr {k k' : Retained} (hk : age h k = age h k') (xs : List Sample) :
    age h (pushAll k xs) = age h (pushAll k' xs) := by
  induction xs generalizing k k' with
  | nil => exact hk
  | cons x xs ih => exact ih (age_push_congr hk x)

lemma aged_append (hh : h ≤ h') (c : ConnTrack) (p : Derivation × List Sample) :
    aged h' (append (aged h c) p) = aged h' (append c p) := by
  have := age_pushAll_congr (age_age hh c.kept) p.2
  simp only [aged, append, this]

lemma aged_aged (hh : h ≤ h') (c : ConnTrack) : aged h' (aged h c) = aged h' c := by
  simp only [aged, age_age hh]

lemma ext_core {c c' : ConnTrack} (hc : core c = core c') (hd : c.derived = c'.derived)
    (hk : c.kept = c'.kept) : c = c' := by
  have h1 : c = { core c with derived := c.derived, kept := c.kept } := rfl
  have h2 : c' = { core c' with derived := c'.derived, kept := c'.kept } := rfl
  rw [h1, h2, hc, hd, hk]

/-- A segment changes a connection without a look at its series. -/
lemma accounted_aged (h : ℕ) (c : ConnTrack) (seg : Segment) :
    accounted (aged h c) seg = aged h (accounted c seg) := by
  refine ext_core ?_ (by simp) (by simp)
  rw [core_aged, core_accounted, core_accounted, core_aged]

lemma joinPlan_aged (h : ℕ) (c : ConnTrack) (seg : Segment) :
    joinPlan (retaining cfg r) (aged h c) seg = joinPlan (retaining cfg r') c seg := by
  unfold joinPlan
  rw [accounted_aged]
  rfl

lemma joined_aged (hh : h ≤ h') (c : ConnTrack) (seg : Segment) :
    aged h' (joined (retaining cfg r) seg (aged h c)) =
      aged h' (joined (retaining cfg r') seg c) := by
  have hplan : joinPlan (retaining cfg r) (aged h c) seg = joinPlan (retaining cfg r') c seg :=
    joinPlan_aged h c seg
  unfold joined
  rw [hplan, accounted_aged, aged_append hh]

lemma ticked_aged (hh : h ≤ h') (now : Nanos) (c : ConnTrack) :
    aged h' (ticked (retaining cfg r) now (aged h c)) =
      aged h' (ticked (retaining cfg r') now c) :=
  aged_append hh c (c.derived, decayPlan cfg now c)

/-! ### One step -/

lemma joins_eq (hl : t.life = u.life) (seg : Segment) :
    t.joins (retaining cfg r) seg = u.joins (retaining cfg r') seg := by
  rw [← joins_life, ← joins_life, hl]
  rfl

lemma map_modify_congr {a f f' g : ConnTrack → ConnTrack} (hg : ∀ c, g (a c) = g c)
    (hf : ∀ c, g (f (a c)) = g (f' c)) (cs : List ConnTrack) (i : ℕ) :
    ((cs.map a).modify i f).map g = (cs.modify i f').map g := by
  induction cs generalizing i with
  | nil => simp
  | cons c cs ih =>
      cases i with
      | zero => simp [hf, hg]
      | succ i => simpa [hg] using ih i

/-- What an item appends is the same on either side. -/
lemma appended_aged (hw : r.window.isSome = r'.window.isSome) (hl : t.life = u.life)
    (hc : t.conns = u.conns.map (aged h)) (hh : h ≤ h') (x : Item) :
    (appended (retaining cfg r) t x).map (aged h') =
      (appended (retaining cfg r') u x).map (aged h') := by
  have hconns : t.conns.map (aged h') = u.conns.map (aged h') := by
    rw [hc, List.map_map]
    exact List.map_congr_left fun c _ => aged_aged hh c
  cases x with
  | segment seg =>
      have hjoins : t.joins (retaining cfg r) seg = u.joins (retaining cfg r') seg :=
        joins_eq hl seg
      unfold appended
      dsimp only
      rw [hjoins]
      cases u.joins (retaining cfg r') seg with
      | some i =>
          dsimp only
          rw [hc]
          exact map_modify_congr (aged_aged hh) (fun c => joined_aged hh c seg) _ i
      | none =>
          have hid : t.nextId seg.pair = u.nextId seg.pair :=
            congrArg (fun l : Life => (⟨seg.pair, (l.nextInstance seg.pair).getD 0⟩ : ConnId)) hl
          dsimp only
          rw [List.map_append, List.map_append, hconns, hid]
          rfl
  | tick at_ =>
      have hnow : t.now = u.now := congrArg Life.now hl
      have hnone : (retaining cfg r).retention.window.isNone =
          (retaining cfg r').retention.window.isNone := by
        rw [← Option.not_isSome, ← Option.not_isSome]
        exact congrArg _ hw
      unfold appended
      dsimp only
      rw [hnone, hnow]
      split
      · exact hconns
      · rw [hc, List.map_map, List.map_map, List.map_map]
        exact List.map_congr_left fun c _ => ticked_aged hh _ c

lemma observe_of_removesNothing (hw : cfg.retention.window.isSome) {x : Item}
    (hr : RemovesNothing cfg t x) :
    (t.observe cfg x) = (recording cfg t x).evictSamples cfg := by
  obtain ⟨w, hw⟩ := Option.isSome_iff_exists.mp hw
  cases x with
  | segment seg => rfl
  | tick at_ =>
      have hrec : recording cfg t (.tick at_) = (clocked t (.tick at_)).emitDecaySamples cfg := by
        simp [recording, hw]
      rw [observe_tick_evict hw, hrec]
      -- A filter that keeps every connection leaves the tracker as it is.
      have hlen := congrArg List.length hr
      unfold RemovesNothing at hr
      generalize ((clocked t (.tick at_)).emitDecaySamples cfg).evictSamples cfg = v at hr hlen ⊢
      rw [conns_evictDeadConnections hw, horizonAt_some hw] at hlen
      simp only [Tracker.evictDeadConnections, hw, Tracker.horizon, hlen, if_true]

lemma life_recording_tick (hw : cfg.retention.window.isSome) (at_ : Nanos) :
    (recording cfg t (.tick at_)).life = { t.life with now := max t.now at_ } := by
  obtain ⟨w, hw⟩ := Option.isSome_iff_exists.mp hw
  simp only [recording, hw, Option.isNone_some, Bool.false_eq_true, if_false]
  rw [life_emitDecaySamples, life_clocked]
  rfl

/-- A step that fits and removes nothing appends what it is asked to and ages. -/
lemma conns_observe (hw : cfg.retention.window = some w) (hn : Counted cfg t) {x : Item}
    (hu : Unreached cfg t x) (hr : RemovesNothing cfg t x) :
    (t.observe cfg x).conns =
      (appended cfg t x).map (aged ((t.observe cfg x).now.ns - w.ns)) := by
  have hw' : cfg.retention.window.isSome := by simp [hw]
  have happ := (recording_of_fits hn.balance (hn.evict hw') (fits_of_room hw' hn hu)).1
  have hnow := now_evictSamples cfg (recording cfg t x)
  rw [observe_of_removesNothing hw' hr, hnow, evictSamples_eq (balance_recording cfg hn.balance x),
    agedTracker, horizonAt_some hw, happ]

/-- The longest window removes nothing. -/
lemma removesNothing_maxWindow (hw : cfg.retention.window = some maxWindow) (x : Item) :
    RemovesNothing cfg t x := by
  cases x with
  | segment seg => trivial
  | tick at_ =>
      unfold RemovesNothing
      dsimp only
      rw [conns_evictDeadConnections hw, horizonAt_some hw]
      refine List.filter_eq_self.mpr fun c _ => ?_
      generalize ((clocked t (.tick at_)).emitDecaySamples cfg).evictSamples cfg = v
      have hle : v.now.ns ≤ maxWindow.ns := v.now.le_max
      simp [ConnTrack.evictable, Nat.sub_eq_zero_of_le hle]

/-- The step of the simulation. -/
lemma forgets_observe {m m' : ℕ}
    (hn : Counted (retaining cfg (.evict w m)) t)
    (hn' : Counted (retaining cfg (.evict maxWindow m')) u) (hf : Forgets w t u) {x : Item}
    (hu : Unreached (retaining cfg (.evict w m)) t x)
    (hr : RemovesNothing (retaining cfg (.evict w m)) t x)
    (hu' : Unreached (retaining cfg (.evict maxWindow m')) u x) :
    Forgets w (t.observe (retaining cfg (.evict w m)) x)
      (u.observe (retaining cfg (.evict maxWindow m')) x) := by
  have hr' : RemovesNothing (retaining cfg (.evict maxWindow m')) u x :=
    removesNothing_maxWindow rfl x
  have hlife : (t.observe (retaining cfg (.evict w m)) x).life =
      (u.observe (retaining cfg (.evict maxWindow m')) x).life := by
    cases x with
    | segment seg =>
        rw [life_observe, life_observe, hf.life]
        rfl
    | tick at_ =>
        rw [observe_of_removesNothing rfl hr, observe_of_removesNothing rfl hr', life_evictSamples,
          life_evictSamples, life_recording_tick rfl, life_recording_tick rfl, hf.life]
        exact congrArg (fun n => ({ u.life with now := max n at_ } : Life))
          (congrArg Life.now hf.life)
  have hh : t.now.ns - w.ns ≤ (t.observe (retaining cfg (.evict w m)) x).now.ns - w.ns := by
    rw [now_step rfl, Nanos.ns_max]
    omega
  have happ : (appended (retaining cfg (.evict w m)) t x).map (aged _) =
      (appended (retaining cfg (.evict maxWindow m')) u x).map (aged _) :=
    appended_aged rfl hf.life hf.conns hh x
  have hzero : (u.observe (retaining cfg (.evict maxWindow m')) x).now.ns - maxWindow.ns = 0 :=
    Nat.sub_eq_zero_of_le (Nanos.le_max _)
  refine ⟨hlife, ?_⟩
  rw [conns_observe rfl hn hu hr, conns_observe rfl hn' hu' hr', hzero, funext aged_zero,
    List.map_id', happ]

/-! ### Runs -/

lemma forgets_track {m m' : ℕ} {items : List Item}
    (h : Steps (Tracker.observe (retaining cfg (.evict w m))) Tracker.new
      (fun t x => Unreached (retaining cfg (.evict w m)) t x ∧
        RemovesNothing (retaining cfg (.evict w m)) t x) items)
    (h' : Steps (Tracker.observe (retaining cfg (.evict maxWindow m'))) Tracker.new
      (Unreached (retaining cfg (.evict maxWindow m'))) items) :
    Forgets w (Tracker.track (retaining cfg (.evict w m)) items)
      (Tracker.track (retaining cfg (.evict maxWindow m')) items) := by
  refine (sim_of_steps (R := fun t u => Forgets w t u ∧
    Counted (retaining cfg (.evict w m)) t ∧ Counted (retaining cfg (.evict maxWindow m')) u)
    ⟨⟨rfl, rfl⟩, ⟨rfl, fun _ => rfl⟩, ⟨rfl, fun _ => rfl⟩⟩ ?_ h h').1
  rintro t u x ⟨hf, hn, hn'⟩ ⟨hu, hr⟩ hu'
  exact ⟨forgets_observe hn hn' hf hu hr hu', counted_observe hn x, counted_observe hn' x⟩

/-- Series in time order age to what the window holds. -/
lemma age_of_inTime {now : Nanos} {k : Retained} (hk : AllSeries (InTime now) k) (h : ℕ) :
    age h k = restrict h k := by
  have hold : ∀ {α : Type} {time : α → Nanos} {l : List α}, InTime now α time l →
      Lib.Ageing.OldFirst (fun x => (time x).ns) h l := fun hl => .of_sorted hl.1 h
  simp only [age, restrict, Lib.Ageing.age_one_eq (hold hk.states),
    Lib.Ageing.age_eq_filter (hold hk.series), Lib.Ageing.age_eq_filter (hold hk.seq),
    Lib.Ageing.age_eq_filter (hold hk.inflight), Lib.Ageing.age_eq_filter (hold hk.rtt),
    Lib.Ageing.age_eq_filter (hold hk.throughput)]

/-- Trackers with one lifecycle part and the same connections, counted alike, are one. -/
lemma tracker_ext {t u : Tracker} (hl : t.life = u.life) (hc : t.conns = u.conns)
    (hn : t.collectedSamples = u.collectedSamples) (ho : t.overflowed = u.overflowed) : t = u := by
  obtain ⟨_, live, next, _, _, now⟩ := t
  simp only [Tracker.life, Life.mk.injEq] at hl
  obtain ⟨-, rfl, rfl, rfl⟩ := hl
  cases u
  simp_all

/-- On segments alone, the longest window and fail-fast are the same run. -/
lemma failFast_eq {m : ℕ} {items : List Item} (hseg : ∀ x ∈ items, ∃ seg, x = .segment seg)
    (h : Steps (Tracker.observe (retaining cfg (.evict maxWindow m))) Tracker.new
      (Unreached (retaining cfg (.evict maxWindow m))) items) :
    Tracker.track (retaining cfg (.evict maxWindow m)) items =
      Tracker.track (retaining cfg (.failFast m)) items := by
  induction items using List.reverseRecOn with
  | nil => rfl
  | append_singleton p x ih =>
      obtain ⟨seg, rfl⟩ := hseg x (by simp)
      obtain ⟨hp, hx⟩ := steps_snoc.mp h
      have hn := counted_track (retaining cfg (.evict maxWindow m)) p
      have hn' := counted_track (retaining cfg (.failFast m)) p
      rw [Tracker.track_snoc, Tracker.track_snoc, ← ih (fun y hy => hseg y (by simp [hy])) hp]
      rw [← ih (fun y hy => hseg y (by simp [hy])) hp] at hn'
      change Unreached (retaining cfg (.evict maxWindow m))
        (Tracker.track (retaining cfg (.evict maxWindow m)) p) _ at hx
      generalize Tracker.track (retaining cfg (.evict maxWindow m)) p = t at hx hn hn' ⊢
      have hfits := fits_of_room rfl hn hx
      obtain ⟨hc, ho⟩ := recording_of_fits hn.balance (hn.evict rfl) hfits
      have hfits' : retained (appended (retaining cfg (.failFast m)) t (.segment seg)) ≤
          (retaining cfg (.failFast m)).retention.maxSamples := hfits
      obtain ⟨hc', ho'⟩ := recording_of_fits hn'.balance (hn.evict rfl) hfits'
      have hzero : ∀ now, horizonAt (retaining cfg (.evict maxWindow m)) now = 0 := fun now =>
        Nat.sub_eq_zero_of_le (Nanos.le_max _)
      have hconns : (t.observe (retaining cfg (.evict maxWindow m)) (.segment seg)).conns =
          (t.observe (retaining cfg (.failFast m)) (.segment seg)).conns := by
        rw [observe_segment_eq hn.balance, observe_segment_eq hn.balance, agedTracker, agedTracker,
          hc, hc', hzero]
        rfl
      refine tracker_ext ?_ hconns ?_ ?_
      · rw [life_observe, life_observe]
        rfl
      · rw [(counted_observe hn _).balance, (counted_observe hn' _).balance, hconns]
      · rw [(counted_observe hn _).evict rfl, observe_segment_eq hn'.balance]
        exact ho'.symm

/-- **Ageing only forgets.** -/
theorem ageing_only_forgets {m m' : ℕ} {items : List Item}
    (hord : items.Pairwise fun a b => a.ts.ns ≤ b.ts.ns)
    (h : Steps (Tracker.observe (retaining cfg (.evict w m))) Tracker.new
      (fun t x => Unreached (retaining cfg (.evict w m)) t x ∧
        RemovesNothing (retaining cfg (.evict w m)) t x) items)
    (h' : Steps (Tracker.observe (retaining cfg (.evict maxWindow m'))) Tracker.new
      (Unreached (retaining cfg (.evict maxWindow m'))) items) :
    ∀ p, p <+: items →
      (Tracker.track (retaining cfg (.evict w m)) p).intoConnections =
          (Tracker.track (retaining cfg (.evict maxWindow m')) p).intoConnections ∧
        (Tracker.track (retaining cfg (.evict w m)) p).conns =
          (Tracker.track (retaining cfg (.evict maxWindow m')) p).conns.map
            (restricted ((Tracker.track (retaining cfg (.evict w m)) p).now.ns - w.ns)) ∧
        ((∀ x ∈ p, ∃ seg, x = .segment seg) →
          Tracker.track (retaining cfg (.evict maxWindow m')) p =
            Tracker.track (retaining cfg (.failFast m')) p) := by
  intro p hp
  have hf := forgets_track (h.initial hp) ( h'.initial hp)
  refine ⟨?_, ?_, fun hseg => failFast_eq hseg ( h'.initial hp)⟩
  · unfold Tracker.intoConnections
    rw [hf.conns, List.map_map]
    rfl
  · rw [hf.conns]
    refine List.map_congr_left fun c hc => ?_
    have hin := inTime_track (hord.sublist hp.sublist) c hc
    simp only [aged, restricted, age_of_inTime hin]

/-- Lifecycle snapshots and in-flight samples are collected. -/
def liveConfig : EngineConfig where
  collectStateTimeline := true
  collectInflightTimeline := true

/-- A segment, a tick, and a segment of another connection 100 later. -/
def quiet : List Item :=
  [.segment (.between 1 2 0 TcpFlags.ACK 100 10), .tick (Nanos.sat 10),
    .segment (.between 3 4 100 TcpFlags.ACK 500 20)]

theorem ageing_only_forgets_quiet :
    let t := Tracker.track (retaining liveConfig (.evict (Nanos.sat 50) 10)) quiet
    let u := Tracker.track (retaining liveConfig (.evict maxWindow 20)) quiet
    t.intoConnections = u.intoConnections ∧
      t.conns = u.conns.map (restricted (t.now.ns - (Nanos.sat 50).ns)) ∧
      ((∀ x ∈ quiet, ∃ seg, x = .segment seg) →
        u = Tracker.track (retaining liveConfig (.failFast 20)) quiet) :=
  ageing_only_forgets (by decide) (by decide +kernel) (by decide +kernel) quiet List.prefix_rfl

end TcpVisr.Forgetting
