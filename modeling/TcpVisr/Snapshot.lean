import TcpVisr.Census
import TcpVisr.Kept
import TcpVisr.Queries

/-!
The live snapshot, read at the current time.

Every open connection is listed once, with the state and the byte counts it has now, whatever
has been evicted. Being listed ends with the connection or with its removal; idleness alone
does not end it.
-/

namespace TcpVisr.Snapshot

open Lib.Runs Lib.AsOf Recording Slots Plan Passes Lifecycle Index Steps States Census Kept Queries

variable {cfg : EngineConfig} {items : List Item} {t : Tracker} {w : Nanos}

/-! ### What is listed -/

/-- Among connections of distinct identities, the listing of one is what it resolves to. -/
lemma filter_resolved {n : Nanos} {l : List ConnTrack} (hl : (l.map ConnTrack.id).Nodup)
    {c : ConnTrack} (hc : c ∈ l) {a : AsOf} (ha : resolved n c = some a) :
    (l.filterMap (resolved n)).filter (fun b => b.id = c.id) = [a] := by
  have hid : ∀ {d b}, resolved n d = some b → b.id = d.id := by
    intro d b h
    obtain ⟨s, -, rfl⟩ := Option.map_eq_some_iff.mp h
    rfl
  induction l with
  | nil => simp at hc
  | cons d l ih =>
      rw [List.map_cons, List.nodup_cons] at hl
      rcases List.mem_cons.mp hc with rfl | hmem
      · have hrest : (l.filterMap (resolved n)).filter (fun b => b.id = c.id) = [] := by
          refine List.filter_eq_nil_iff.mpr fun b hb => ?_
          obtain ⟨e, he, heb⟩ := List.mem_filterMap.mp hb
          have hne : e.id ≠ c.id := fun h => hl.1 (h ▸ List.mem_map_of_mem he)
          simpa [hid heb] using hne
        rw [List.filterMap_cons_some ha, List.filter_cons_of_pos (by simpa using hid ha), hrest]
      · have hne : d.id ≠ c.id := fun h => hl.1 (h ▸ List.mem_map_of_mem hmem)
        cases hd : resolved n d with
        | none => rw [List.filterMap_cons_none hd, ih hl.2 hmem]
        | some b =>
            rw [List.filterMap_cons_some hd, List.filter_cons_of_neg (by simpa [hid hd] using hne),
              ih hl.2 hmem]

/-- The active set at the current time: the connections that are open, or active right now. -/
lemma activeTrack_now {c : ConnTrack} (hs : Sound t.now c) :
    activeTrack t.now t.now c = true ↔ c.state.terminal = false ∨ c.lastAt = t.now := by
  have hopened := hs.opened.trans hs.last
  unfold activeTrack
  cases c.state.terminal with
  | false => simp [hopened]
  | true =>
      have heq : c.lastAt = t.now ↔ t.now.ns ≤ c.lastAt.ns := by
        rw [Nanos.ext_iff]
        have := hs.last
        omega
      simp [hopened, heq]

lemma mem_activeAt_now (hi : Indexed t.life) (hs : ∀ c ∈ t.conns, Sound t.now c) {c : ConnTrack}
    (hc : c ∈ t.conns) :
    c.id ∈ t.snapshot.activeAt t.now ↔ c.state.terminal = false ∨ c.lastAt = t.now := by
  rw [Tracker.snapshot, activeAt_tracked, List.mem_map, ← activeTrack_now (hs c hc)]
  constructor
  · rintro ⟨d, hd, hid⟩
    obtain ⟨hd, hact⟩ := List.mem_filter.mp hd
    rwa [← eq_of_id hi hd hc hid]
  · exact fun h => ⟨c, List.mem_filter.mpr ⟨hc, h⟩, rfl⟩

/-- What resolves is active. -/
lemma mem_activeAt_of_resolveAt {n : Nanos} {id : ConnId}
    (h : id ∈ (t.snapshot.resolveAt n).map AsOf.id) : id ∈ t.snapshot.activeAt n := by
  obtain ⟨a, ha, rfl⟩ := List.mem_map.mp h
  rw [Tracker.snapshot, resolveAt_tracked] at ha
  obtain ⟨c, hc, hca⟩ := List.mem_filterMap.mp ha
  obtain ⟨s, -, rfl⟩ := Option.map_eq_some_iff.mp hca
  rw [Tracker.snapshot, activeAt_tracked]
  exact List.mem_map_of_mem hc

/-! ### Every connection stays resolvable -/

/-- The last retained snapshot of a connection shows what the connection is now. -/
lemma current_track (hw : cfg.retention.window.isSome) (hc : cfg.collectStateTimeline = true)
    (items : List Item) :
    ∀ c ∈ (Tracker.track cfg items).conns,
      ∃ a, c.kept.states.getLast? = some (c.snapshot a) := by
  induction items using List.reverseRecOn with
  | nil => simp [Tracker.new]
  | append_singleton p x ih =>
      have hn := counted_track cfg p
      have hag : ∀ h c, (∃ a, c.kept.states.getLast? = some (c.snapshot a)) →
          ∃ a, (aged h c).kept.states.getLast? = some ((aged h c).snapshot a) := by
        rintro h c ⟨a, ha⟩
        exact ⟨a, (dropsFronts_age h c.kept).last.trans ha⟩
      rw [Tracker.track_snoc]
      intro c hmem
      cases came_of_mem hn.balance x c hmem with
      | apart hc₀ _ => exact hag _ _ (ih _ (List.mem_of_getElem? hc₀))
      | @joined seg _ c hj hc₀ =>
          refine hag _ _ ⟨seg.ts, ?_⟩
          rw [last_join hw hc (hn.evict hw) seg]
          exact congrArg some
            (eq_of_core (fun c => c.snapshot seg.ts) (recorded_join cfg _ seg).core).symm
      | @opened seg hj =>
          refine hag _ _ ⟨seg.ts, ?_⟩
          rw [last_found hw hc (hn.evict hw) seg]
          exact congrArg some
            (eq_of_core (fun c => c.snapshot seg.ts) (recorded_found cfg _ seg).core).symm
      | inert hw' => simp [hw'] at hw
      | @ticked _ c c' _ hc₀ hf _ =>
          obtain ⟨a, ha⟩ := ih c hc₀
          refine hag _ _ ⟨a, ?_⟩
          rw [Grows.last_eq hf.grows, ha]
          exact congrArg some (eq_of_core (fun c => c.snapshot a) hf.core).symm

/-- **Every tracked connection stays resolvable.** Whatever is evicted, the most recently
recorded snapshot of each tracked connection is retained; on items in time order the snapshot
lists each open connection once, with its current state and byte counts. -/
theorem stays_resolvable (hw : cfg.retention.window.isSome)
    (hc : cfg.collectStateTimeline = true) (items : List Item) :
    (∀ c ∈ (Tracker.track cfg items).conns,
        ∃ s, latest cfg items c.id = some s ∧ s ∈ c.kept.states) ∧
      (items.Pairwise (fun a b => a.ts.ns ≤ b.ts.ns) →
        ∀ c ∈ (Tracker.track cfg items).conns, c.state.terminal = false →
          ((Tracker.track cfg items).snapshot.resolveAt (Tracker.track cfg items).now).filter
              (fun a => a.id = c.id) = [⟨c.id, c.state, c.bytesO2r, c.bytesR2o⟩]) := by
  constructor
  · intro c hmem
    obtain ⟨hlast, hne⟩ := keepsLatest_track hw items c hmem
    obtain ⟨s, hs⟩ := Option.isSome_iff_exists.mp (List.getLast?_isSome.mpr (hne hc))
    exact ⟨s, hlast ▸ hs, List.mem_of_getLast? hs⟩
  · intro hord c hmem hopen
    have hi := indexed_track cfg items
    have hin := (inTime_track hord c hmem).states
    obtain ⟨a, ha⟩ := current_track hw hc items c hmem
    have hres : resolved (Tracker.track cfg items).now c =
        some ⟨c.id, c.state, c.bytesO2r, c.bytesR2o⟩ := by
      rw [resolved, sortByTime_eq_self hin.1, asOf_eq_getLast? hin.2, ha]
      rfl
    have hact := (activeTrack_now (sound_track cfg items c hmem)).mpr (Or.inl hopen)
    rw [Tracker.snapshot, resolveAt_tracked]
    exact filter_resolved ((nodup_ids hi).sublist (List.filter_sublist.map _))
      (List.mem_filter.mpr ⟨hmem, hact⟩) hres

/-- A window of 10, one sample at most, lifecycle snapshots collected. -/
def tightConfig : EngineConfig where
  retention := .evict (Nanos.sat 10) 1
  collectStateTimeline := true

/-- Two connections and a long silence. -/
def silence : List Item :=
  [.segment (.between 1 2 0 TcpFlags.ACK 100 10), .segment (.between 3 4 5 TcpFlags.ACK 500 7),
    .segment (.between 2 1 6 TcpFlags.ACK 900 3), .tick (Nanos.sat 100)]

theorem stays_resolvable_silence :
    (∀ c ∈ (Tracker.track tightConfig silence).conns,
        ∃ s, latest tightConfig silence c.id = some s ∧ s ∈ c.kept.states) ∧
      ∀ c ∈ (Tracker.track tightConfig silence).conns, c.state.terminal = false →
        ((Tracker.track tightConfig silence).snapshot.resolveAt
            (Tracker.track tightConfig silence).now).filter (fun a => a.id = c.id) =
          [⟨c.id, c.state, c.bytesO2r, c.bytesR2o⟩] :=
  ⟨(stays_resolvable rfl rfl silence).1, (stays_resolvable rfl rfl silence).2 (by decide)⟩

/-! ### Idle connections -/

/-- Idle past `dead_after`. -/
def Idle (cfg : EngineConfig) (now lastAt : Nanos) : Prop :=
  cfg.deadAfter.ns < now.ns - lastAt.ns

/-- No idle connection is active in the snapshot at the current time, none resolves. -/
def DropsIdle (cfg : EngineConfig) (t : Tracker) : Prop :=
  ∀ c ∈ t.conns, Idle cfg t.now c.lastAt →
    c.id ∉ t.snapshot.activeAt t.now ∧ c.id ∉ (t.snapshot.resolveAt t.now).map AsOf.id

/-- A step leaves no open connection idle: a segment moves the clock past the `dead_after` of
none, a tick of none that it does not remove. -/
def LeavesNoneIdle (cfg : EngineConfig) (w : Nanos) (t : Tracker) : Item → Prop
  | .segment seg => AfterSegment cfg t seg fun terminal lastAt =>
      Idle cfg (max t.now seg.ts) lastAt → terminal = true
  | .tick at_ => ∀ c ∈ t.conns,
      c.evictable cfg ((max t.now at_).ns - w.ns) (max t.now at_) = false →
        Idle cfg (max t.now at_) c.lastAt → c.state.terminal = true

/-- Idle connections have dropped out exactly when all of them have ended. -/
lemma dropsIdle_iff (hi : Indexed t.life) (hs : ∀ c ∈ t.conns, Sound t.now c) :
    DropsIdle cfg t ↔
      ∀ c ∈ t.conns, Idle cfg t.now c.lastAt → c.state.terminal = true := by
  refine forall₂_congr fun c hc => imp_congr_right fun hidle => ?_
  have hne : c.lastAt ≠ t.now := by
    intro h
    rw [h, Idle] at hidle
    omega
  have hact := mem_activeAt_now hi hs hc
  constructor
  · rintro ⟨h, -⟩
    by_contra ht
    exact h (hact.mpr (Or.inl (by simpa using ht)))
  · intro ht
    have h : c.id ∉ t.snapshot.activeAt t.now := by
      intro h
      rcases hact.mp h with h | h
      · rw [ht] at h
        exact absurd h (by simp)
      · exact hne h
    exact ⟨h, fun hr => h (mem_activeAt_of_resolveAt hr)⟩

/-- **One step.** A step ends with all idle connections dropped out exactly if it leaves no
open connection idle. -/
lemma dropsIdle_observe_iff (hw : cfg.retention.window = some w) (hi : Indexed t.life) (x : Item)
    (hs : ∀ c ∈ (t.observe cfg x).conns, Sound (t.observe cfg x).now c) :
    DropsIdle cfg (t.observe cfg x) ↔ LeavesNoneIdle cfg w t x := by
  rw [dropsIdle_iff (life_observe cfg t x ▸ indexed_observe hi x) hs, now_step (by simp [hw])]
  cases x with
  | segment seg =>
      exact forall_segment_iff (Q := fun terminal lastAt =>
        Idle cfg (max t.now seg.ts) lastAt → terminal = true)
  | tick at_ =>
      exact forall_tick_iff (Q := fun terminal lastAt =>
        Idle cfg (max t.now at_) lastAt → terminal = true) hw hi

/-- A tick leaves none when the window is no longer than `dead_after`: it removes them. -/
lemma leavesNoneIdle_tick (hle : w.ns ≤ cfg.deadAfter.ns) (at_ : Nanos) :
    LeavesNoneIdle cfg w t (.tick at_) := by
  intro c _ he hidle
  unfold Idle at hidle
  have hold : c.lastAt.ns < (max t.now at_).ns - w.ns := by omega
  rw [ConnTrack.evictable, decide_eq_true hidle, decide_eq_true hold, Bool.or_true] at he
  exact absurd he (by simp)

/-- **Who drops out.** After every step of a run, idle connections have dropped out of the
active set, exactly when no step of the run leaves an open connection idle. With a window no
longer than `dead_after` only a segment can. -/
theorem dropsIdle_iff_leavesNoneIdle (hw : cfg.retention.window = some w) (items : List Item) :
    (Always (Tracker.observe cfg) Tracker.new (DropsIdle cfg) items ↔
      Steps (Tracker.observe cfg) Tracker.new (LeavesNoneIdle cfg w) items) ∧
    (w.ns ≤ cfg.deadAfter.ns → ∀ t at_, LeavesNoneIdle cfg w t (.tick at_)) := by
  refine ⟨?_, fun hle t at_ => leavesNoneIdle_tick hle at_⟩
  have hsound : ∀ p : List Item, ∀ x, ∀ c ∈ ((Tracker.track cfg p).observe cfg x).conns,
      Sound ((Tracker.track cfg p).observe cfg x).now c := by
    intro p x
    rw [← Tracker.track_snoc]
    exact sound_track _ _
  exact always_iff_steps
    (I := fun t => Indexed t.life ∧
      ∀ x, ∀ c ∈ (t.observe cfg x).conns, Sound (t.observe cfg x).now c)
    (fun p => ⟨indexed_track cfg p, hsound p⟩)
    (by simp [DropsIdle, Tracker.new])
    (fun _ x hI _ => dropsIdle_observe_iff hw hI.1 x (hI.2 x)) items

/-- A window of 1000 and a `dead_after` of 5. -/
def patientConfig : EngineConfig where
  deadAfter := Nanos.sat 5
  retention := .evict (Nanos.sat 1000) 100
  collectStateTimeline := true

/-- A connection is opened, and nothing but a tick follows. -/
def lull : List Item := [.segment (.between 1 2 0 TcpFlags.SYN 100), .tick (Nanos.sat 10)]

theorem dropsIdle_iff_leavesNoneIdle_lull :
    patientConfig.retention.window = some (Nanos.sat 1000) ∧
      (Always (Tracker.observe patientConfig) Tracker.new (DropsIdle patientConfig) lull ↔
        Steps (Tracker.observe patientConfig) Tracker.new
          (LeavesNoneIdle patientConfig (Nanos.sat 1000)) lull) :=
  ⟨rfl, (dropsIdle_iff_leavesNoneIdle rfl lull).1⟩

/-- The connection is idle past `dead_after` and still in the active set. -/
theorem idle_still_active :
    ¬ ∀ (cfg : EngineConfig) (w : Nanos), cfg.retention.window = some w → ∀ items : List Item,
      Always (Tracker.observe cfg) Tracker.new (DropsIdle cfg) items := by
  intro h
  have hdrop := h patientConfig (Nanos.sat 1000) rfl lull lull List.prefix_rfl
  have hex : ∃ c ∈ (Tracker.track patientConfig lull).conns,
      patientConfig.deadAfter.ns < (Tracker.track patientConfig lull).now.ns - c.lastAt.ns ∧
        c.id ∈ (Tracker.track patientConfig lull).snapshot.activeAt
          (Tracker.track patientConfig lull).now := by
    decide +kernel
  obtain ⟨c, hmem, hidle, hact⟩ := hex
  exact (hdrop c hmem hidle).1 hact

end TcpVisr.Snapshot
