import TcpVisr.Kept

/-!
Decay samples and the life of a connection.

A tick samples the in-flight bytes and the rates of every connection that has not been idle
for long, also of one that has ended. The timeline draws a connection from the time it was
opened to its effective end, so such a sample lies outside exactly when the clock has moved
past the last activity of an ended connection that is still sampled.
-/

namespace TcpVisr

open Lib.Runs Recording Slots Plan Passes Lifecycle Index Steps Kept

/-- The times of an entry's five detail series. -/
def Entry.times (e : Entry) : List Nanos :=
  e.samples.map StateSample.t ++ e.seq.map SeqSample.t ++ e.inflight.map InFlightSample.t ++
    e.rtt.map RttSample.t ++ e.throughput.map ThroughputSample.t

/-- The times of the five detail series a connection retains. -/
def Retained.times (k : Retained) : List Nanos :=
  k.states.map StateSample.t ++ k.seq.map SeqSample.t ++ k.inflight.map InFlightSample.t ++
    k.rtt.map RttSample.t ++ k.throughput.map ThroughputSample.t

/-- Every sample of a connection lies in its span. -/
def Timeline.Inside (tl : Timeline) : Prop :=
  ∀ id e span, tl.find id = some e → tl.xSpan id = some span →
    ∀ t ∈ e.times, span.1.ns ≤ t.ns ∧ t.ns ≤ span.2.ns

namespace Decay

/-- A tick at `now` would record nothing of the connection. -/
def Silent (cfg : EngineConfig) (now : Nanos) (c : ConnTrack) : Prop :=
  (cfg.collectThroughputTimeline = true →
    ∀ dir, c.derived.metrics.throughputAt dir now cfg = none) ∧
  (cfg.collectInflightTimeline = true → ∀ dir, c.derived.metrics.inFlight dir = none)

/-- The connection ended before `now`, but neither more than `dead_after` nor more than the
window before it. -/
def Lingers (cfg : EngineConfig) (now : Nanos) (c : ConnTrack) : Prop :=
  c.state.terminal = true ∧ c.lastAt.ns < now.ns ∧
    now.ns - c.lastAt.ns ≤ cfg.deadAfter.ns ∧ horizonAt cfg now ≤ c.lastAt.ns

/-- A tick finds nothing to record of a connection that lingers. -/
def Quiet (cfg : EngineConfig) (t : Tracker) : Item → Prop
  | .segment _ => True
  | .tick at_ => ∀ c ∈ t.conns, Lingers cfg (max t.now at_) c → Silent cfg (max t.now at_) c

/-- Every retained detail sample lies between the opening of the connection and its end. -/
def Spanned (now : Nanos) (c : ConnTrack) : Prop :=
  ∀ x ∈ c.kept.times, c.openedAt.ns ≤ x.ns ∧
    x.ns ≤ (if c.state.terminal then c.lastAt else now).ns

/-- Every retained detail sample lies between the opening of the connection and the clock. -/
def Since (now : Nanos) (c : ConnTrack) : Prop :=
  ∀ x ∈ c.kept.times, c.openedAt.ns ≤ x.ns ∧ x.ns ≤ now.ns

variable {cfg : EngineConfig} {t : Tracker} {c : ConnTrack} {k k' : Retained} {now : Nanos}

/-! ### The timeline -/

lemma mem_times_entry (finish : Nanos) (x : Nanos) :
    x ∈ (Timeline.entry finish c.connSeries).times ↔ x ∈ c.kept.times := by
  have hmem {α : Type} (time : α → Nanos) (l : List α) :
      x ∈ (sortByTime time l).map time ↔ x ∈ l.map time :=
    ((sortByTime_perm time l).map time).mem_iff
  simp only [Entry.times, Retained.times, Timeline.entry, ConnTrack.connSeries, List.mem_append,
    hmem]

lemma find_snapshot (t : Tracker) (id : ConnId) :
    t.snapshot.find id = (t.find id).map fun c => Timeline.entry t.now c.connSeries := by
  unfold Tracker.snapshot Timeline.withSeqEnding Timeline.find Tracker.find
  rw [List.map_map, List.find?_map]
  rfl

/-- The snapshot's spans, read off the tracked connections. -/
lemma inside_snapshot_iff (hi : Indexed t.life) :
    t.snapshot.Inside ↔ ∀ c ∈ t.conns, Spanned t.now c := by
  constructor
  · intro h c hc x hx
    have hfind : t.snapshot.find c.id = some (Timeline.entry t.now c.connSeries) := by
      rw [find_snapshot, find_of_mem hi hc]
      rfl
    have hspan : t.snapshot.xSpan c.id =
        some (c.openedAt, if c.state.terminal then c.lastAt else t.now) := by
      rw [Timeline.xSpan, hfind]
      rfl
    exact h c.id _ _ hfind hspan x ((mem_times_entry t.now x).mpr hx)
  · intro h id e span he hspan x hx
    rw [Timeline.xSpan, he] at hspan
    rw [find_snapshot] at he
    obtain ⟨c, hc, rfl⟩ := Option.map_eq_some_iff.mp he
    obtain rfl := Option.some.inj hspan
    exact h c (find_some hc).1 x ((mem_times_entry t.now x).mp hx)

/-! ### Growth -/

lemma times_drop (hd : DropsFronts k k') : k'.times ⊆ k.times := by
  have hsub {α : Type} (time : α → Nanos) {l m : List α} (h : m <:+ l) : m.map time ⊆ l.map time :=
    (h.map time).subset
  intro x hx
  simp only [Retained.times, List.mem_append] at hx ⊢
  rcases hx with (((hx | hx) | hx) | hx) | hx
  · exact .inl (.inl (.inl (.inl (hsub _ hd.states hx))))
  · exact .inl (.inl (.inl (.inr (hsub _ hd.seq hx))))
  · exact .inl (.inl (.inr (hsub _ hd.inflight hx)))
  · exact .inl (.inr (hsub _ hd.rtt hx))
  · exact .inr (hsub _ hd.throughput hx)

lemma times_push {x : Sample} {y : Nanos} (h : y ∈ (k.push x).times) : y ∈ k.times ∨ y = x.t := by
  cases x <;>
    simp only [Retained.push, Retained.times, Sample.t, List.map_append, List.map_cons,
      List.map_nil, List.mem_append, List.mem_singleton] at h ⊢ <;> tauto

/-- What grows adds times of the samples pushed. -/
lemma times_grows {P : Sample → Prop} (hg : Grows P k k') {Q : Nanos → Prop}
    (hk : ∀ x ∈ k.times, Q x) (hP : ∀ x, P x → Q x.t) : ∀ x ∈ k'.times, Q x := by
  refine hg.keeps (I := fun k => ∀ x ∈ k.times, Q x) hk (fun k k' h hd x hx => ?_) ?_
  · exact h x (times_drop hd hx)
  · intro k s h hs x hx
    rcases times_push hx with hx | rfl
    · exact h x hx
    · exact hP s hs

lemma times_aged (h : ℕ) {x : Nanos} (hx : x ∈ (aged h c).kept.times) : x ∈ c.kept.times :=
  times_drop (dropsFronts_age h c.kept) hx

/-- A connection that records between its opening and the clock, and is then aged. -/
lemma Since.grows {now' : Nanos} {c' : ConnTrack} {P : Sample → Prop} (hs : Since now c)
    (hg : Grows P c.kept c'.kept) (hopen : c'.openedAt = c.openedAt) (hnow : now.ns ≤ now'.ns)
    (hP : ∀ s, P s → c.openedAt.ns ≤ s.t.ns ∧ s.t.ns ≤ now'.ns) (h : ℕ) :
    Since now' (aged h c') := by
  intro y hy
  rw [show (aged h c').openedAt = c.openedAt from hopen]
  refine times_grows hg (Q := fun y => c.openedAt.ns ≤ y.ns ∧ y.ns ≤ now'.ns) (fun y hy => ?_)
    hP y (times_aged h hy)
  obtain ⟨hlo, hhi⟩ := hs y hy
  exact ⟨hlo, hhi.trans hnow⟩

/-- On items in time order no retained sample lies before its connection was opened, or after
the clock. -/
theorem since_track {items : List Item} (hord : items.Pairwise fun a b => a.ts.ns ≤ b.ts.ns) :
    ∀ c ∈ (Tracker.track cfg items).conns, Since (Tracker.track cfg items).now c := by
  induction items using List.reverseRecOn with
  | nil => simp [Tracker.new]
  | append_singleton p x ih =>
      have hnow := (steps_of_sorted cfg hord p x List.prefix_rfl).1
      have hsound := sound_track cfg p
      replace ih := ih (List.pairwise_append.mp hord).1
      have hmax : max (Tracker.track cfg p).now x.ts = x.ts := Nanos.max_eq_right hnow
      intro c hmem
      rw [Tracker.track_snoc] at hmem ⊢
      cases came_of_mem (counted_track cfg p).balance x c hmem with
      | apart hc hj =>
          rw [now_segment]
          intro y hy
          obtain ⟨hlo, hhi⟩ := ih _ (List.mem_of_getElem? hc) y (times_aged _ hy)
          exact ⟨hlo, hhi.trans (by simp)⟩
      | @joined seg _ c hj hc =>
          rw [Item.ts] at hmax hnow
          rw [now_segment, hmax]
          have hr := recorded_join cfg ((Tracker.track cfg p).slot c) seg
          have hs := hsound c (List.mem_of_getElem? hc)
          have hsince : Since (Tracker.track cfg p).now (accounted c seg) := by
            unfold Since
            rw [accounted_kept, accounted_openedAt]
            exact ih c (List.mem_of_getElem? hc)
          refine hsince.grows hr.grows (eq_of_core ConnTrack.openedAt hr.core) hnow
            (fun s hs' => ?_) _
          rw [hs', accounted_openedAt]
          exact ⟨hs.opened.trans (hs.last.trans hnow), le_rfl⟩
      | @opened seg hj =>
          rw [Item.ts] at hmax
          rw [now_segment, hmax]
          have hr := recorded_found cfg ((Tracker.track cfg p).slot
            (freshTrack ((Tracker.track cfg p).nextId seg.pair) seg)) seg
          have hsince : Since seg.ts (freshTrack ((Tracker.track cfg p).nextId seg.pair) seg) := by
            unfold Since
            rw [kept_freshTrack]
            simp [Retained.times]
          refine hsince.grows hr.grows (eq_of_core ConnTrack.openedAt hr.core) le_rfl
            (fun s hs' => ?_) _
          rw [hs', openedAt_freshTrack]
          exact ⟨le_rfl, le_rfl⟩
      | inert hw hc =>
          rw [observe_tick_failFast hw]
          exact ih _ hc
      | @ticked at_ c c' hw hc hf _ =>
          rw [now_step hw]
          have hs := hsound c hc
          refine (ih c hc).grows hf.grows (eq_of_core ConnTrack.openedAt hf.core) (by simp)
            (fun s hs' => ?_) _
          rw [hs'.1]
          exact ⟨(hs.opened.trans hs.last).trans (by simp), le_rfl⟩

/-! ### A tick, exactly -/

/-- A pass that leaves the flag alone does the same to every connection, but for the count. -/
lemma forall₂_eachSlot {f : Slot → Slot} (hf : ∀ s, (f s).overflowed = s.overflowed)
    (cs : List ConnTrack) (n : ℕ) (o : Bool) :
    List.Forall₂ (fun c c' => ∃ m, c' = (f ⟨c, m, o⟩).track) cs
      (Tracker.eachSlot f cs n o).1 := by
  induction cs generalizing n with
  | nil => exact .nil
  | cons c cs ih =>
      refine .cons ⟨n, rfl⟩ ?_
      rw [hf]
      exact ih _

/-- A connection after the decay samples of a tick at `now`, when `m` samples are retained. -/
def sampled (cfg : EngineConfig) (now : Nanos) (c : ConnTrack) (m : ℕ) : ConnTrack :=
  (Slot.decay cfg now ⟨c, m, false⟩).track

lemma sampled_eq (cfg : EngineConfig) (now : Nanos) (c : ConnTrack) (m : ℕ) :
    sampled cfg now c m = (recordAll cfg (decayPlan cfg now c) ⟨c, m, false⟩).track := by
  rw [sampled, decay_eq]

lemma core_sampled (cfg : EngineConfig) (now : Nanos) (c : ConnTrack) (m : ℕ) :
    core (sampled cfg now c m) = core c := (recorded_decay cfg now ⟨c, m, false⟩).core

lemma evictable_sampled (cfg : EngineConfig) (now : Nanos) (c : ConnTrack) (h m : ℕ) :
    (aged h (sampled cfg now c m)).evictable cfg h now = c.evictable cfg h now :=
  eq_of_core (fun c => c.evictable cfg h now) (core_sampled cfg now c m)

section Tick

variable (hn : Counted cfg t) (hw : cfg.retention.window.isSome) (at_ : Nanos)

include hn hw

/-- The connections after a tick: sampled, aged, and the dead ones gone. -/
lemma forall₂_tick : ∃ cs, List.Forall₂ (fun c c' => ∃ m, c' = sampled cfg (max t.now at_) c m)
      t.conns cs ∧
    (t.observe cfg (.tick at_)).conns =
      (cs.map (aged (horizonAt cfg (max t.now at_)))).filter
        fun c => !c.evictable cfg (horizonAt cfg (max t.now at_)) (max t.now at_) := by
  obtain ⟨w, hw'⟩ := Option.isSome_iff_exists.mp hw
  have hflag : ∀ s : Slot, (s.decay cfg (max t.now at_)).overflowed = s.overflowed :=
    fun s => (recorded_decay cfg (max t.now at_) s).evict hw
  refine ⟨_, forall₂_eachSlot hflag t.conns t.collectedSamples false, ?_⟩
  rw [observe_tick_eq hn.balance hw, conns_evictDeadConnections hw', recording_tick hw]
  simp only [agedTracker, decayed, hn.evict hw]
  rfl

lemma of_mem_tick {c' : ConnTrack} (h : c' ∈ (t.observe cfg (.tick at_)).conns) :
    ∃ c ∈ t.conns, ∃ m, c' = aged (horizonAt cfg (max t.now at_))
        (sampled cfg (max t.now at_) c m) ∧
      c.evictable cfg (horizonAt cfg (max t.now at_)) (max t.now at_) = false := by
  obtain ⟨cs, hall, heq⟩ := forall₂_tick hn hw at_
  rw [heq] at h
  obtain ⟨h, hlive⟩ := List.mem_filter.mp h
  obtain ⟨d, hd, rfl⟩ := List.mem_map.mp h
  obtain ⟨c, hc, m, rfl⟩ := forall₂_mem_right hall hd
  rw [evictable_sampled] at hlive
  exact ⟨c, hc, m, rfl, by simpa using hlive⟩

lemma mem_tick (hc : c ∈ t.conns)
    (hlive : c.evictable cfg (horizonAt cfg (max t.now at_)) (max t.now at_) = false) :
    ∃ m, aged (horizonAt cfg (max t.now at_)) (sampled cfg (max t.now at_) c m) ∈
      (t.observe cfg (.tick at_)).conns := by
  obtain ⟨cs, hall, heq⟩ := forall₂_tick hn hw at_
  obtain ⟨d, hd, m, rfl⟩ := forall₂_mem_right hall.flip hc
  refine ⟨m, ?_⟩
  rw [heq]
  refine List.mem_filter.mpr ⟨List.mem_map_of_mem hd, ?_⟩
  rw [evictable_sampled, hlive]
  rfl

end Tick

/-! ### What a tick records -/

lemma plan_eq_nil_iff {β : Type} (collect : Bool) (f : Direction → Option β)
    (g : Direction → β → Sample) :
    (if collect then Direction.both.filterMap fun dir => (f dir).map (g dir) else []) = [] ↔
      (collect = true → ∀ dir, f dir = none) := by
  cases collect with
  | false => simp
  | true =>
      simp only [if_true, List.filterMap_eq_nil_iff, Option.map_eq_none_iff, forall_const]
      exact ⟨fun h dir => h dir (by cases dir <;> simp [Direction.both]), fun h dir _ => h dir⟩

/-- Nothing is recorded of a connection not yet idle exactly if it is silent. -/
lemma decayPlan_eq_nil_iff (hidle : now.ns - c.lastAt.ns ≤ cfg.deadAfter.ns) :
    decayPlan cfg now c = [] ↔ Silent cfg now c := by
  rw [decayPlan, if_neg (by omega), List.append_eq_nil_iff]
  exact and_congr (plan_eq_nil_iff _ _ _) (plan_eq_nil_iff _ _ _)

/-- Decay samples are no metric samples, so each shows in a detail series. -/
lemma mem_times_push {x : Sample} (hx : x ∈ decayPlan cfg now c) (k : Retained) :
    x.t ∈ (k.push x).times := by
  unfold decayPlan throughputPlan inflightPlan at hx
  cases x with
  | inflight y => simp [Retained.push, Retained.times, Sample.t]
  | throughput y => simp [Retained.push, Retained.times, Sample.t]
  | _ => split_ifs at hx <;> simp at hx

/-- Under eviction the last sample of a plan is retained. -/
lemma exists_push_recordAll (hw : cfg.retention.window.isSome) {s : Slot}
    (ho : s.overflowed = false) (xs : List Sample) (x : Sample) :
    ∃ k : Retained, (recordAll cfg (xs ++ [x]) s).track.kept = k.push x := by
  have hflag : (recordAll cfg xs s).overflowed = false :=
    ((recorded_any cfg xs s).evict hw).trans ho
  rw [recordAll_append, recordAll_cons, recordAll_nil, Slot.record, if_neg (by simp [hflag])]
  have h := store_cases cfg (recordAll cfg xs s) x
  generalize (recordAll cfg xs s).store cfg x = s' at h
  cases h with
  | room => exact ⟨_, rfl⟩
  | swap => exact ⟨_, rfl⟩
  | spill => exact ⟨_, rfl⟩
  | refuse _ hw' => simp [hw'] at hw

lemma times_age {h : ℕ} {x : Nanos} (hx : x ∈ k.times) (hfresh : h ≤ x.ns) :
    x ∈ (age h k).times := by
  have hmem {α : Type} (time : α → Nanos) (floor : ℕ) {l : List α} (hl : x ∈ l.map time) :
      x ∈ (Lib.Ageing.age (fun y => (time y).ns) h floor l).map time := by
    obtain ⟨y, hy, rfl⟩ := List.mem_map.mp hl
    exact List.mem_map_of_mem (Lib.Ageing.mem_age hy hfresh)
  simp only [Retained.times, List.mem_append, age] at hx ⊢
  rcases hx with (((hx | hx) | hx) | hx) | hx
  · exact .inl (.inl (.inl (.inl (hmem _ 1 hx))))
  · exact .inl (.inl (.inl (.inr (hmem _ 0 hx))))
  · exact .inl (.inl (.inr (hmem _ 0 hx)))
  · exact .inl (.inr (hmem _ 0 hx))
  · exact .inr (hmem _ 0 hx)

/-- A tick leaves a sample of its own time on every connection it samples. -/
lemma now_mem_sampled (hw : cfg.retention.window.isSome) (hne : decayPlan cfg now c ≠ []) (m : ℕ) :
    now ∈ (aged (horizonAt cfg now) (sampled cfg now c m)).kept.times := by
  obtain ⟨xs, x, hx⟩ := (List.eq_nil_or_concat _).resolve_left hne
  rw [List.concat_eq_append] at hx
  have hmem : x ∈ decayPlan cfg now c := by
    rw [hx]
    simp
  obtain ⟨k, hk⟩ := exists_push_recordAll hw (s := ⟨c, m, false⟩) rfl xs x
  have htime := mem_times_push hmem k
  rw [(detail_decayPlan x hmem).1] at htime
  rw [aged_kept, sampled_eq, hx, hk]
  refine times_age htime ?_
  unfold horizonAt
  split <;> omega

/-! ### Exactness -/

/-- An item in time order. -/
structure InOrder (cfg : EngineConfig) (t : Tracker) (x : Item) : Prop where
  now_le : t.now.ns ≤ x.ts.ns
  since : ∀ c ∈ (t.observe cfg x).conns, Since (t.observe cfg x).now c

lemma steps_inOrder (cfg : EngineConfig) {items : List Item}
    (hord : items.Pairwise fun a b => a.ts.ns ≤ b.ts.ns) :
    Steps (Tracker.observe cfg) Tracker.new (InOrder cfg) items := by
  intro p x hp
  refine ⟨(steps_of_sorted cfg hord p x hp).1, ?_⟩
  have := @since_track cfg _ (hord.sublist hp.sublist)
  rwa [Tracker.track_snoc] at this

/-- What ends by its last activity is spanned. -/
lemma Spanned.of_le (hs : Since now c)
    (h : c.state.terminal = true → ∀ x ∈ c.kept.times, x.ns ≤ c.lastAt.ns) : Spanned now c := by
  intro x hx
  refine ⟨(hs x hx).1, ?_⟩
  split
  · next ht => exact h ht x hx
  · exact (hs x hx).2

/-- A segment leaves every connection spanned. -/
lemma spanned_segment {seg : Segment} (hn : Counted cfg t) (hx : InOrder cfg t (.segment seg))
    (h : ∀ c ∈ t.conns, Spanned t.now c) :
    ∀ c ∈ (t.observe cfg (.segment seg)).conns,
      Spanned (t.observe cfg (.segment seg)).now c := by
  intro c' hc'
  refine Spanned.of_le (hx.since c' hc') fun hterm => ?_
  have hmax : max t.now seg.ts = seg.ts := Nanos.max_eq_right hx.now_le
  have hend := hx.since c' hc'
  rw [now_segment, hmax] at hend
  cases came_of_mem hn.balance (.segment seg) c' hc' with
  | @apart _ j c hc hj =>
      intro x hx
      have := (h c (List.mem_of_getElem? hc) x (times_aged _ hx)).2
      rwa [if_pos (show c.state.terminal = true from hterm)] at this
  | @joined _ i c hj hc =>
      have hlast := (eq_of_core ConnTrack.lastAt
        (recorded_join cfg (t.slot c) seg).core).trans (accounted_lastAt c seg)
      intro x hx
      rw [show (aged _ _).lastAt = max c.lastAt seg.ts from hlast, Nanos.ns_max]
      exact (hend x hx).2.trans (le_max_right _ _)
  | @opened _ hj =>
      have hlast := (eq_of_core ConnTrack.lastAt (recorded_found cfg
        (t.slot (freshTrack (t.nextId seg.pair) seg)) seg).core).trans (lastAt_freshTrack _ seg)
      intro x hx
      rw [show (aged _ _).lastAt = seg.ts from hlast]
      exact (hend x hx).2

/-- A tick leaves every connection spanned exactly if it is quiet. -/
lemma spanned_tick_iff (hw : cfg.retention.window.isSome) (hn : Counted cfg t) {at_ : Nanos}
    (hx : InOrder cfg t (.tick at_)) (h : ∀ c ∈ t.conns, Spanned t.now c) :
    (∀ c ∈ (t.observe cfg (.tick at_)).conns, Spanned (t.observe cfg (.tick at_)).now c) ↔
      Quiet cfg t (.tick at_) := by
  have hlater := hx.since
  rw [now_step hw] at hlater ⊢
  rw [Item.ts] at hlater ⊢
  constructor
  · rintro hall c hc ⟨hterm, hlt, hidle, hfresh⟩
    rw [← decayPlan_eq_nil_iff hidle]
    by_contra hne
    obtain ⟨m, hmem⟩ := mem_tick (c := c) hn hw at_ hc (by
      simp [ConnTrack.evictable, hfresh])
    have hspan := (hall _ hmem _ (now_mem_sampled hw hne m)).2
    have hend := eq_of_core (fun c => if c.state.terminal then c.lastAt else max t.now at_)
      (core_sampled cfg (max t.now at_) c m)
    rw [show (if (aged _ _).state.terminal then (aged _ _).lastAt else max t.now at_) = _ from hend,
      if_pos hterm] at hspan
    omega
  · intro hquiet c' hc'
    refine Spanned.of_le (hlater c' hc') fun hterm x hx => ?_
    obtain ⟨c, hc, m, rfl, hlive⟩ := of_mem_tick hn hw at_ hc'
    have hcore := core_sampled cfg (max t.now at_) c m
    have hterm' : c.state.terminal = true :=
      (eq_of_core (fun c => c.state.terminal) hcore).symm.trans hterm
    rw [show (aged _ _).lastAt = c.lastAt from eq_of_core ConnTrack.lastAt hcore]
    have hold : ∀ x ∈ c.kept.times, x.ns ≤ c.lastAt.ns := by
      intro x hx
      have := (h c hc x hx).2
      rwa [if_pos hterm'] at this
    by_cases hlin : Lingers cfg (max t.now at_) c
    · -- nothing was recorded
      have hnil := (decayPlan_eq_nil_iff hlin.2.2.1).mpr (hquiet c hc hlin)
      rw [sampled_eq, hnil, recordAll_nil] at hx
      exact hold x (times_aged _ hx)
    · by_cases hlt : c.lastAt.ns < (max t.now at_).ns
      · -- idle for too long, for it was not evicted
        have hidle : cfg.deadAfter.ns < (max t.now at_).ns - c.lastAt.ns := by
          have hfresh : horizonAt cfg (max t.now at_) ≤ c.lastAt.ns := by
            simpa [ConnTrack.evictable, hterm'] using hlive
          by_contra hle
          exact hlin ⟨hterm', hlt, by omega, hfresh⟩
        rw [sampled_eq, decayPlan, if_pos hidle, recordAll_nil] at hx
        exact hold x (times_aged _ hx)
      · exact ((hlater _ hc' x hx).2).trans (by omega)

/-- **Decay samples and lives, exactly.** Under eviction, on items in time order, every
retained sample of every snapshot lies in its connection's span, if and only if no tick
records anything of a connection that ended before it. -/
theorem inside_iff_quiet (cfg : EngineConfig) (hw : cfg.retention.window.isSome)
    (items : List Item) (hord : items.Pairwise fun a b => a.ts.ns ≤ b.ts.ns) :
    Always (Tracker.observe cfg) Tracker.new (fun t => t.snapshot.Inside) items ↔
      Steps (Tracker.observe cfg) Tracker.new (Quiet cfg) items := by
  have hspanned : Always (Tracker.observe cfg) Tracker.new (fun t => t.snapshot.Inside) items ↔
      Always (Tracker.observe cfg) Tracker.new (fun t => ∀ c ∈ t.conns, Spanned t.now c) items :=
    forall₂_congr fun p _ => inside_snapshot_iff (indexed_track cfg p)
  rw [hspanned]
  refine always_iff_steps_of (steps_inOrder cfg hord) (fun p _ => counted_track cfg p)
    (by simp [Tracker.new]) fun t x hn hx h => ?_
  cases x with
  | segment seg => exact iff_of_true (spanned_segment hn hx h) trivial
  | tick at_ => exact spanned_tick_iff hw hn hx h

instance (now : Nanos) (c : ConnTrack) : Decidable (Spanned now c) :=
  inferInstanceAs (Decidable (∀ x ∈ c.kept.times, _ ∧ _))

/-- A minute of retention, the in-flight graph on. -/
def minute : EngineConfig where
  retention := .evict (Nanos.sat 60000000000) 1000
  collectInflightTimeline := true

/-- Data, a reset, and a tick a second later. -/
def resetThenTick : List Item :=
  [.segment (.between 1 2 0 TcpFlags.ACK 100 10), .segment (.between 2 1 5 TcpFlags.RST 7),
    .tick (Nanos.sat 1000000000)]

theorem inside_iff_quiet_reset :
    Always (Tracker.observe minute) Tracker.new (fun t => t.snapshot.Inside) resetThenTick ↔
      Steps (Tracker.observe minute) Tracker.new (Quiet minute) resetThenTick :=
  inside_iff_quiet minute rfl resetThenTick (by decide +kernel)

/-- The tick samples the reset connection, a second past its end. -/
theorem reset_sampled :
    ¬ ∀ (cfg : EngineConfig) (items : List Item), cfg.retention.window.isSome →
      (items.Pairwise fun a b => a.ts.ns ≤ b.ts.ns) →
        Always (Tracker.observe cfg) Tracker.new (fun t => t.snapshot.Inside) items := by
  intro h
  have hlast := h minute resetThenTick rfl (by decide +kernel) resetThenTick List.prefix_rfl
  have hspan := (inside_snapshot_iff (indexed_track minute resetThenTick)).mp hlast
  revert hspan
  decide +kernel

end Decay

end TcpVisr
