import TcpVisr.Kept

/-!
The window law.

The ageing pass pops from the front, so it clears a series of everything older than the
horizon when the old samples stand in front of the others. A sample that arrives late, behind
one that is still inside the window, breaks that order and outstays the window.
-/

namespace TcpVisr.Window

open Lib.Runs Recording Slots Plan Passes Lifecycle Index Steps Kept

/-- **The law**, at horizon `h`: nothing retained is older, except that the snapshots may be
down to a single older one, the one recorded last. -/
structure InWindow (h : ℕ) (last : Option StateSample) (k : Retained) : Prop where
  states : (∀ x ∈ k.states, h ≤ x.t.ns) ∨ ∃ x, k.states = [x] ∧ last = some x
  series : ∀ x ∈ k.series, h ≤ x.t.ns
  seq : ∀ x ∈ k.seq, h ≤ x.t.ns
  inflight : ∀ x ∈ k.inflight, h ≤ x.t.ns
  rtt : ∀ x ∈ k.rtt, h ≤ x.t.ns
  throughput : ∀ x ∈ k.throughput, h ≤ x.t.ns

/-- The law on every tracked connection, after `items`. -/
def WindowLaw (cfg : EngineConfig) (w : Nanos) (items : List Item) : Prop :=
  ∀ c ∈ (Tracker.track cfg items).conns,
    InWindow ((Tracker.track cfg items).now.ns - w.ns) (latest cfg items c.id) c.kept

/-- In a series, what is older than `h` stands in front of what is not. -/
def OldFirst (h : ℕ) (α : Type) (time : α → Nanos) (l : List α) : Prop :=
  Lib.Ageing.OldFirst (fun x => (time x).ns) h l

/-- The times of the series that a sample is appended to. -/
def times (k : Retained) : Sample → List Nanos
  | .state _ => k.states.map StateSample.t
  | .metric _ => k.series.map MetricSample.t
  | .seq _ => k.seq.map SeqSample.t
  | .inflight _ => k.inflight.map InFlightSample.t
  | .rtt _ => k.rtt.map RttSample.t
  | .throughput _ => k.throughput.map ThroughputSample.t

/-- Every sample of the series that `x` is appended to is older than `h`. -/
def Behind (h : ℕ) (k : Retained) (x : Sample) : Prop := ∀ n ∈ times k x, n.ns < h

/-- What an item has to find, at the horizon it leads to: in every series of a connection that
stays, the old samples in front; and, for a segment that is itself old, no fresh sample in
any series it adds to. -/
def Ages (cfg : EngineConfig) (w : Nanos) (t : Tracker) : Item → Prop
  | .segment seg =>
    let h := (max t.now seg.ts).ns - w.ns
    (∀ c ∈ t.conns, AllSeries (OldFirst h) c.kept) ∧
      (seg.ts.ns < h → ∀ c ∈ target cfg t seg, ∀ x ∈ (joinPlan cfg c seg).2, Behind h c.kept x)
  | .tick at_ =>
    let h := (max t.now at_).ns - w.ns
    ∀ c ∈ t.conns, c.evictable cfg h (max t.now at_) = false → AllSeries (OldFirst h) c.kept

instance (h : ℕ) (α : Type) (time : α → Nanos) (l : List α) : Decidable (OldFirst h α time l) :=
  inferInstanceAs (Decidable (List.Pairwise _ _))

instance (h : ℕ) (k : Retained) (x : Sample) : Decidable (Behind h k x) :=
  inferInstanceAs (Decidable (∀ n ∈ _, _))

instance (cfg : EngineConfig) (w : Nanos) (t : Tracker) : ∀ x, Decidable (Ages cfg w t x)
  | .segment _ => inferInstanceAs (Decidable (_ ∧ _))
  | .tick _ => inferInstanceAs (Decidable (∀ c ∈ _, _))

variable {cfg : EngineConfig} {w : Nanos} {t : Tracker} {seg : Segment} {h : ℕ} {k k' : Retained}

/-! ### What ageing achieves -/

lemma inWindow_age (ho : AllSeries (OldFirst h) k) {last : Option StateSample}
    (hl : (age h k).states.getLast? = last) : InWindow h last (age h k) := by
  have hfresh : ∀ {α : Type} {time : α → Nanos} {l : List α}, OldFirst h α time l →
      ∀ x ∈ Lib.Ageing.age (fun x => (time x).ns) h 0 l, h ≤ (time x).ns := by
    intro α time l ho x hx
    rcases Lib.Ageing.fresh_of_oldFirst ho with hall | hlen
    · exact hall x hx
    · rw [List.length_eq_zero_iff.mp (Nat.le_zero.mp hlen)] at hx
      simp at hx
  refine ⟨?_, hfresh ho.series, hfresh ho.seq, hfresh ho.inflight, hfresh ho.rtt,
    hfresh ho.throughput⟩
  rcases Lib.Ageing.fresh_of_oldFirst (k := 1) ho.states with hall | hlen
  · exact Or.inl hall
  · change (age h k).states.length ≤ 1 at hlen
    generalize (age h k).states = l at hl hlen
    match l with
    | [] => exact Or.inl (by simp)
    | [x] => exact Or.inr ⟨x, rfl, by simpa using hl.symm⟩
    | _ :: _ :: _ => simp at hlen

/-! ### What recording keeps -/

lemma oldFirst_drop (ho : AllSeries (OldFirst h) k) (hd : DropsFronts k k') :
    AllSeries (OldFirst h) k' :=
  ho.drop hd fun _ _ _ _ hs hl => Lib.Ageing.OldFirst.suffix hl hs

/-- A fresh sample never gets in front of an old one. -/
lemma oldFirst_grows {n : Nanos} (hg : Grows (fun x => x.t = n) k k') (hn : h ≤ n.ns)
    (ho : AllSeries (OldFirst h) k) : AllSeries (OldFirst h) k' := by
  refine hg.keeps (I := AllSeries (OldFirst h)) ho (fun _ _ => oldFirst_drop) fun k x hk hx => ?_
  refine hk.push fun _ time l y hy hl => hl.append_fresh fun z hz => ?_
  rw [List.mem_singleton.mp hz, hy, hx]
  exact hn

/-- Samples of one time are all old or all fresh. -/
lemma oldFirst_grows_empty {n : Nanos} (hg : Grows (fun x => x.t = n) {} k) :
    AllSeries (OldFirst h) k := by
  have hone : AllSeries (fun _ time l => ∀ x ∈ l, time x = n) k := by
    refine hg.keeps (I := AllSeries fun _ time l => ∀ x ∈ l, time x = n)
      (by constructor <;> simp) (fun k k' hk hd => ?_) fun k x hk hx => ?_
    · exact hk.drop hd fun _ _ _ _ hs hl x hx => hl x (hs.subset hx)
    · refine hk.push fun _ _ l y hy hl z hz => ?_
      rcases List.mem_append.mp hz with hz | hz
      · exact hl z hz
      · rw [List.mem_singleton.mp hz, hy, hx]
  refine hone.imp fun _ time l hl => List.pairwise_of_forall_mem_list fun a ha b hb hlt => ?_
  dsimp only at hlt ⊢
  rwa [hl a ha, ← hl b hb]

/-- An old sample may follow old samples. -/
lemma oldFirst_push {x : Sample} (ho : AllSeries (OldFirst h) k) (hb : Behind h k x)
    (hx : x.t.ns < h) : AllSeries (OldFirst h) (k.push x) := by
  have hall : ∀ {α : Type} {time : α → Nanos} {l : List α} {y : α},
      (∀ n ∈ l.map time, n.ns < h) → (time y).ns < h → OldFirst h α time (l ++ [y]) := by
    intro α time l y hl hy
    refine Lib.Ageing.OldFirst.append_old (fun z hz => hl _ (List.mem_map_of_mem hz)) fun z hz => ?_
    rw [List.mem_singleton.mp hz]
    exact hy
  cases x with
  | state x => exact { ho with states := hall hb hx }
  | metric x => exact { ho with series := hall hb hx }
  | seq x => exact { ho with seq := hall hb hx }
  | inflight x => exact { ho with inflight := hall hb hx }
  | rtt x => exact { ho with rtt := hall hb hx }
  | throughput x => exact { ho with throughput := hall hb hx }

lemma behind_push {x y : Sample} (hx : Behind h k x) (hy : y.t.ns < h) :
    Behind h (k.push y) x := by
  have hp : times (k.push y) x = times k x ∨ times (k.push y) x = times k x ++ [y.t] := by
    cases x <;> cases y <;> simp [times, Retained.push, Sample.t]
  intro n hn
  rcases hp with hp | hp
  · exact hx n (hp ▸ hn)
  · rw [hp] at hn
    rcases List.mem_append.mp hn with hn | hn
    · exact hx n hn
    · rw [List.mem_singleton.mp hn]
      exact hy

lemma behind_drop {x : Sample} (hx : Behind h k x) (hd : DropsFronts k k') : Behind h k' x := by
  have hs : times k' x <:+ times k x := by
    cases x
    · exact hd.states.map _
    · exact hd.series.map _
    · exact hd.seq.map _
    · exact hd.inflight.map _
    · exact hd.rtt.map _
    · exact hd.throughput.map _
  exact fun n hn => hx n (hs.subset hn)

/-- Old samples appended where nothing is fresh keep the old ones in front. -/
lemma oldFirst_grows_old {xs : List Sample} (hg : Grows (· ∈ xs) k k')
    (hold : ∀ x ∈ xs, x.t.ns < h) (hb : ∀ x ∈ xs, Behind h k x) (ho : AllSeries (OldFirst h) k) :
    AllSeries (OldFirst h) k' := by
  refine (hg.keeps (I := fun k => AllSeries (OldFirst h) k ∧ ∀ x ∈ xs, Behind h k x) ⟨ho, hb⟩
    (fun k k' hk hd => ⟨oldFirst_drop hk.1 hd, fun x hx => behind_drop (hk.2 x hx) hd⟩)
    fun k x hk hx => ⟨oldFirst_push hk.1 (hk.2 x hx) (hold x hx), fun y hy =>
      behind_push (hk.2 y hy) (hold x hx)⟩).1

lemma t_of_mem_joinPlan {c : ConnTrack} : ∀ x ∈ (joinPlan cfg c seg).2, x.t = seg.ts := by
  intro x hx
  rcases List.mem_append.mp hx with hx | hx
  · unfold statePlan at hx
    split at hx
    · rw [List.mem_singleton.mp hx]
      rfl
    · simp at hx
  · exact (detail_derivePlan x hx).1

/-- Under eviction the connection a segment joins grows by the samples of its plan. -/
lemma grows_join {s : Slot} (hw : cfg.retention.window.isSome) (ho : s.overflowed = false) :
    Grows (· ∈ (joinPlan cfg s.track seg).2) s.track.kept (s.join cfg seg).track.kept := by
  rw [join_eq (Or.inl (((recorded_join cfg s seg).evict hw).trans ho)), recordAll_rederive,
    rederive_kept]
  have hg := (recorded_recordAll cfg (P := (· ∈ (joinPlan cfg s.track seg).2))
    (fun _ hx => hx) { s with track := accounted s.track seg }).grows
  rwa [accounted_kept] at hg

/-! ### The law -/

/-- A step that finds what it has to leads to series that ageing clears. -/
lemma exists_oldFirst (hw : cfg.retention.window = some w) (hn : Counted cfg t) {x : Item}
    (ha : Ages cfg w t x) {c : ConnTrack} (hc : Came cfg t x c) :
    ∃ d, c = aged ((max t.now x.ts).ns - w.ns) d ∧
      AllSeries (OldFirst ((max t.now x.ts).ns - w.ns)) d.kept := by
  have hw' : cfg.retention.window.isSome := by simp [hw]
  cases hc with
  | apart hc hj =>
      rw [horizonAt_some hw]
      exact ⟨_, rfl, ha.1 _ (List.mem_of_getElem? hc)⟩
  | @joined seg _ c hj hc =>
      rw [horizonAt_some hw]
      refine ⟨_, rfl, ?_⟩
      have ho := ha.1 c (List.mem_of_getElem? hc)
      by_cases hlate : seg.ts.ns < (max t.now seg.ts).ns - w.ns
      · refine oldFirst_grows_old (grows_join (s := t.slot c) hw' (hn.evict hw'))
          (fun y hy => ?_) (ha.2 hlate c (target_of_joins hj hc)) ho
        rw [t_of_mem_joinPlan y hy]
        exact hlate
      · have hg := (recorded_join cfg (t.slot c) seg).grows
        simp only [Tracker.slot, accounted_kept] at hg
        exact oldFirst_grows hg (by simpa [Item.ts] using hlate) ho
  | @opened seg hj =>
      rw [horizonAt_some hw]
      refine ⟨_, rfl, ?_⟩
      have hg := (recorded_found cfg (t.slot (freshTrack (t.nextId seg.pair) seg))
        seg).grows
      simp only [Tracker.slot, kept_freshTrack] at hg
      exact oldFirst_grows_empty hg
  | inert hw'' => simp [hw''] at hw
  | @ticked at_ c c' _ hc hf he =>
      rw [horizonAt_some hw] at he ⊢
      exact ⟨_, rfl, oldFirst_grows (hf.grows.imp fun _ h => h.1) (Nat.sub_le _ _) (ha c hc he)⟩

/-- **The window law.** In a run whose every step finds the old samples in front, and in
which no old segment adds to a series that has a fresh sample, nothing outstays the window. -/
theorem window_law (hw : cfg.retention.window = some w) {items : List Item}
    (hs : Steps (Tracker.observe cfg) Tracker.new (Ages cfg w) items) :
    ∀ p, p <+: items → WindowLaw cfg w p := by
  intro p hp
  rcases p.eq_nil_or_concat' with rfl | ⟨q, x, rfl⟩
  · intro c hc
    simp [Tracker.new] at hc
  · intro c hc
    have hw' : cfg.retention.window.isSome := by simp [hw]
    have hlast := (keepsLatest_track hw' (q ++ [x]) c hc).last
    have hn := counted_track cfg q
    rw [Tracker.track_snoc] at hc ⊢
    obtain ⟨d, rfl, ho⟩ := exists_oldFirst hw hn (hs q x hp) (came_of_mem hn.balance x c hc)
    rw [now_step hw']
    exact inWindow_age ho hlast

/-- On items in time order every step finds what it has to. -/
theorem ages_of_sorted {items : List Item} (hord : items.Pairwise fun a b => a.ts.ns ≤ b.ts.ns) :
    Steps (Tracker.observe cfg) Tracker.new (Ages cfg w) items := by
  intro p x hp
  have hall : ∀ h, ∀ c ∈ (Tracker.track cfg p).conns, AllSeries (OldFirst h) c.kept := fun h c hc =>
    (inTime_track (hord.sublist ((List.prefix_append p [x]).trans hp).sublist) c hc).imp
      fun _ _ _ hl => Lib.Ageing.OldFirst.of_sorted hl.1 h
  have hnow := (steps_of_sorted cfg hord p x hp).1
  change (Tracker.track cfg p).now.ns ≤ x.ts.ns at hnow
  cases x with
  | segment seg =>
      refine ⟨hall _, fun hlate => absurd hlate ?_⟩
      rw [Nanos.ns_max]
      rw [Item.ts] at hnow
      change ¬ seg.ts.ns < max (Tracker.track cfg p).now.ns seg.ts.ns - w.ns
      omega
  | tick at_ => exact fun c hc _ => hall _ c hc

/-- A window of 50, lifecycle snapshots collected. -/
def windowConfig : EngineConfig where
  retention := .evict (Nanos.sat 50) 100
  collectStateTimeline := true

/-- A handshake whose second segment is stamped 50 before the first, and a tick. -/
def lateReply : List Item :=
  [.segment (.between 1 2 100 TcpFlags.SYN 700),
    .segment (.between 2 1 50 (TcpFlags.SYN ||| TcpFlags.ACK) 900), .tick (Nanos.sat 120)]

theorem window_law_lateReply :
    WindowLaw windowConfig (Nanos.sat 50) (lateReply.take 2) :=
  have hages : Steps (Tracker.observe windowConfig) Tracker.new
      (Ages windowConfig (Nanos.sat 50)) (lateReply.take 2) := by decide +kernel
  window_law rfl hages _ List.prefix_rfl

/-- The tick moves the horizon to 70, and the snapshot of time 50 hides behind that of 100. -/
theorem not_windowLaw :
    ¬ ∀ (cfg : EngineConfig) (w : Nanos), cfg.retention.window = some w →
      ∀ items : List Item, WindowLaw cfg w items := by
  intro h
  have hlaw := h windowConfig (Nanos.sat 50) rfl lateReply
  have hex : ∃ c ∈ (Tracker.track windowConfig lateReply).conns, c.kept.states.length = 2 ∧
      ∃ x ∈ c.kept.states,
        x.t.ns < (Tracker.track windowConfig lateReply).now.ns - (Nanos.sat 50).ns := by
    decide +kernel
  obtain ⟨c, hc, hlen, x, hx, hlt⟩ := hex
  rcases (hlaw c hc).states with hall | ⟨y, hy, -⟩
  · exact absurd (hall x hx) (not_le.mpr hlt)
  · rw [hy] at hlen
    simp at hlen

end TcpVisr.Window
