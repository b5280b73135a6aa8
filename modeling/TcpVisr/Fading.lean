import TcpVisr.Rates
import TcpVisr.Decay

/-!
How a rate fades.

Once a direction stops sending, the window moves off its data: the rates reported fall from
query to query and are zero when the window has passed the latest data. A tick queries at the
clock, which is never behind any data, so the samples that ticks record fall the same way.
-/

namespace TcpVisr.Fading

open Lib.Runs Meter Rates Recording Slots Plan Passes Lifecycle Index Steps Kept

variable {cfg : EngineConfig} {l : List Burst} {w t t₁ t₂ : ℕ}

/-! ### A window that moves on -/

lemma bps_mono {a b : ℕ} (h : a ≤ b) : bps w a ≤ bps w b :=
  min_le_min_right _ (Nat.div_le_div_right (Nat.mul_le_mul_left _ h))

lemma bytes_mono {l m : List Burst} (h : l.Sublist m) : bytes l ≤ bytes m :=
  (h.map _).sum_le_sum (by simp)

/-- Past the latest time a later window holds no more. -/
lemma within_sublist (h₁ : peak l ≤ t₁) (h₂ : t₁ ≤ t₂) :
    (within w t₂ l).Sublist (within w t₁ l) := by
  have hsub : within w t₂ l = (within w t₁ l).filter fun e => t₂ < e.1.ns + w := by
    unfold within
    rw [List.filter_filter]
    refine List.filter_congr fun e he => ?_
    have := le_peak he
    rw [Bool.eq_iff_iff]
    simp only [Bool.and_eq_true, decide_eq_true_eq]
    omega
  rw [hsub]
  exact List.filter_sublist

lemma within_eq_nil (h : peak l + w ≤ t) : within w t l = [] := by
  refine List.filter_eq_nil_iff.mpr fun e he => ?_
  have := le_peak he
  simp only [decide_eq_true_eq]
  omega

/-- Past the latest time what is reported is what was sent. -/
lemma shown_of_peak_le (hw : 0 < w) (h : peak l ≤ t) : shown w t l = rates w t l := by
  rw [shown_eq hw, lost_eq_nil h]
  rfl

lemma shown_anti (h₁ : peak l ≤ t₁) (h₂ : t₁ ≤ t₂) :
    (shown w t₂ l).1 ≤ (shown w t₁ l).1 ∧ (shown w t₂ l).2 ≤ (shown w t₁ l).2 := by
  rcases Nat.eq_zero_or_pos w with rfl | hw
  · simp [shown]
  · have hsub := within_sublist (w := w) h₁ h₂
    rw [shown_of_peak_le hw h₁, shown_of_peak_le hw (h₁.trans h₂)]
    exact ⟨bps_mono (bytes_mono hsub), bps_mono (bytes_mono (hsub.filter _))⟩

lemma shown_good_le (w t : ℕ) (l : List Burst) : (shown w t l).2 ≤ (shown w t l).1 := by
  unfold shown
  split
  · exact le_rfl
  · exact bps_mono (bytes_good_le _)

lemma shown_gone (h : peak l + w ≤ t) : shown w t l = (0, 0) := by
  rcases Nat.eq_zero_or_pos w with rfl | hw
  · simp [shown]
  · rw [shown_of_peak_le hw (by omega), rates, within_eq_nil h]
    simp [good, bytes, bps]

/-! ### One direction -/

/-- The rates of a direction fall past its latest data, the goodput below the throughput, to
zero one window later. -/
structure Fades (cfg : EngineConfig) (g : Meter) (dir : Direction) : Prop where
  answers : g.sent.get dir ≠ [] → ∀ t, (g.metrics.throughputAt dir t cfg).isSome
  anti : ∀ t₁ t₂ : Nanos, peak (g.sent.get dir) ≤ t₁.ns → t₁.ns ≤ t₂.ns →
    ∀ r₁ ∈ g.metrics.throughputAt dir t₁ cfg, ∀ r₂ ∈ g.metrics.throughputAt dir t₂ cfg,
      r₂.1 ≤ r₁.1 ∧ r₂.2 ≤ r₁.2
  good : ∀ t, ∀ r ∈ g.metrics.throughputAt dir t cfg, r.2 ≤ r.1
  gone : ∀ t : Nanos, peak (g.sent.get dir) + cfg.throughputWindow.ns ≤ t.ns →
    ∀ r ∈ g.metrics.throughputAt dir t cfg, r = (0, 0)

lemma mem_throughputAt {xs : List (Segment × Direction)} {dir : Direction} {t : Nanos}
    {r : ℕ × ℕ} (h : r ∈ (meter cfg xs).metrics.throughputAt dir t cfg) :
    r = shown cfg.throughputWindow.ns t.ns ((meter cfg xs).sent.get dir) := by
  rw [throughputAt_meter] at h
  split at h
  · simp at h
  · exact (Option.mem_some_iff.mp h).symm

lemma fades_meter (cfg : EngineConfig) (xs : List (Segment × Direction)) (dir : Direction) :
    Fades cfg (meter cfg xs) dir where
  answers h t := by
    rw [throughputAt_meter, if_neg h]
    rfl
  anti t₁ t₂ h₁ h₂ r₁ hr₁ r₂ hr₂ := by
    rw [mem_throughputAt hr₁, mem_throughputAt hr₂]
    exact shown_anti h₁ h₂
  good t r hr := by
    rw [mem_throughputAt hr]
    exact shown_good_le _ _ _
  gone t h r hr := by
    rw [mem_throughputAt hr]
    exact shown_gone h

/-! ### Where the derivation of a connection comes from -/

/-- The derivation after `xs`, from `m`. -/
def fed (cfg : EngineConfig) (m : MetricState) (xs : List (Segment × Direction)) : MetricState :=
  run (fun m x => (m.observe x.1 x.2 cfg).1) m xs

lemma metrics_meter (cfg : EngineConfig) (xs : List (Segment × Direction)) :
    (meter cfg xs).metrics = fed cfg .new xs := by
  induction xs using List.reverseRecOn with
  | nil => rfl
  | append_singleton xs x ih =>
      rw [meter, run_snoc, fed, run_snoc]
      change ((run (Meter.observe cfg) Meter.new xs).metrics.observe x.1 x.2 cfg).1 = _
      rw [← meter, ih]
      rfl

lemma fed_append (cfg : EngineConfig) (m : MetricState) (xs ys : List (Segment × Direction)) :
    fed cfg m (xs ++ ys) = fed cfg (fed cfg m xs) ys := List.foldl_append

/-- The segment `y.1`, of direction `y.2`, goes to the instance `id` in the items `q` after `p`. -/
def Given (cfg : EngineConfig) (p q : List Item) (id : ConnId) (y : Segment × Direction) : Prop :=
  ∃ q', q' ++ [.segment y.1] <+: q ∧
    (attributed cfg (Tracker.track cfg (p ++ q')) y.1).id = id ∧
    (attributed cfg (Tracker.track cfg (p ++ q')) y.1).directionOf y.1.flow.source = y.2

/-- The metrics of `c` are those that a connection of `cs` with its identity had, or blank ones,
with segments that satisfy `G` folded in. -/
def FedFrom (cfg : EngineConfig) (cs : List ConnTrack) (G : Segment × Direction → Prop)
    (c : ConnTrack) : Prop :=
  ∃ m ys, c.derived.metrics = fed cfg m ys ∧ (∀ y ∈ ys, G y) ∧
    (m = .new ∨ ∃ c₀ ∈ cs, c₀.id = c.id ∧ m = c₀.derived.metrics)

variable {t : Tracker} {c c' : ConnTrack} {cs : List ConnTrack} {p q : List Item}
  {G H : Segment × Direction → Prop} {id : ConnId} {y : Segment × Direction}

lemma Given.later (h : Given cfg p q id y) (x : Item) : Given cfg p (q ++ [x]) id y := by
  obtain ⟨q', hq, h⟩ := h
  exact ⟨q', hq.trans (List.prefix_append _ _), h⟩

lemma Given.mem (h : Given cfg p q id y) : .segment y.1 ∈ q := by
  obtain ⟨q', hq, -⟩ := h
  exact hq.subset (by simp)

lemma fedFrom_same (hc : c ∈ cs) (hid : c.id = c'.id)
    (hm : c'.derived.metrics = c.derived.metrics) : FedFrom cfg cs G c' :=
  ⟨c.derived.metrics, [], hm, by simp, Or.inr ⟨c, hc, hid, rfl⟩⟩

lemma FedFrom.trans {cs' : List ConnTrack} (h : FedFrom cfg cs' G c')
    (hcs : ∀ c ∈ cs', c.id = c'.id → FedFrom cfg cs H c) (hGH : ∀ y, G y → H y) :
    FedFrom cfg cs H c' := by
  obtain ⟨m, ys, hm, hys, hfrom⟩ := h
  rcases hfrom with rfl | ⟨c, hc, hid, rfl⟩
  · exact ⟨.new, ys, hm, fun y hy => hGH y (hys y hy), Or.inl rfl⟩
  · obtain ⟨m, zs, hmc, hzs, hfrom⟩ := hcs c hc hid
    refine ⟨m, zs ++ ys, by rw [hm, hmc, fed_append], fun y hy => ?_, by rwa [← hid]⟩
    rcases List.mem_append.mp hy with hy | hy
    · exact hzs y hy
    · exact hGH y (hys y hy)

/-- One item: a segment is folded in where it is attributed. -/
lemma fedFrom_observe (hn : Counted cfg t) (x : Item) :
    ∀ c' ∈ (t.observe cfg x).conns, FedFrom cfg t.conns
      (fun y => x = .segment y.1 ∧ (attributed cfg t y.1).id = c'.id ∧
        (attributed cfg t y.1).directionOf y.1.flow.source = y.2) c' := by
  intro c' hc'
  cases came_of_mem hn.balance x c' hc' with
  | apart hc _ => exact fedFrom_same (List.mem_of_getElem? hc) rfl rfl
  | @joined seg i c hj hc =>
      have hid := (eq_of_core ConnTrack.id (recorded_join cfg (t.slot c) seg).core).trans
        (accounted_id c seg)
      have hmem : c ∈ t.conns := List.mem_of_getElem? hc
      rcases metrics_join cfg (t.slot c) seg with hm | hm
      · exact fedFrom_same hmem hid.symm hm
      · refine ⟨c.derived.metrics, [(seg, c.directionOf seg.flow.source)], hm, ?_,
          Or.inr ⟨c, hmem, hid.symm, rfl⟩⟩
        intro y hy
        rw [List.mem_singleton.mp hy]
        dsimp only
        rw [attributed_join hj hc]
        exact ⟨rfl, (accounted_id c seg).trans hid.symm, congrFun (directionOf_accounted c seg) _⟩
  | @opened seg hj =>
      have hid := (eq_of_core ConnTrack.id (recorded_found cfg
        (t.slot (freshTrack (t.nextId seg.pair) seg)) seg).core)
      have hnew : (freshTrack (t.nextId seg.pair) seg).derived.metrics = .new := by
        obtain ⟨_, _, _, _, _, _, h⟩ := freshTrack_frame (t.nextId seg.pair) seg
        rw [h]
        rfl
      rcases metrics_found cfg (t.slot (freshTrack (t.nextId seg.pair) seg)) seg with hm | hm
      · exact ⟨.new, [], hm.trans hnew, by simp, Or.inl rfl⟩
      · refine ⟨.new, [(seg, (freshTrack (t.nextId seg.pair) seg).directionOf seg.flow.source)],
          hm.trans (by rw [Tracker.slot, hnew]; rfl), ?_, Or.inl rfl⟩
        intro y hy
        rw [List.mem_singleton.mp hy]
        dsimp only
        rw [attributed_create hj]
        exact ⟨rfl, hid.symm, rfl⟩
  | inert _ hc => exact fedFrom_same hc rfl rfl
  | ticked hw _ _ _ =>
      obtain ⟨c, hc, m, heq, -⟩ := Decay.of_mem_tick hn hw _ hc'
      rw [heq]
      refine fedFrom_same hc (eq_of_core ConnTrack.id (Decay.core_sampled _ _ _ _)).symm ?_
      rw [aged_derived, Decay.sampled_eq, recordAll_derived]

/-- **Where a derivation comes from.** -/
theorem fedFrom_track (cfg : EngineConfig) (p q : List Item) :
    ∀ c ∈ (Tracker.track cfg (p ++ q)).conns,
      FedFrom cfg (Tracker.track cfg p).conns (Given cfg p q c.id) c := by
  induction q using List.reverseRecOn with
  | nil =>
      intro c hc
      rw [List.append_nil] at hc
      exact fedFrom_same hc rfl rfl
  | append_singleton q x ih =>
      rw [← List.append_assoc, Tracker.track_snoc]
      intro c' hc'
      refine (fedFrom_observe (counted_track cfg _) x c' hc').trans
        (fun c hc hid => ?_) fun y hy => ?_
      · rw [← hid]
        exact (ih c hc).trans (fun c₀ h₀ hid₀ => fedFrom_same h₀ rfl rfl) fun y hy => hy.later x
      · obtain ⟨rfl, hy⟩ := hy
        exact ⟨q, List.prefix_rfl, hy⟩

/-! ### Ticks -/

/-- A tick at `at_` records the throughput sample `r` of the instance `id`. -/
def Ticks (cfg : EngineConfig) (t : Tracker) (at_ : Nanos) (id : ConnId) (r : ThroughputSample) :
    Prop :=
  cfg.retention.window.isSome ∧ ∃ c ∈ t.conns, c.id = id ∧
    .throughput r ∈ decayPlan cfg (max t.now at_) c

instance (cfg : EngineConfig) (t : Tracker) (at_ : Nanos) (id : ConnId) (r : ThroughputSample) :
    Decidable (Ticks cfg t at_ id r) :=
  inferInstanceAs (Decidable (_ ∧ ∃ c ∈ t.conns, _))

/-- What grows adds the throughput samples pushed. -/
lemma throughput_grows {P : Sample → Prop} {k k' : Retained} (hg : Grows P k k') :
    ∀ r ∈ k'.throughput, r ∈ k.throughput ∨ P (.throughput r) := by
  refine hg.keeps (I := fun k' => ∀ r ∈ k'.throughput, r ∈ k.throughput ∨ P (.throughput r))
    (fun r hr => .inl hr) (fun k k' h hd r hr => h r (hd.throughput.subset hr)) ?_
  intro k x h hx r hr
  cases x with
  | throughput x =>
      rcases List.mem_append.mp hr with hr | hr
      · exact h r hr
      · exact .inr (List.mem_singleton.mp hr ▸ hx)
  | _ => exact h r hr

/-- **What a tick leaves** of an instance's throughput samples was there before or is recorded
by it. -/
lemma ticks_of_mem {p : List Item} {a : Nanos} {c' : ConnTrack}
    (hc' : c' ∈ (Tracker.track cfg (p ++ [.tick a])).conns) {r : ThroughputSample}
    (hr : r ∈ c'.kept.throughput) :
    (∃ c ∈ (Tracker.track cfg p).conns, c.id = c'.id ∧ r ∈ c.kept.throughput) ∨
      Ticks cfg (Tracker.track cfg p) a c'.id r := by
  rw [Tracker.track_snoc] at hc'
  have hn := counted_track cfg p
  generalize Tracker.track cfg p = t at hc' hn ⊢
  cases came_of_mem hn.balance (.tick a) c' hc' with
  | inert _ hc => exact .inl ⟨c', hc, rfl, hr⟩
  | ticked hw =>
      obtain ⟨c, hc, m, heq, -⟩ := Decay.of_mem_tick hn hw a hc'
      rw [heq] at hr ⊢
      have hid : c.id = (aged (horizonAt cfg (max t.now a))
          (Decay.sampled cfg (max t.now a) c m)).id :=
        (eq_of_core ConnTrack.id (Decay.core_sampled cfg (max t.now a) c m)).symm
      have hold := (dropsFronts_age _ _).throughput.subset hr
      rw [Decay.sampled_eq] at hold
      have hgrows := (recorded_recordAll cfg (P := (· ∈ decayPlan cfg (max t.now a) c))
        (fun x hx => hx) ⟨c, m, false⟩).grows
      rcases throughput_grows hgrows r hold with hr | hr
      · exact .inl ⟨c, hc, hid, hr⟩
      · exact .inr ⟨hw, c, hc, hid, hr⟩

lemma le_now_track (cfg : EngineConfig) {p : List Item} {seg : Segment} (h : .segment seg ∈ p) :
    seg.ts.ns ≤ (Tracker.track cfg p).now.ns := by
  induction p using List.reverseRecOn with
  | nil => simp at h
  | append_singleton p x ih =>
      rw [Tracker.track_snoc]
      rcases List.mem_append.mp h with h | h
      · exact (ih h).trans (now_le_observe cfg p x)
      · rw [← List.mem_singleton.mp h, now_segment, Nanos.ns_max]
        exact le_max_right _ _

lemma now_le_append (cfg : EngineConfig) (p q : List Item) :
    (Tracker.track cfg p).now.ns ≤ (Tracker.track cfg (p ++ q)).now.ns := by
  induction q using List.reverseRecOn with
  | nil => rw [List.append_nil]
  | append_singleton q x ih =>
      rw [← List.append_assoc, Tracker.track_snoc]
      exact ih.trans (now_le_observe cfg _ x)

/-- The clock of a tick is not behind that of an earlier one. -/
lemma clock_le (hw : cfg.retention.window.isSome) (p q : List Item) (a b : Nanos) :
    (max (Tracker.track cfg p).now a).ns ≤
      (max (Tracker.track cfg (p ++ .tick a :: q)).now b).ns := by
  have htick := now_step (t := Tracker.track cfg p) hw (.tick a)
  have hlater := now_le_append cfg (p ++ [.tick a]) q
  rw [Tracker.track_snoc, htick, List.append_assoc, List.singleton_append] at hlater
  rw [Nanos.ns_max _ b]
  exact hlater.trans (le_max_left _ _)

/-- Segments without data of a direction add nothing to what it has sent. -/
lemma sent_append (cfg : EngineConfig) (xs : List (Segment × Direction)) {dir : Direction}
    {ys : List (Segment × Direction)} (h : ∀ y ∈ ys, y.1.isData = true → y.2 ≠ dir) :
    (meter cfg (xs ++ ys)).sent.get dir = (meter cfg xs).sent.get dir := by
  induction ys using List.reverseRecOn with
  | nil => rw [List.append_nil]
  | append_singleton ys y ih =>
      rw [← List.append_assoc, meter, run_snoc, ← meter,
        ← ih fun z hz => h z (List.mem_append_left _ hz)]
      have hy := h y (by simp)
      unfold Meter.observe
      cases hd : y.1.isData with
      | false => rfl
      | true =>
          exact PerDir.get_set_of_ne _ (Ne.symm (hy hd)) _

lemma mem_throughputAt_of_plan {now : Nanos} {r : ThroughputSample} {dir : Direction}
    (h : .throughput r ∈ decayPlan cfg now c) (hdir : r.dir = dir.sample) :
    (r.throughputBps, r.goodputBps) ∈ c.derived.metrics.throughputAt dir now cfg := by
  unfold decayPlan at h
  split_ifs at h
  · simp at h
  · rcases List.mem_append.mp h with h | h
    · unfold throughputPlan at h
      split_ifs at h
      · obtain ⟨d, -, hd⟩ := List.mem_filterMap.mp h
        obtain ⟨v, hv, heq⟩ := Option.map_eq_some_iff.mp hd
        obtain rfl := Sample.throughput.inj heq
        have hdd : d = dir := by cases d <;> cases dir <;> first | rfl | exact nomatch hdir
        rw [← hdd]
        exact hv
      · simp at h
    · unfold inflightPlan at h
      split_ifs at h <;> simp at h

/-- A tracked connection derives from the segments it was given. -/
lemma exists_meter (hc : c ∈ (Tracker.track cfg p).conns) :
    ∃ ys, (∀ y ∈ ys, Given cfg [] p c.id y) ∧ c.derived.metrics = (meter cfg ys).metrics := by
  obtain ⟨m, ys, hm, hys, hfrom⟩ := fedFrom_track cfg [] p c hc
  obtain rfl : m = .new := hfrom.resolve_right (by simp [Tracker.new])
  exact ⟨ys, hys, hm.trans (metrics_meter cfg ys).symm⟩

lemma shown_of_plan {now : Nanos} {r : ThroughputSample} {dir : Direction}
    {ys : List (Segment × Direction)} (hr : .throughput r ∈ decayPlan cfg now c)
    (hm : c.derived.metrics = (meter cfg ys).metrics) (hdir : r.dir = dir.sample) :
    (r.throughputBps, r.goodputBps) =
        shown cfg.throughputWindow.ns now.ns ((meter cfg ys).sent.get dir) ∧
      (meter cfg ys).sent.get dir ≠ [] := by
  have h := mem_throughputAt_of_plan hr hdir
  rw [hm] at h
  refine ⟨mem_throughputAt h, fun hnil => ?_⟩
  rw [throughputAt_meter, if_pos hnil] at h
  simp at h

lemma peak_le {ys : List (Segment × Direction)} {dir : Direction} {b : ℕ}
    (h : ∀ y ∈ ys, y.1.isData = true → y.2 = dir → y.1.ts.ns ≤ b) :
    peak ((meter cfg ys).sent.get dir) ≤ b := by
  induction ys using List.reverseRecOn with
  | nil => cases dir <;> exact Nat.zero_le b
  | append_singleton ys y ih =>
      replace ih := ih fun z hz => h z (List.mem_append_left _ hz)
      by_cases hy : y.1.isData = true ∧ y.2 = dir
      · obtain ⟨hd, rfl⟩ := hy
        have hts := h y (by simp) hd rfl
        rw [meter, run_snoc, ← meter]
        simp only [Meter.observe, hd, if_true, PerDir.get_set_self, peak_snoc]
        exact max_le ih hts
      · have hquiet : ∀ z ∈ [y], z.1.isData = true → z.2 ≠ dir := by
          intro z hz hd hdir
          obtain rfl := List.mem_singleton.mp hz
          exact hy ⟨hd, hdir⟩
        rw [sent_append cfg ys hquiet]
        exact ih

/-- The samples of one direction do not rise from one tick to a later one that finds no new
data of it. -/
lemma ticks_anti {a b : Nanos} {r₁ r₂ : ThroughputSample} {dir : Direction}
    (h₁ : Ticks cfg (Tracker.track cfg p) a id r₁)
    (h₂ : Ticks cfg (Tracker.track cfg (p ++ .tick a :: q)) b id r₂)
    (hdir₁ : r₁.dir = dir.sample) (hdir₂ : r₂.dir = dir.sample)
    (hq : ∀ y, Given cfg p (.tick a :: q) id y → y.1.isData = true → y.2 ≠ dir) :
    r₂.throughputBps ≤ r₁.throughputBps ∧ r₂.goodputBps ≤ r₁.goodputBps := by
  obtain ⟨hw, c₁, hc₁, rfl, hr₁⟩ := h₁
  obtain ⟨-, c₂, hc₂, hid, hr₂⟩ := h₂
  obtain ⟨ys, hys, hm₁⟩ := exists_meter hc₁
  obtain ⟨heq₁, hne₁⟩ := shown_of_plan hr₁ hm₁ hdir₁
  obtain ⟨m, zs, hm₂, hzs, hfrom⟩ := fedFrom_track cfg p (.tick a :: q) c₂ hc₂
  have hquiet : ∀ y ∈ zs, y.1.isData = true → y.2 ≠ dir :=
    fun y hy => hq y (hid ▸ hzs y hy)
  rcases hfrom with rfl | ⟨c₀, hc₀, hid₀, rfl⟩
  · -- an instance opened in between has sent nothing in the direction
    rw [← metrics_meter] at hm₂
    refine absurd ?_ (shown_of_plan hr₂ hm₂ hdir₂).2
    rw [← List.nil_append zs, sent_append cfg [] hquiet]
    cases dir <;> rfl
  · have hc : c₀ = c₁ := eq_of_id (indexed_track cfg p) hc₀ hc₁ (hid₀.trans hid)
    rw [hc, hm₁, metrics_meter, ← fed_append, ← metrics_meter] at hm₂
    have heq₂ := (shown_of_plan hr₂ hm₂ hdir₂).1
    rw [sent_append cfg ys hquiet] at heq₂
    have hpast : peak ((meter cfg ys).sent.get dir) ≤ (max (Tracker.track cfg p).now a).ns := by
      refine peak_le fun y hy _ _ => ?_
      rw [Nanos.ns_max]
      exact (le_now_track cfg (hys y hy).mem).trans (le_max_left _ _)
    have hanti := shown_anti (w := cfg.throughputWindow.ns) hpast (clock_le hw p q a b)
    rw [← heq₁, ← heq₂] at hanti
    exact hanti

/-- They are zero one window after the last data of the direction. -/
lemma ticks_gone {a : Nanos} {r : ThroughputSample} {dir : Direction}
    (h : Ticks cfg (Tracker.track cfg p) a id r) (hdir : r.dir = dir.sample)
    (hp : ∀ y, Given cfg [] p id y → y.1.isData = true → y.2 = dir →
      y.1.ts.ns + cfg.throughputWindow.ns ≤ (max (Tracker.track cfg p).now a).ns) :
    r.throughputBps = 0 ∧ r.goodputBps = 0 := by
  obtain ⟨-, c, hc, rfl, hr⟩ := h
  obtain ⟨ys, hys, hm⟩ := exists_meter hc
  obtain ⟨heq, hne⟩ := shown_of_plan hr hm hdir
  have hgone : peak ((meter cfg ys).sent.get dir) + cfg.throughputWindow.ns ≤
      (max (Tracker.track cfg p).now a).ns := by
    obtain ⟨y, hy, hd, hdy⟩ : ∃ y ∈ ys, y.1.isData = true ∧ y.2 = dir := by
      by_contra hnone
      push Not at hnone
      refine hne ?_
      rw [← List.nil_append ys, sent_append cfg [] hnone]
      cases dir <;> rfl
    have hle : peak ((meter cfg ys).sent.get dir) ≤
        (max (Tracker.track cfg p).now a).ns - cfg.throughputWindow.ns :=
      peak_le fun y hy hd hdy => Nat.le_sub_of_add_le (hp y (hys y hy) hd hdy)
    have := hp y (hys y hy) hd hdy
    omega
  rw [shown_gone hgone] at heq
  exact Prod.mk.inj heq

/-- **The decay law**, of every sequence of segments and of the ticks of every run: the samples
of a direction fall from a tick to any later one as long as it is given no data in between, and
are zero once the clock is one window past its data. No other sample comes of a tick. -/
theorem fades_throughout (cfg : EngineConfig) :
    (∀ xs dir, Fades cfg (meter cfg xs) dir) ∧
      (∀ p a, ∀ c' ∈ (Tracker.track cfg (p ++ [.tick a])).conns, ∀ r ∈ c'.kept.throughput,
        (∃ c ∈ (Tracker.track cfg p).conns, c.id = c'.id ∧ r ∈ c.kept.throughput) ∨
          Ticks cfg (Tracker.track cfg p) a c'.id r) ∧
      (∀ p q a b id r₁ r₂ (dir : Direction), Ticks cfg (Tracker.track cfg p) a id r₁ →
        Ticks cfg (Tracker.track cfg (p ++ .tick a :: q)) b id r₂ →
          r₁.dir = dir.sample → r₂.dir = dir.sample →
            (∀ y, Given cfg p (.tick a :: q) id y → y.1.isData = true → y.2 ≠ dir) →
              r₂.throughputBps ≤ r₁.throughputBps ∧ r₂.goodputBps ≤ r₁.goodputBps) ∧
      ∀ p a id r (dir : Direction), Ticks cfg (Tracker.track cfg p) a id r →
        r.dir = dir.sample →
          (∀ y, Given cfg [] p id y → y.1.isData = true → y.2 = dir →
            y.1.ts.ns + cfg.throughputWindow.ns ≤ (max (Tracker.track cfg p).now a).ns) →
              r.throughputBps = 0 ∧ r.goodputBps = 0 :=
  ⟨fades_meter cfg, fun _ _ _ hc' _ hr => ticks_of_mem hc' hr,
    fun _ _ _ _ _ _ _ _ h₁ h₂ hd₁ hd₂ hq => ticks_anti h₁ h₂ hd₁ hd₂ hq,
    fun _ _ _ _ _ h hd hp => ticks_gone h hd hp⟩

/-- A minute of retention, the throughput graph on. -/
def minute : EngineConfig where
  retention := .evict (Nanos.sat 60000000000) 1000
  collectThroughputTimeline := true

/-- Ten bytes. -/
def tenBytes : List Item := [.segment (.between 1 2 0 TcpFlags.ACK 100 10)]

/-- Ten bytes a second half a second later, none two seconds later. -/
theorem fades_throughout_tenBytes :
    Ticks minute (Tracker.track minute tenBytes) (Nanos.sat 500000000)
        ⟨(Segment.between 1 2 0 TcpFlags.ACK 100 10).pair, 0⟩
        ⟨Nanos.sat 500000000, .originToResponder, 80, 80⟩ ∧
      Ticks minute (Tracker.track minute (tenBytes ++ [.tick (Nanos.sat 500000000)]))
        (Nanos.sat 2000000000) ⟨(Segment.between 1 2 0 TcpFlags.ACK 100 10).pair, 0⟩
        ⟨Nanos.sat 2000000000, .originToResponder, 0, 0⟩ ∧ (0 ≤ 80 ∧ 0 ≤ 80) := by
  have h₁ : Ticks minute (Tracker.track minute tenBytes) (Nanos.sat 500000000)
      ⟨(Segment.between 1 2 0 TcpFlags.ACK 100 10).pair, 0⟩
      ⟨Nanos.sat 500000000, .originToResponder, 80, 80⟩ := by decide +kernel
  have h₂ : Ticks minute (Tracker.track minute (tenBytes ++ [.tick (Nanos.sat 500000000)]))
      (Nanos.sat 2000000000) ⟨(Segment.between 1 2 0 TcpFlags.ACK 100 10).pair, 0⟩
      ⟨Nanos.sat 2000000000, .originToResponder, 0, 0⟩ := by decide +kernel
  refine ⟨h₁, h₂, (fades_throughout minute).2.2.1 tenBytes [] _ _ _ _ _ .originToResponder h₁ h₂
    rfl rfl fun y hy => ?_⟩
  -- a tick gives no segment
  obtain ⟨q', hq, -⟩ := hy
  have := hq.subset (a := .segment y.1) (by simp)
  simp at this

end TcpVisr.Fading
