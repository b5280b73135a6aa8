import TcpVisr.Census

/-!
Whole-connection eviction: what it bounds, and what becomes of the instances it leaves.

Dead connections are removed by ticks only. Between two ticks the tracked connections stay
bounded exactly as long as no segment moves the clock past the horizon of a dead one.
-/

namespace TcpVisr.Eviction

open Lib.Runs Slots Plan Passes Lifecycle Index Steps Census

/-- Closed or reset, or idle past `dead_after`. -/
def Dead (cfg : EngineConfig) (now : Nanos) (terminal : Bool) (lastAt : Nanos) : Prop :=
  terminal = true ∨ cfg.deadAfter.ns < now.ns - lastAt.ns

/-- Last active before the horizon. -/
def Expired (w now lastAt : Nanos) : Prop := lastAt.ns < now.ns - w.ns

instance (cfg : EngineConfig) (now : Nanos) (terminal : Bool) (lastAt : Nanos) :
    Decidable (Dead cfg now terminal lastAt) :=
  inferInstanceAs (Decidable (_ ∨ _))

instance (w now lastAt : Nanos) : Decidable (Expired w now lastAt) :=
  inferInstanceAs (Decidable (_ < _))

/-- **The bound.** No tracked connection is both dead and expired, and the two maps hold
pairs of tracked connections only. -/
structure Bounded (cfg : EngineConfig) (w : Nanos) (t : Tracker) : Prop where
  conns : ∀ c ∈ t.conns, ¬ (Dead cfg t.now c.state.terminal c.lastAt ∧ Expired w t.now c.lastAt)
  live : ∀ p, (t.live p).isSome → ∃ c ∈ t.conns, c.id.pair = p
  next : ∀ p, (t.nextInstance p).isSome → ∃ c ∈ t.conns, c.id.pair = p

/-- Ticks settle everything. A segment has to leave nothing dead and expired behind: not a
connection it does not belong to, not the one it joins, not the one it opens. -/
def Settles (cfg : EngineConfig) (w : Nanos) (t : Tracker) : Item → Prop
  | .segment seg => AfterSegment cfg t seg fun terminal lastAt =>
      ¬ (Dead cfg (max t.now seg.ts) terminal lastAt ∧ Expired w (max t.now seg.ts) lastAt)
  | .tick _ => True

variable {cfg : EngineConfig} {w : Nanos} {t : Tracker} {seg : Segment}

lemma evictable_iff (now : Nanos) (c : ConnTrack) :
    c.evictable cfg (now.ns - w.ns) now = true ↔
      Dead cfg now c.state.terminal c.lastAt ∧ Expired w now c.lastAt := by
  simp [ConnTrack.evictable, Dead, Expired]

/-- **One step.** A step ends in a bounded state exactly if it settles. -/
lemma bounded_observe_iff (hw : cfg.retention.window = some w) (hi : Indexed t.life)
    (x : Item) : Bounded cfg w (t.observe cfg x) ↔ Settles cfg w t x := by
  have hi' : Indexed (t.observe cfg x).life := life_observe cfg t x ▸ indexed_observe hi x
  have hconns : Bounded cfg w (t.observe cfg x) ↔ ∀ c ∈ (t.observe cfg x).conns,
      ¬ (Dead cfg (max t.now x.ts) c.state.terminal c.lastAt ∧
        Expired w (max t.now x.ts) c.lastAt) := by
    have hw' : cfg.retention.window.isSome := by simp [hw]
    rw [← now_step hw' x]
    exact ⟨Bounded.conns,
      fun h => ⟨h, fun p => (live_isSome hi' p).mp, fun p => (next_isSome hi' p).mp⟩⟩
  rw [hconns]
  cases x with
  | segment seg =>
      exact forall_segment_iff (Q := fun terminal lastAt =>
        ¬ (Dead cfg (max t.now seg.ts) terminal lastAt ∧ Expired w (max t.now seg.ts) lastAt))
  | tick at_ =>
      refine iff_of_true ?_ trivial
      refine (forall_tick_iff (Q := fun terminal lastAt =>
        ¬ (Dead cfg (max t.now at_) terminal lastAt ∧ Expired w (max t.now at_) lastAt)) hw hi).mpr
          fun c _ he hd => ?_
      rw [(evictable_iff _ c).mpr hd] at he
      exact absurd he (by simp)

/-- **What the eviction bounds.** The bound holds after every step of a run exactly when
every step of the run settles. -/
theorem bounded_iff_settles (hw : cfg.retention.window = some w) (items : List Item) :
    Always (Tracker.observe cfg) Tracker.new (Bounded cfg w) items ↔
      Steps (Tracker.observe cfg) Tracker.new (Settles cfg w) items :=
  always_iff_steps (I := fun t : Tracker => Indexed t.life) (indexed_track cfg)
    ⟨by simp [Tracker.new], by simp [Tracker.new], by simp [Tracker.new]⟩
    (fun _ x hi _ => bounded_observe_iff hw hi x) items

/-- A window of 10 and a `dead_after` of 5. -/
def churnConfig : EngineConfig where
  deadAfter := Nanos.sat 5
  retention := .evict (Nanos.sat 10) 100

/-- A connection goes silent, another one is opened much later. -/
def churn : List Item :=
  [.segment (.between 1 2 0 TcpFlags.SYN 100), .segment (.between 3 4 1000 TcpFlags.SYN 100)]

theorem bounded_iff_settles_churn :
    churnConfig.retention.window = some (Nanos.sat 10) ∧
      (Always (Tracker.observe churnConfig) Tracker.new (Bounded churnConfig (Nanos.sat 10)) churn ↔
        Steps (Tracker.observe churnConfig) Tracker.new (Settles churnConfig (Nanos.sat 10))
          churn) :=
  ⟨rfl, bounded_iff_settles rfl churn⟩

/-- The second connection's segment moves the clock and evicts nothing: the first stays. -/
theorem not_always_bounded :
    ¬ ∀ (cfg : EngineConfig) (w : Nanos), cfg.retention.window = some w → ∀ items : List Item,
      Always (Tracker.observe cfg) Tracker.new (Bounded cfg w) items := by
  intro h
  have hb := (h churnConfig (Nanos.sat 10) rfl churn churn List.prefix_rfl).conns
  have hc : ∃ c ∈ (Tracker.track churnConfig churn).conns,
      Dead churnConfig (Tracker.track churnConfig churn).now c.state.terminal c.lastAt ∧
        Expired (Nanos.sat 10) (Tracker.track churnConfig churn).now c.lastAt := by
    decide +kernel
  obtain ⟨c, hmem, hd⟩ := hc
  exact hb c hmem hd

/-! ### Superseded instances -/

/-- A tick that evicts the newest tracked instance of a pair evicts every instance of it. -/
def KeepsNewest (cfg : EngineConfig) (t : Tracker) : Item → Prop
  | .segment _ => True
  | .tick at_ => ∀ w, cfg.retention.window = some w → ∀ c ∈ t.conns,
      (∀ c' ∈ t.conns, c'.id.pair = c.id.pair → c'.id.inst ≤ c.id.inst) →
      c.evictable cfg ((max t.now at_).ns - w.ns) (max t.now at_) = true →
      ∀ c' ∈ t.conns, c'.id.pair = c.id.pair →
        c'.evictable cfg ((max t.now at_).ns - w.ns) (max t.now at_) = true

instance decidableKeepsNewest (cfg : EngineConfig) (t : Tracker) : ∀ x,
    Decidable (KeepsNewest cfg t x)
  | .segment _ => isTrue trivial
  | .tick at_ =>
    decidable_of_iff (∀ w ∈ cfg.retention.window, ∀ c ∈ t.conns,
      (∀ c' ∈ t.conns, c'.id.pair = c.id.pair → c'.id.inst ≤ c.id.inst) →
      c.evictable cfg ((max t.now at_).ns - w.ns) (max t.now at_) = true →
      ∀ c' ∈ t.conns, c'.id.pair = c.id.pair →
        c'.evictable cfg ((max t.now at_).ns - w.ns) (max t.now at_) = true) Iff.rfl

/-- No segment touches an instance of its pair once a newer one has been tracked: whenever
`id'` supersedes `id` after `p₁`, and `id` stays tracked up to `p₂`, a segment after `p₂` does
no more to `id` than age its series. -/
def NeverResurrected (cfg : EngineConfig) (items : List Item) : Prop :=
  ∀ (p₁ p₂ : List Item) (seg : Segment) (id id' : ConnId),
    p₁ <+: p₂ → p₂ ++ [.segment seg] <+: items →
    id'.pair = id.pair → id.inst < id'.inst → ((Tracker.track cfg p₁).find id').isSome →
    (∀ q, p₁ <+: q → q <+: p₂ → ((Tracker.track cfg q).find id).isSome) →
    (Tracker.track cfg (p₂ ++ [.segment seg])).find id =
      ((Tracker.track cfg p₂).find id).map
        (aged (horizonAt cfg (max (Tracker.track cfg p₂).now seg.ts)))

/-- A newer instance of the pair of `id` is tracked. -/
def Superseded (t : Tracker) (id : ConnId) : Prop :=
  ∃ c ∈ t.conns, c.id.pair = id.pair ∧ id.inst < c.id.inst

/-- A segment leaves every connection it does not join as it was, but for ageing. -/
lemma still_of_apart (hn : Counted cfg t) (hi : Indexed t.life) {j : ℕ} {c : ConnTrack}
    (hc : t.conns[j]? = some c) (hj : t.joins cfg seg ≠ some j) :
    aged (horizonAt cfg (max t.now seg.ts)) c ∈ (t.observe cfg (.segment seg)).conns := by
  cases hjoin : t.joins cfg seg with
  | some i =>
      obtain ⟨c₀, hc₀, -⟩ := joins_newest hi hjoin
      rw [observe_join_eq hn.balance hjoin hc₀]
      refine List.mem_map_of_mem (List.mem_of_getElem? (i := j) ?_)
      rw [List.getElem?_set_ne (by rintro rfl; exact hj hjoin), hc]
  | none =>
      rw [observe_create_eq hn.balance hjoin]
      exact List.mem_map_of_mem (List.mem_append_left _ (List.mem_of_getElem? hc))

/-- A segment never joins a superseded instance. -/
lemma joins_ne_of_superseded (hi : Indexed t.life) {j : ℕ} {c : ConnTrack}
    (hc : t.conns[j]? = some c) (hs : Superseded t c.id) (seg : Segment) :
    t.joins cfg seg ≠ some j := by
  intro hj
  obtain ⟨c₀, hc₀, hpair, -, hlast⟩ := joins_newest hi hj
  obtain rfl : c = c₀ := Option.some.inj (hc.symm.trans hc₀)
  obtain ⟨d, hd, hdpair, hlt⟩ := hs
  obtain ⟨k, hk⟩ := List.mem_iff_getElem?.mp hd
  rcases (hlast k d hk (hdpair.trans hpair)).lt_or_eq with hkj | rfl
  · have := inst_lt_of_lt hi hk hc hdpair hkj
    omega
  · obtain rfl : d = c := Option.some.inj (hk.symm.trans hc)
    omega

lemma mem_life_of_mem {c : ConnTrack} (hc : c ∈ t.conns) : core c ∈ t.life.conns :=
  List.mem_map_of_mem hc

lemma exists_of_mem_life {d : ConnTrack} (hd : d ∈ t.life.conns) : ∃ c ∈ t.conns, core c = d :=
  List.mem_map.mp hd

lemma exists_newest (hi : Indexed t.life) {c : ConnTrack} (hc : c ∈ t.conns) :
    ∃ d ∈ t.conns, d.id.pair = c.id.pair ∧
      ∀ c' ∈ t.conns, c'.id.pair = d.id.pair → c'.id.inst ≤ d.id.inst := by
  obtain ⟨i, hlive⟩ := Option.isSome_iff_exists.mp ((live_isSome hi c.id.pair).mpr ⟨c, hc, rfl⟩)
  obtain ⟨d, hd, hpair, hlast⟩ := live_newest hi hlive
  refine ⟨d, List.mem_of_getElem? hd, hpair, fun c' hc' hp => ?_⟩
  obtain ⟨k, hk⟩ := List.mem_iff_getElem?.mp hc'
  rcases (hlast k c' hk (hp.trans hpair)).lt_or_eq with hki | rfl
  · exact (inst_lt_of_lt hi hk hd hp hki).le
  · obtain rfl : c' = d := Option.some.inj (hk.symm.trans hd)
    exact le_rfl

lemma ids_segment {l : Life} {id : ConnId} (h : id ∈ l.conns.map ConnTrack.id) (seg : Segment) :
    id ∈ (l.observe cfg (.segment seg)).conns.map ConnTrack.id := by
  cases hj : l.joins cfg seg with
  | some i => rw [Life.observe_join hj, map_id_modify]; exact h
  | none => rw [Life.observe_open hj, List.map_append]; exact List.mem_append_left _ h

/-- A superseded instance that stays tracked stays superseded. -/
lemma superseded_observe (hi : Indexed t.life) {x : Item}
    (hk : KeepsNewest cfg t x) {id : ConnId} (hs : Superseded t id)
    (hid : ((t.observe cfg x).find id).isSome) :
    Superseded (t.observe cfg x) id := by
  obtain ⟨c, hc, hpair, hlt⟩ := hs
  obtain ⟨d, hd, hdpair, hnewest⟩ := exists_newest hi hc
  have hle := hnewest c hc hdpair.symm
  -- It is enough that the newest instance stays tracked.
  suffices h : d.id ∈ (t.observe cfg x).life.conns.map ConnTrack.id by
    obtain ⟨e, he, heid⟩ := List.mem_map.mp h
    obtain ⟨d', hd', rfl⟩ := exists_of_mem_life he
    change d'.id = d.id at heid
    exact ⟨d', hd', by rw [heid, hdpair, hpair], by rw [heid]; omega⟩
  have hmem := List.mem_map_of_mem (f := ConnTrack.id) (mem_life_of_mem hd)
  cases x with
  | segment seg =>
      rw [life_observe]
      exact ids_segment hmem seg
  | tick at_ =>
      cases hw : cfg.retention.window with
      | none =>
          rw [life_observe, Life.observe_tick_failFast hw]
          exact hmem
      | some w =>
          obtain ⟨e, he⟩ := Option.isSome_iff_exists.mp hid
          obtain ⟨he, heid⟩ := find_some he
          obtain ⟨e₀, he₀, hkept, hcore⟩ := (mem_life_tick hw hi).mp (mem_life_of_mem he)
          have heid₀ : e₀.id = id := (congrArg ConnTrack.id hcore).trans heid
          have hdev : d.evictable cfg ((max t.now at_).ns - w.ns) (max t.now at_) = false := by
            by_contra hd'
            have hgone := hk w hw d hd hnewest (by simpa using hd') e₀ he₀
              (by rw [heid₀, hdpair, hpair])
            exact absurd (hkept.symm.trans hgone) (by simp)
          exact List.mem_map.mpr ⟨core d, (mem_life_tick hw hi).mpr ⟨d, hd, hdev, rfl⟩, rfl⟩

/-- As long as `id` is tracked, some newer instance is. -/
lemma superseded_run {items p r : List Item} {id : ConnId}
    (hk : Steps (Tracker.observe cfg) Tracker.new (KeepsNewest cfg) items) (hr : p ++ r <+: items)
    (h0 : Superseded (Tracker.track cfg p) id)
    (hid : ∀ q, p <+: q → q <+: p ++ r → ((Tracker.track cfg q).find id).isSome) :
    Superseded (Tracker.track cfg (p ++ r)) id := by
  induction r using List.reverseRecOn with
  | nil => simpa using h0
  | append_singleton r x ih =>
      rw [← List.append_assoc] at hr hid ⊢
      have hpre : p ++ r <+: p ++ r ++ [x] := List.prefix_append _ _
      have hs := ih (hpre.trans hr) fun q h1 h2 => hid q h1 (h2.trans hpre)
      have hx := hid (p ++ r ++ [x]) ((List.prefix_append p r).trans hpre) List.prefix_rfl
      rw [Tracker.track_snoc] at hx ⊢
      exact superseded_observe (indexed_track _ _) (hk _ x hr) hs hx

/-- **No resurrection.** In a run whose ticks never leave an older instance of a pair behind
the newest one, no segment is ever attributed to a superseded instance. -/
theorem superseded_untouched {items : List Item}
    (hk : Steps (Tracker.observe cfg) Tracker.new (KeepsNewest cfg) items) :
    NeverResurrected cfg items := by
  rintro p₁ _ seg id id' ⟨r, rfl⟩ h2 hpair hlt h' hid
  have hs : Superseded (Tracker.track cfg (p₁ ++ r)) id := by
    obtain ⟨c, hc⟩ := Option.isSome_iff_exists.mp h'
    obtain ⟨hc, hcid⟩ := find_some hc
    exact superseded_run hk ((List.prefix_append _ _).trans h2)
      ⟨c, hc, by rw [hcid, hpair], by rw [hcid]; exact hlt⟩ hid
  obtain ⟨c, hc⟩ := Option.isSome_iff_exists.mp
    (hid (p₁ ++ r) (List.prefix_append p₁ r) List.prefix_rfl)
  obtain ⟨hmem, rfl⟩ := find_some hc
  obtain ⟨j, hj⟩ := List.mem_iff_getElem?.mp hmem
  have hi := indexed_track cfg (p₁ ++ r)
  have hstill := still_of_apart (counted_track cfg (p₁ ++ r)) hi hj
    (joins_ne_of_superseded hi hj hs seg)
  rw [hc, Option.map_some]
  rw [← Tracker.track_snoc] at hstill
  exact find_of_mem (indexed_track cfg (p₁ ++ r ++ [.segment seg])) hstill

/-- A window of 10 and the default `dead_after`. -/
def splitConfig : EngineConfig where
  retention := .evict (Nanos.sat 10) 100

/-- One pair: an established instance, a backward reset to a second one, its RST, and a tick
that evicts the second alone. -/
def split : List Item :=
  [.segment (.between 1 2 0 TcpFlags.ACK 0x60000000), .segment (.between 1 2 1 TcpFlags.ACK 0),
    .segment (.between 1 2 2 TcpFlags.RST 0), .tick (Nanos.sat 20)]

/-- The next segment of that pair, which joins the first instance. -/
def late : Segment := .between 1 2 21 TcpFlags.ACK 0x60000010

/-- The same, with ticks that evict no instance first and then, two minutes later, all of them. -/
def splitKept : List Item :=
  split.take 3 ++ [.tick (Nanos.sat 11), .segment late, .tick (Nanos.sat 200000000000)]

theorem superseded_untouched_split : NeverResurrected splitConfig splitKept :=
  superseded_untouched (by decide +kernel)

theorem resurrected :
    ¬ ∀ (cfg : EngineConfig) (items : List Item), NeverResurrected cfg items := by
  intro h
  have hid : ∀ q ∈ split.inits, split.take 2 <+: q →
      ((Tracker.track splitConfig q).find ⟨late.pair, 0⟩).isSome := by
    decide +kernel
  have heq := h splitConfig (split ++ [.segment late]) (split.take 2) split late ⟨late.pair, 0⟩
    ⟨late.pair, 1⟩ (List.take_prefix _ _) List.prefix_rfl rfl (by decide) (by decide +kernel)
    fun q hp hq => hid q ((List.mem_inits _ _).mpr hq) hp
  have hne : (Tracker.track splitConfig (split ++ [.segment late])).find ⟨late.pair, 0⟩ ≠
      ((Tracker.track splitConfig split).find ⟨late.pair, 0⟩).map
        (aged (horizonAt splitConfig (max (Tracker.track splitConfig split).now late.ts))) := by
    decide +kernel
  exact hne heq

end TcpVisr.Eviction
