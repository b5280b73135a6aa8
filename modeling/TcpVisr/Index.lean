import TcpVisr.Lifecycle

/-!
What every reachable tracker keeps about identities and times.

The pair index is at all times what a rebuild would make of the tracked connections, so it
names the newest tracked instance of each pair; instances of a pair are handed out in
increasing order; a connection was opened before it was last active, and both before now.
-/

namespace TcpVisr.Index

open Slots Plan Lifecycle

/-! ### The pair index -/

lemma rebuildLive_congr {cs cs' : List ConnTrack}
    (h : cs.map ConnTrack.id = cs'.map ConnTrack.id) :
    Tracker.rebuildLive cs = Tracker.rebuildLive cs' := by
  have hids : ∀ cs : List ConnTrack, Tracker.rebuildLive cs =
      (cs.map ConnTrack.id).zipIdx.foldl
        (fun (live : EndpointPair → Option ℕ) p => Function.update live p.1.pair (some p.2))
        fun _ => none := by
    intro cs
    rw [List.zipIdx_map, List.foldl_map]
    rfl
  rw [hids, hids, h]

lemma rebuildLive_snoc (cs : List ConnTrack) (c : ConnTrack) :
    Tracker.rebuildLive (cs ++ [c]) =
      Function.update (Tracker.rebuildLive cs) c.id.pair (some cs.length) := by
  simp [Tracker.rebuildLive, List.zipIdx_append]

lemma rebuildLive_isSome (cs : List ConnTrack) (p : EndpointPair) :
    (Tracker.rebuildLive cs p).isSome ↔ p ∈ cs.map fun c => c.id.pair := by
  induction cs using List.reverseRecOn with
  | nil => simp [Tracker.rebuildLive]
  | append_singleton cs c ih =>
      rw [rebuildLive_snoc]
      by_cases hp : p = c.id.pair
      · subst hp; simp
      · rw [Function.update_of_ne hp, ih]
        simp [hp]

/-- The index of a pair names its last connection. -/
lemma rebuildLive_some {cs : List ConnTrack} {p : EndpointPair} {i : ℕ}
    (h : Tracker.rebuildLive cs p = some i) :
    ∃ c, cs[i]? = some c ∧ c.id.pair = p ∧
      ∀ j c', cs[j]? = some c' → c'.id.pair = p → j ≤ i := by
  induction cs using List.reverseRecOn with
  | nil => simp [Tracker.rebuildLive] at h
  | append_singleton cs c ih =>
      rw [rebuildLive_snoc] at h
      by_cases hp : p = c.id.pair
      · rw [hp, Function.update_self, Option.some.injEq] at h
        subst h
        refine ⟨c, by simp, hp.symm, fun j c' hj _ => ?_⟩
        have := (List.getElem?_eq_some_iff.mp hj).1
        rw [List.length_append, List.length_singleton] at this
        omega
      · rw [Function.update_of_ne hp] at h
        obtain ⟨c₀, hc₀, hpair, hlast⟩ := ih h
        have hi := (List.getElem?_eq_some_iff.mp hc₀).1
        refine ⟨c₀, by rw [List.getElem?_append_left hi, hc₀], hpair, fun j c' hj hc' => ?_⟩
        by_cases hlt : j < cs.length
        · rw [List.getElem?_append_left hlt] at hj
          exact hlast j c' hj hc'
        · have hlen := (List.getElem?_eq_some_iff.mp hj).1
          rw [List.length_append, List.length_singleton] at hlen
          obtain rfl : j = cs.length := by omega
          obtain rfl : c = c' := by simpa using hj
          exact absurd hc'.symm hp

/-- What holds of the identities and the two maps. -/
structure Indexed (l : Life) : Prop where
  order : (l.conns.map ConnTrack.id).Pairwise fun a b => a.pair = b.pair → a.inst < b.inst
  live : l.live = Tracker.rebuildLive l.conns
  next : ∀ p, (l.nextInstance p).isSome ↔ p ∈ l.conns.map fun c => c.id.pair
  below : ∀ id ∈ l.conns.map ConnTrack.id, ∀ n, l.nextInstance id.pair = some n → id.inst < n

variable {cfg : EngineConfig} {l : Life}

lemma Indexed.clock (hi : Indexed l) (n : Nanos) : Indexed { l with now := n } :=
  ⟨hi.order, hi.live, hi.next, hi.below⟩

lemma map_id_modify (cs : List ConnTrack) (i : ℕ) (seg : Segment) :
    (cs.modify i fun c => accounted c seg).map ConnTrack.id = cs.map ConnTrack.id := by
  induction cs generalizing i with
  | nil => simp
  | cons c cs ih =>
      cases i with
      | zero => simp
      | succ i => simp [ih]

lemma map_pair_eq (cs : List ConnTrack) :
    (cs.map fun c => c.id.pair) = (cs.map ConnTrack.id).map ConnId.pair := by
  simp [List.map_map, Function.comp_def]

/-- What a segment fixes of the instance it opens. -/
lemma freshTrack_frame (id : ConnId) (seg : Segment) :
    ∃ f g m n b b', freshTrack id seg =
      { blankTrack id seg with
        finO2r := f, finR2o := g, lastAt := max seg.ts seg.ts, segments := 1
        bytesO2r := m, bytesR2o := n, baseO2r := b, baseR2o := b' } := by
  unfold freshTrack ConnTrack.account ConnTrack.markFin
  dsimp only
  cases (blankTrack id seg).directionOf seg.flow.source <;> split <;>
    exact ⟨_, _, _, _, _, _, rfl⟩

@[simp] lemma id_freshTrack (id : ConnId) (seg : Segment) : (freshTrack id seg).id = id := by
  obtain ⟨_, _, _, _, _, _, h⟩ := freshTrack_frame id seg
  rw [h]
  rfl

@[simp] lemma kept_freshTrack (id : ConnId) (seg : Segment) : (freshTrack id seg).kept = {} := by
  obtain ⟨_, _, _, _, _, _, h⟩ := freshTrack_frame id seg
  rw [h]
  rfl

@[simp] lemma lastAt_freshTrack (id : ConnId) (seg : Segment) :
    (freshTrack id seg).lastAt = seg.ts := by
  obtain ⟨_, _, _, _, _, _, h⟩ := freshTrack_frame id seg
  rw [h]
  exact Nanos.max_eq_right le_rfl

@[simp] lemma openedAt_freshTrack (id : ConnId) (seg : Segment) :
    (freshTrack id seg).openedAt = seg.ts := by
  obtain ⟨_, _, _, _, _, _, h⟩ := freshTrack_frame id seg
  rw [h]
  rfl

@[simp] lemma state_freshTrack (id : ConnId) (seg : Segment) :
    (freshTrack id seg).state = (orient seg).2.2.2 := by
  obtain ⟨_, _, _, _, _, _, h⟩ := freshTrack_frame id seg
  rw [h]
  rfl

@[simp] lemma origin_freshTrack (id : ConnId) (seg : Segment) :
    (freshTrack id seg).origin = (blankTrack id seg).origin := by
  obtain ⟨_, _, _, _, _, _, h⟩ := freshTrack_frame id seg
  rw [h]

@[simp] lemma responder_freshTrack (id : ConnId) (seg : Segment) :
    (freshTrack id seg).responder = (blankTrack id seg).responder := by
  obtain ⟨_, _, _, _, _, _, h⟩ := freshTrack_frame id seg
  rw [h]

lemma id_opened (l : Life) (seg : Segment) :
    (l.opened seg).id = ⟨seg.pair, (l.nextInstance seg.pair).getD 0⟩ := id_freshTrack _ seg

/-- The result of whole-connection eviction, with the pair index rebuilt in any case. -/
lemma evictDead_eq (hi : Indexed l) (h : ℕ) :
    l.evictDead cfg h =
      { l with
        conns := l.conns.filter fun c => !c.evictable cfg h l.now
        live := Tracker.rebuildLive (l.conns.filter fun c => !c.evictable cfg h l.now)
        nextInstance := fun pair =>
          if (l.conns.filter fun c => !c.evictable cfg h l.now).any fun c => c.id.pair = pair then
            l.nextInstance pair
          else none } := by
  unfold Life.evictDead
  by_cases hlen : (l.conns.filter fun c => !c.evictable cfg h l.now).length = l.conns.length
  · have hall := List.filter_sublist.eq_of_length hlen
    have hnext : (fun pair => if l.conns.any fun c => c.id.pair = pair then
        l.nextInstance pair else none) = l.nextInstance := by
      funext p
      by_cases hp : (l.conns.any fun c => c.id.pair = p) = true
      · rw [if_pos hp]
      · have : ¬ (l.nextInstance p).isSome := by rw [hi.next]; simpa using hp
        rw [if_neg hp, Option.not_isSome_iff_eq_none.mp this]
    simp only [hall, if_true, ← hi.live, hnext]
  · simp only [hlen, if_false]

lemma indexed_new : Indexed Life.new :=
  ⟨by simp [Life.new], rfl, by simp [Life.new], by simp [Life.new]⟩

lemma indexed_evictDead (hi : Indexed l) (h : ℕ) : Indexed (l.evictDead cfg h) := by
  rw [evictDead_eq hi]
  have hsub : (l.conns.filter fun c => !c.evictable cfg h l.now).Sublist l.conns :=
    List.filter_sublist
  refine ⟨hi.order.sublist (hsub.map _), rfl, fun p => ?_, fun id hid n hn => ?_⟩
  · have hany : ((l.conns.filter fun c => !c.evictable cfg h l.now).any
        fun c => c.id.pair = p) = true ↔
          p ∈ (l.conns.filter fun c => !c.evictable cfg h l.now).map fun c => c.id.pair := by
      simp only [List.any_eq_true, List.mem_map, decide_eq_true_eq]
    rw [← hany]
    dsimp only
    split
    · next hp => exact ⟨fun _ => hp, fun _ => (hi.next p).mpr ((hsub.map _).subset (hany.mp hp))⟩
    · next hp => exact ⟨fun h => absurd h (by simp), fun h => absurd h hp⟩
  · refine hi.below id ((hsub.map _).subset hid) n ?_
    simp only at hn
    split at hn
    · exact hn
    · simp at hn

/-- The next instance of a pair is past every tracked one. -/
lemma Indexed.below_next (hi : Indexed l) {id : ConnId} (hid : id ∈ l.conns.map ConnTrack.id) :
    id.inst < (l.nextInstance id.pair).getD 0 := by
  have hs : (l.nextInstance id.pair).isSome := by
    rw [hi.next, map_pair_eq]
    exact List.mem_map_of_mem hid
  obtain ⟨n, hn⟩ := Option.isSome_iff_exists.mp hs
  rw [hn, Option.getD_some]
  exact hi.below id hid n hn

lemma indexed_join (hi : Indexed l) {idx : ℕ} (hj : l.joins cfg seg = some idx) :
    Indexed (l.observe cfg (.segment seg)) := by
  rw [Life.observe_join hj]
  have hids := map_id_modify l.conns idx seg
  exact ⟨by simp only [hids]; exact hi.order,
    hi.live.trans (rebuildLive_congr hids.symm),
    fun p => by simp only [map_pair_eq, hids]; rw [hi.next p, map_pair_eq],
    by simp only [hids]; exact hi.below⟩

lemma indexed_open (hi : Indexed l) (hj : l.joins cfg seg = none) :
    Indexed (l.observe cfg (.segment seg)) := by
  rw [Life.observe_open hj]
  have hbelow : ∀ id ∈ l.conns.map ConnTrack.id, id.pair = seg.pair →
      id.inst < (l.nextInstance seg.pair).getD 0 := by
    intro id hid hpair
    rw [← hpair]
    exact hi.below_next hid
  refine ⟨?_, ?_, fun p => ?_, fun id hid n hn => ?_⟩
  · simp only [List.map_append, List.map_singleton, id_opened]
    refine List.pairwise_append.mpr ⟨hi.order, by simp, fun a ha b hb hab => ?_⟩
    rw [List.mem_singleton.mp hb] at hab ⊢
    exact hbelow a ha hab
  · simp only [rebuildLive_snoc, id_opened, hi.live]
  · simp only [List.map_append, List.map_singleton, id_opened, List.mem_append,
      List.mem_singleton]
    by_cases hp : p = seg.pair
    · subst hp; simp
    · rw [Function.update_of_ne hp, hi.next]
      simp [hp]
  · simp only [List.map_append, List.map_singleton, id_opened, List.mem_append,
      List.mem_singleton] at hid
    simp only at hn
    by_cases hp : id.pair = seg.pair
    · rw [hp, Function.update_self, Option.some.injEq] at hn
      rcases hid with hid | rfl
      · have := hbelow id hid hp
        omega
      · simp only; omega
    · rw [Function.update_of_ne hp] at hn
      rcases hid with hid | rfl
      · exact hi.below id hid n hn
      · exact absurd rfl hp

lemma indexed_observe (hi : Indexed l) (x : Item) : Indexed (l.observe cfg x) := by
  cases x with
  | segment seg =>
      cases hj : l.joins cfg seg with
      | some idx => exact indexed_join hi hj
      | none => exact indexed_open hi hj
  | tick at_ =>
      cases hw : cfg.retention.window with
      | none => rw [Life.observe_tick_failFast hw]; exact hi
      | some w =>
          rw [Life.observe_tick_evict hw]
          exact indexed_evictDead (hi.clock _) _

/-- **Identities are kept apart.** -/
theorem indexed_track (cfg : EngineConfig) (items : List Item) :
    Indexed (Tracker.track cfg items).life := by
  rw [life_track]
  exact Lib.Runs.inv_run indexed_new (fun _ x hi => indexed_observe hi x) items

/-! ### Times and orientation -/

/-- What holds of every tracked connection at time `now`. -/
structure Sound (now : Nanos) (c : ConnTrack) : Prop where
  opened : c.openedAt.ns ≤ c.lastAt.ns
  last : c.lastAt.ns ≤ now.ns
  pair : EndpointPair.new c.origin c.responder = c.id.pair

lemma mem_modify {α : Type} {cs : List α} {i : ℕ} {f : α → α} {c : α} (h : c ∈ cs.modify i f) :
    (∃ c₀, cs[i]? = some c₀ ∧ c = f c₀) ∨ ∃ j, j ≠ i ∧ cs[j]? = some c := by
  obtain ⟨j, hj⟩ := List.mem_iff_getElem?.mp h
  rw [List.getElem?_modify] at hj
  obtain ⟨c₀, hc₀, hc⟩ := Option.map_eq_some_iff.mp hj
  by_cases hij : i = j
  · subst hij
    exact Or.inl ⟨c₀, hc₀, by simpa using hc.symm⟩
  · refine Or.inr ⟨j, Ne.symm hij, ?_⟩
    rw [hc₀, ← hc]
    simp [hij]

lemma forall_mem_modify {α : Type} {cs : List α} {i : ℕ} {f : α → α} {Q : α → Prop} :
    (∀ c ∈ cs.modify i f, Q c) ↔
      (∀ c, cs[i]? = some c → Q (f c)) ∧ ∀ j c, cs[j]? = some c → j ≠ i → Q c := by
  constructor
  · intro h
    refine ⟨fun c hc => h (f c) ?_, fun j c hc hji => h c ?_⟩
    · exact List.mem_of_getElem? (i := i) (by simp [hc])
    · exact List.mem_of_getElem? (i := j) (by simp [Ne.symm hji, hc])
  · rintro ⟨hi, hrest⟩ c hc
    rcases mem_modify hc with ⟨c₀, hc₀, rfl⟩ | ⟨j, hji, hj⟩
    · exact hi c₀ hc₀
    · exact hrest j c hj hji

/-- The index names the newest tracked instance of a pair. -/
lemma Indexed.live_newest (hi : Indexed l) {p : EndpointPair} {i : ℕ} (h : l.live p = some i) :
    ∃ c, l.conns[i]? = some c ∧ c.id.pair = p ∧
      ∀ j c', l.conns[j]? = some c' → c'.id.pair = p → j ≤ i :=
  rebuildLive_some (hi.live ▸ h)

/-- **The rule for tracked connections.** A property of a connection and the time that a new
instance has, that joining and the passing of time keep, holds of every tracked connection
after a step. -/
theorem forall_observe (cfg : EngineConfig) {P : Nanos → ConnTrack → Prop} (hi : Indexed l)
    (htime : ∀ n n' c, n.ns ≤ n'.ns → P n c → P n' c)
    (hjoin : ∀ n c seg, c.id.pair = seg.pair → seg.ts.ns ≤ n.ns → P n c → P n (accounted c seg))
    (hopen : ∀ n inst seg, seg.ts.ns ≤ n.ns → P n (freshTrack ⟨seg.pair, inst⟩ seg))
    (h : ∀ c ∈ l.conns, P l.now c) (x : Item) :
    ∀ c ∈ (l.observe cfg x).conns, P (l.observe cfg x).now c := by
  have hnow : l.now.ns ≤ (max l.now x.ts).ns := by simp
  have hts : x.ts.ns ≤ (max l.now x.ts).ns := by simp
  have hall : ∀ c ∈ l.conns, P (max l.now x.ts) c := fun c hc => htime _ _ c hnow (h c hc)
  cases x with
  | segment seg =>
      cases hj : l.joins cfg seg with
      | some idx =>
          rw [Life.observe_join hj]
          intro c hc
          rcases mem_modify hc with ⟨c₀, hc₀, rfl⟩ | ⟨j, -, hj⟩
          · obtain ⟨c₁, hc₁, hpair, -⟩ := hi.live_newest (joins_some hj).1
            obtain rfl : c₀ = c₁ := Option.some.inj (hc₀.symm.trans hc₁)
            exact hjoin _ c₀ seg hpair hts (hall c₀ (List.mem_of_getElem? hc₀))
          · exact hall c (List.mem_of_getElem? hj)
      | none =>
          rw [Life.observe_open hj]
          intro c hc
          rcases List.mem_append.mp hc with hc | hc
          · exact hall c hc
          · rw [List.mem_singleton.mp hc]
            exact hopen _ _ seg hts
  | tick at_ =>
      cases hw : cfg.retention.window with
      | none => rw [Life.observe_tick_failFast hw]; exact h
      | some w =>
          rw [Life.observe_tick_evict hw, evictDead_eq (hi.clock _)]
          exact fun c hc => hall c (List.mem_of_mem_filter hc)

theorem forall_track (cfg : EngineConfig) {P : Nanos → ConnTrack → Prop}
    (htime : ∀ n n' c, n.ns ≤ n'.ns → P n c → P n' c)
    (hjoin : ∀ n c seg, c.id.pair = seg.pair → seg.ts.ns ≤ n.ns → P n c → P n (accounted c seg))
    (hopen : ∀ n inst seg, seg.ts.ns ≤ n.ns → P n (freshTrack ⟨seg.pair, inst⟩ seg))
    (items : List Item) :
    ∀ c ∈ (Tracker.track cfg items).life.conns, P (Tracker.track cfg items).now c := by
  induction items using List.reverseRecOn with
  | nil => simp [Tracker.track, Tracker.life, Tracker.new]
  | append_singleton p x ih =>
      have h := forall_observe cfg (indexed_track cfg p) htime hjoin hopen ih x
      rwa [← life_observe, life_now, ← Tracker.track_snoc] at h

/-- However a segment orients its instance, the endpoints are those of the pair. -/
lemma pair_blankTrack (id : ConnId) (seg : Segment) :
    EndpointPair.new (blankTrack id seg).origin (blankTrack id seg).responder = seg.pair := by
  simp only [blankTrack, orient, Segment.pair]
  split_ifs
  · rfl
  · exact EndpointPair.new_comm _ _
  all_goals rfl

lemma sound_fresh {n : Nanos} {inst : ℕ} {seg : Segment} (h : seg.ts.ns ≤ n.ns) :
    Sound n (freshTrack ⟨seg.pair, inst⟩ seg) := by
  obtain ⟨_, _, _, _, _, _, heq⟩ := freshTrack_frame ⟨seg.pair, inst⟩ seg
  rw [heq]
  exact ⟨by simp [blankTrack], by simpa using h, pair_blankTrack ⟨seg.pair, inst⟩ seg⟩

/-- **Times and orientation** of every tracked connection of every run. -/
theorem sound_track (cfg : EngineConfig) (items : List Item) :
    ∀ c ∈ (Tracker.track cfg items).conns, Sound (Tracker.track cfg items).now c := by
  intro c hc
  have h := forall_track cfg (P := Sound)
    (fun n n' c hn h => ⟨h.opened, h.last.trans hn, h.pair⟩)
    (fun n c seg _ hts h => ⟨by simpa using Or.inl h.opened, by simpa using ⟨h.last, hts⟩,
      by simpa using h.pair⟩)
    (fun n inst seg hts => sound_fresh hts) items (core c) (List.mem_map_of_mem hc)
  exact ⟨h.opened, h.last, h.pair⟩

/-! ### The clock -/

lemma now_observe (cfg : EngineConfig) (hi : Indexed l) (x : Item) :
    (l.observe cfg x).now = max l.now x.ts ∨ (l.observe cfg x).now = l.now := by
  cases x with
  | segment seg =>
      cases hj : l.joins cfg seg with
      | some idx => rw [Life.observe_join hj]; exact Or.inl rfl
      | none => rw [Life.observe_open hj]; exact Or.inl rfl
  | tick at_ =>
      cases hw : cfg.retention.window with
      | none => rw [Life.observe_tick_failFast hw]; exact Or.inr rfl
      | some w =>
          rw [Life.observe_tick_evict hw, evictDead_eq (hi.clock _)]
          exact Or.inl rfl

/-- A segment moves the clock. -/
lemma now_segment (t : Tracker) (seg : Segment) :
    (t.observe cfg (.segment seg)).now = max t.now seg.ts := by
  have hlife := congrArg Life.now (life_observe cfg t (.segment seg))
  cases hj : t.life.joins cfg seg with
  | some idx => rw [Life.observe_join hj] at hlife; exact hlife
  | none => rw [Life.observe_open hj] at hlife; exact hlife

/-- Under eviction every item does. -/
lemma now_step {t : Tracker} (hw : cfg.retention.window.isSome) (x : Item) :
    (t.observe cfg x).now = max t.now x.ts := by
  cases x with
  | segment seg => exact now_segment t seg
  | tick at_ =>
      obtain ⟨w, hw⟩ := Option.isSome_iff_exists.mp hw
      have hlife := congrArg Life.now (life_observe cfg t (.tick at_))
      rw [Life.observe_tick_evict hw, Life.evictDead] at hlife
      dsimp only at hlife
      split at hlife <;> exact hlife

/-- The clock never goes back. -/
lemma now_le_observe (cfg : EngineConfig) (p : List Item) (x : Item) :
    (Tracker.track cfg p).now.ns ≤ ((Tracker.track cfg p).observe cfg x).now.ns := by
  have hlife : ((Tracker.track cfg p).observe cfg x).now =
      ((Tracker.track cfg p).life.observe cfg x).now := by rw [← life_observe, life_now]
  rw [hlife]
  rcases now_observe cfg (indexed_track cfg p) x with h | h <;> rw [h, life_now]
  rw [Nanos.ns_max]
  exact le_max_left _ _

/-- The clock never passes what it has read. -/
lemma now_le {items : List Item} {b : ℕ} (h : ∀ y ∈ items, y.ts.ns ≤ b) :
    (Tracker.track cfg items).now.ns ≤ b := by
  induction items using List.reverseRecOn with
  | nil => exact Nat.zero_le b
  | append_singleton p x ih =>
      have hp := ih fun y hy => h y (by simp [hy])
      have hx := h x (by simp)
      have hlife : ((Tracker.track cfg p).observe cfg x).now =
          ((Tracker.track cfg p).life.observe cfg x).now := by rw [← life_observe, life_now]
      rw [Tracker.track_snoc, hlife]
      rcases now_observe cfg (indexed_track cfg p) x with h | h <;> rw [h]
      · rw [Nanos.ns_max, life_now]
        omega
      · exact hp

/-- In a run of items in time order each item finds the clock, and all activity, behind it. -/
lemma steps_of_sorted (cfg : EngineConfig) {items : List Item}
    (hord : items.Pairwise fun a b => a.ts.ns ≤ b.ts.ns) :
    Lib.Runs.Steps (Tracker.observe cfg) Tracker.new
      (fun t x => t.now.ns ≤ x.ts.ns ∧ ∀ c ∈ t.conns, c.lastAt.ns ≤ t.now.ns) items := by
  intro p x hp
  obtain ⟨r, rfl⟩ := hp
  have hp := (List.pairwise_append.mp (List.pairwise_append.mp hord).1).2.2
  exact ⟨now_le fun y hy => hp y hy x (by simp), fun c hc => (sound_track cfg p c hc).last⟩

/-! ### The same on the tracker -/

variable {t : Tracker}

lemma live_newest (hi : Indexed t.life) {p : EndpointPair} {i : ℕ} (h : t.live p = some i) :
    ∃ c, t.conns[i]? = some c ∧ c.id.pair = p ∧
      ∀ j c', t.conns[j]? = some c' → c'.id.pair = p → j ≤ i := by
  obtain ⟨c, hc, hpair, hlast⟩ := hi.live_newest h
  simp only [Tracker.life, List.getElem?_map] at hc hlast
  obtain ⟨c₀, hc₀, rfl⟩ := Option.map_eq_some_iff.mp hc
  exact ⟨c₀, hc₀, hpair, fun j c' hj hc' => hlast j (core c') (by simp [hj]) hc'⟩

/-- A segment joins the newest tracked instance of its pair, or none. -/
lemma joins_newest (hi : Indexed t.life) {seg : Segment} {i : ℕ} (h : t.joins cfg seg = some i) :
    ∃ c, t.conns[i]? = some c ∧ c.id.pair = seg.pair ∧ shouldSplit cfg c seg = false ∧
      ∀ j c', t.conns[j]? = some c' → c'.id.pair = seg.pair → j ≤ i := by
  obtain ⟨hlive, c₀, hc₀, hs⟩ := joins_some ((joins_life t seg).trans h)
  obtain ⟨c, hc, hpair, hlast⟩ := live_newest hi hlive
  simp only [Tracker.life, List.getElem?_map, hc, Option.map_some, Option.some.injEq] at hc₀
  subst hc₀
  exact ⟨c, hc, hpair, hs, hlast⟩

lemma order_conns (hi : Indexed t.life) :
    t.conns.Pairwise fun a b => a.id.pair = b.id.pair → a.id.inst < b.id.inst := by
  have h := hi.order
  rw [Tracker.life, List.map_map, List.pairwise_map] at h
  exact h

/-- Instances of a pair stand in the order they were opened. -/
lemma inst_lt_of_lt (hi : Indexed t.life) {i j : ℕ} {c c' : ConnTrack} (hc : t.conns[i]? = some c)
    (hc' : t.conns[j]? = some c') (hp : c.id.pair = c'.id.pair) (hij : i < j) :
    c.id.inst < c'.id.inst := by
  obtain ⟨hi', rfl⟩ := List.getElem?_eq_some_iff.mp hc
  obtain ⟨hj', rfl⟩ := List.getElem?_eq_some_iff.mp hc'
  exact List.pairwise_iff_getElem.mp (order_conns hi) i j hi' hj' hij hp

lemma id_inj (hi : Indexed t.life) {i j : ℕ} {c c' : ConnTrack} (hc : t.conns[i]? = some c)
    (hc' : t.conns[j]? = some c') (h : c.id = c'.id) : i = j := by
  rcases lt_trichotomy i j with hlt | heq | hgt
  · have := inst_lt_of_lt hi hc hc' (by rw [h]) hlt
    rw [h] at this
    omega
  · exact heq
  · have := inst_lt_of_lt hi hc' hc (by rw [h]) hgt
    rw [h] at this
    omega

lemma live_isSome (hi : Indexed t.life) (p : EndpointPair) :
    (t.live p).isSome ↔ ∃ c ∈ t.conns, c.id.pair = p := by
  have h := rebuildLive_isSome t.life.conns p
  rw [← hi.live, life_live] at h
  rw [h]
  simp [Tracker.life, core]

lemma next_isSome (hi : Indexed t.life) (p : EndpointPair) :
    (t.nextInstance p).isSome ↔ ∃ c ∈ t.conns, c.id.pair = p := by
  have h := hi.next p
  rw [life_nextInstance] at h
  rw [h]
  simp [Tracker.life, core]

/-- A tracked connection is the one its identity finds. -/
lemma find_of_mem (hi : Indexed t.life) {c : ConnTrack} (hc : c ∈ t.conns) :
    t.find c.id = some c := by
  obtain ⟨i, hci⟩ := List.mem_iff_getElem?.mp hc
  cases hf : t.find c.id with
  | none =>
      have := List.find?_eq_none.mp hf c hc
      simp at this
  | some c' =>
      have hid : c'.id = c.id := by simpa using List.find?_some hf
      obtain ⟨j, hcj⟩ := List.mem_iff_getElem?.mp (List.mem_of_find?_eq_some hf)
      obtain rfl := id_inj hi hci hcj hid.symm
      rw [← hci, hcj]

lemma find_some {id : ConnId} {c : ConnTrack} (h : t.find id = some c) :
    c ∈ t.conns ∧ c.id = id :=
  ⟨List.mem_of_find?_eq_some h, by simpa using List.find?_some h⟩

lemma nodup_ids (hi : Indexed t.life) : (t.conns.map ConnTrack.id).Nodup := by
  rw [List.Nodup, List.pairwise_map]
  refine (order_conns hi).imp fun h heq => ?_
  have := h (by rw [heq])
  rw [heq] at this
  exact absurd this (lt_irrefl _)

lemma eq_of_id (hi : Indexed t.life) {c d : ConnTrack} (hc : c ∈ t.conns) (hd : d ∈ t.conns)
    (h : c.id = d.id) : c = d := by
  have := find_of_mem hi hc
  rw [h, find_of_mem hi hd] at this
  exact (Option.some.inj this).symm

/-! ### The joint invariant -/

/-- A tracked connection has been given at least the segment that opened it. -/
lemma segments_pos (cfg : EngineConfig) (items : List Item) :
    ∀ c ∈ (Tracker.track cfg items).conns, 1 ≤ c.segments := by
  intro c hc
  refine forall_track cfg (P := fun _ c => 1 ≤ c.segments) (fun _ _ _ _ h => h) ?_ ?_ items
    (core c) (List.mem_map_of_mem hc)
  · intro _ c seg _ _ _
    obtain ⟨_, _, _, _, _, _, _, h⟩ := accounted_frame c seg
    simp [h]
  · intro _ inst seg _
    obtain ⟨_, _, _, _, _, _, h⟩ := freshTrack_frame ⟨seg.pair, inst⟩ seg
    simp [h]

/-- The identities, the two maps, the endpoints and the counters of a tracker fit together. -/
structure Coherent (t : Tracker) : Prop where
  distinct : (t.conns.map ConnTrack.id).Nodup
  increasing : t.conns.Pairwise fun a b => a.id.pair = b.id.pair → a.id.inst < b.id.inst
  live : ∀ p, (t.live p).isSome ↔ ∃ c ∈ t.conns, c.id.pair = p
  newest : ∀ p i, t.live p = some i → ∃ c, t.conns[i]? = some c ∧ c.id.pair = p ∧
    ∀ d ∈ t.conns, d.id.pair = p → d.id.inst ≤ c.id.inst
  next : ∀ p, (t.nextInstance p).isSome ↔ (t.live p).isSome
  above : ∀ c ∈ t.conns, ∀ n, t.nextInstance c.id.pair = some n → c.id.inst < n
  endpoints : ∀ c ∈ t.conns, EndpointPair.new c.origin c.responder = c.id.pair
  times : ∀ c ∈ t.conns, c.openedAt.ns ≤ c.lastAt.ns ∧ c.lastAt.ns ≤ t.now.ns
  counted : ∀ c ∈ t.conns, 1 ≤ c.segments

/-- **Identities and indices** of every run. -/
theorem coherent_track (cfg : EngineConfig) (items : List Item) :
    Coherent (Tracker.track cfg items) := by
  have hi := indexed_track cfg items
  have hs := sound_track cfg items
  refine
    { distinct := nodup_ids hi
      increasing := order_conns hi
      live := live_isSome hi
      newest := fun p i h => ?_
      next := fun p => (next_isSome hi p).trans (live_isSome hi p).symm
      above := fun c hc n hn => ?_
      endpoints := fun c hc => (hs c hc).pair
      times := fun c hc => ⟨(hs c hc).opened, (hs c hc).last⟩
      counted := segments_pos cfg items }
  · obtain ⟨c, hc, hpair, hlast⟩ := live_newest hi h
    refine ⟨c, hc, hpair, fun d hd hdp => ?_⟩
    obtain ⟨j, hj⟩ := List.mem_iff_getElem?.mp hd
    rcases (hlast j d hj hdp).lt_or_eq with hlt | rfl
    · exact (inst_lt_of_lt hi hj hc (hdp.trans hpair.symm) hlt).le
    · rw [Option.some.inj (hj.symm.trans hc)]
  · have hmem : c.id ∈ (Tracker.track cfg items).life.conns.map ConnTrack.id :=
      List.mem_map.mpr ⟨core c, List.mem_map_of_mem hc, rfl⟩
    exact hi.below c.id hmem n hn

end TcpVisr.Index
