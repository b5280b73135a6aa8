import TcpVisr.Steps

/-!
What stays retained, whatever is dropped.

Every way of dropping samples spares the last snapshot of a connection, so a tracked
connection keeps the snapshot recorded most recently for it. On items in time order every
series stands in time order and nothing lies ahead of the clock.
-/

namespace TcpVisr.Kept

open Recording Slots Plan Passes Lifecycle Index Steps

variable {cfg : EngineConfig} {t : Tracker} {seg : Segment}

/-! ### The most recently recorded snapshot -/

/-- The tracked connection a segment joins. -/
def target (cfg : EngineConfig) (t : Tracker) (seg : Segment) : Option ConnTrack :=
  (t.joins cfg seg).bind fun i => t.conns[i]?

/-- The connection a segment belongs to, with the segment accounted. -/
def attributed (cfg : EngineConfig) (t : Tracker) (seg : Segment) : ConnTrack :=
  match target cfg t seg with
  | some c => accounted c seg
  | none => freshTrack (t.nextId seg.pair) seg

/-- The lifecycle snapshot an item records, and the connection it is recorded for. -/
def snapshotOf (cfg : EngineConfig) (t : Tracker) : Item → Option (ConnId × StateSample)
  | .segment seg =>
    if cfg.collectStateTimeline then
      some ((attributed cfg t seg).id, (attributed cfg t seg).snapshot seg.ts)
    else none
  | .tick _ => none

/-- The lifecycle snapshots recorded from `t` on, in order. -/
def snapshots (cfg : EngineConfig) (t : Tracker) : List Item → List (ConnId × StateSample)
  | [] => []
  | x :: xs => (snapshotOf cfg t x).toList ++ snapshots cfg (t.observe cfg x) xs

/-- The most recently recorded snapshot of `id`. -/
def latest (cfg : EngineConfig) (items : List Item) (id : ConnId) : Option StateSample :=
  ((snapshots cfg Tracker.new items).filter fun p => p.1 = id).getLast?.map Prod.snd

lemma snapshots_snoc (p : List Item) (x : Item) :
    snapshots cfg t (p ++ [x]) = snapshots cfg t p ++
      (snapshotOf cfg (Lib.Runs.run (Tracker.observe cfg) t p) x).toList := by
  induction p generalizing t with
  | nil => simp [snapshots]
  | cons y p ih =>
      rw [List.cons_append, snapshots, ih, snapshots, List.append_assoc]
      rfl

lemma latest_snoc (p : List Item) (x : Item) (id : ConnId) :
    latest cfg (p ++ [x]) id =
      match snapshotOf cfg (Tracker.track cfg p) x with
      | some s => if s.1 = id then some s.2 else latest cfg p id
      | none => latest cfg p id := by
  unfold latest
  rw [snapshots_snoc]
  change Option.map _
    (List.filter _ (_ ++ (snapshotOf cfg (Tracker.track cfg p) x).toList)).getLast? = _
  cases snapshotOf cfg (Tracker.track cfg p) x with
  | none => simp
  | some s =>
      by_cases hs : s.1 = id <;> simp [List.filter_append, hs]

/-- The identity of a new instance is that of no tracked one. -/
lemma nextId_ne (hi : Indexed t.life) {c : ConnTrack} (hc : c ∈ t.conns) (p : EndpointPair) :
    t.nextId p ≠ c.id := by
  intro h
  have hmem : core c ∈ t.life.conns := List.mem_map_of_mem hc
  have hlt := hi.below_next (List.mem_map_of_mem (f := ConnTrack.id) hmem)
  rw [show (core c).id = t.nextId p from h.symm] at hlt
  exact lt_irrefl _ hlt

lemma target_of_joins {i : ℕ} {c : ConnTrack} (hj : t.joins cfg seg = some i)
    (hc : t.conns[i]? = some c) : target cfg t seg = some c := by
  simp [target, hj, hc]

lemma attributed_join {i : ℕ} {c : ConnTrack} (hj : t.joins cfg seg = some i)
    (hc : t.conns[i]? = some c) : attributed cfg t seg = accounted c seg := by
  simp [attributed, target_of_joins hj hc]

lemma attributed_create (hj : t.joins cfg seg = none) :
    attributed cfg t seg = freshTrack (t.nextId seg.pair) seg := by
  simp [attributed, target, hj]

/-- A segment is not attributed to a connection it does not join. -/
lemma attributed_ne (hi : Indexed t.life) {j : ℕ} {c : ConnTrack} (hc : t.conns[j]? = some c)
    (hj : t.joins cfg seg ≠ some j) : (attributed cfg t seg).id ≠ c.id := by
  cases hjoin : t.joins cfg seg with
  | some i =>
      obtain ⟨c₀, hc₀⟩ := joins_conns hjoin
      rw [attributed_join hjoin hc₀, accounted_id]
      intro h
      exact hj (hjoin.trans (congrArg some (id_inj hi hc₀ hc h)))
  | none =>
      rw [attributed_create hjoin, id_freshTrack]
      exact nextId_ne hi (List.mem_of_getElem? hc) _

/-! ### What stays tracked -/

/-- A connection over an item that leaves it tracked: without a snapshot more, the item being
no segment of it, or joined by a segment. -/
inductive Stays (cfg : EngineConfig) (t : Tracker) : Item → ConnTrack → ConnTrack → Prop
  | same {x : Item} {c c' : ConnTrack} (hd : core c' = core c)
      (hg : Grows (fun x => isState x = false) c.kept c'.kept)
      (hx : ∀ seg, x = .segment seg → (attributed cfg t seg).id ≠ c.id) : Stays cfg t x c c'
  | joined {seg : Segment} {c : ConnTrack} (ht : attributed cfg t seg = accounted c seg) :
      Stays cfg t (.segment seg) c
        (aged (horizonAt cfg (max t.now seg.ts)) ((t.slot c).join cfg seg).track)

/-- A tracked connection has stayed tracked or is new. -/
lemma stays_or_opened (hi : Indexed t.life) (hb : t.collectedSamples = retained t.conns)
    {x : Item} {c' : ConnTrack} (hc' : c' ∈ (t.observe cfg x).conns) :
    (∃ c ∈ t.conns, c.id = c'.id ∧ Stays cfg t x c c') ∨
      ∃ seg, x = .segment seg ∧ c' = aged (horizonAt cfg (max t.now seg.ts))
        ((t.slot (freshTrack (t.nextId seg.pair) seg)).found cfg seg).track := by
  cases came_of_mem hb x c' hc' with
  | @apart seg _ c hc hj =>
      refine .inl ⟨c, List.mem_of_getElem? hc, rfl, .same rfl (Grows.refl.drop
        (dropsFronts_age _ _)) fun seg' hs => ?_⟩
      obtain rfl := Item.segment.inj hs
      exact attributed_ne hi hc hj
  | @joined seg _ c hj hc =>
      have hid := (eq_of_core ConnTrack.id (recorded_join cfg (t.slot c) seg).core).trans
        (accounted_id c seg)
      exact .inl ⟨c, List.mem_of_getElem? hc, hid.symm, .joined (attributed_join hj hc)⟩
  | @opened seg hj => exact .inr ⟨seg, rfl, rfl⟩
  | inert hw hc => exact .inl ⟨_, hc, rfl, .same rfl .refl (by simp)⟩
  | ticked hw hc hf _ =>
      exact .inl ⟨_, hc, (eq_of_core ConnTrack.id hf.core).symm, .same hf.core
        ((hf.grows.imp fun _ h => h.2).drop (dropsFronts_age _ _)) (by simp)⟩

lemma stays_of_mem (hi : Indexed t.life) (hb : t.collectedSamples = retained t.conns) {x : Item}
    {c c' : ConnTrack} (hc : c ∈ t.conns) (hc' : c' ∈ (t.observe cfg x).conns)
    (hid : c'.id = c.id) : Stays cfg t x c c' := by
  rcases stays_or_opened hi hb hc' with ⟨d, hd, hdid, hs⟩ | ⟨seg, rfl, rfl⟩
  · obtain rfl := eq_of_id hi hd hc (hdid.trans hid)
    exact hs
  · have hcore := (recorded_found cfg (t.slot (freshTrack (t.nextId seg.pair) seg)) seg).core
    have hnew := (eq_of_core ConnTrack.id hcore).trans (id_freshTrack _ seg)
    exact absurd (hnew.symm.trans hid) (nextId_ne hi hc seg.pair)

/-! ### The last snapshot -/

/-- What a tracked connection retains last: the snapshot recorded most recently for it, which
exists when snapshots are collected. -/
structure KeepsLatest (cfg : EngineConfig) (items : List Item) (c : ConnTrack) : Prop where
  last : c.kept.states.getLast? = latest cfg items c.id
  exist : cfg.collectStateTimeline = true → c.kept.states ≠ []

lemma latest_eq_none (hc : cfg.collectStateTimeline = false) (items : List Item) (id : ConnId) :
    latest cfg items id = none := by
  induction items using List.reverseRecOn with
  | nil => rfl
  | append_singleton p x ih =>
      have hx : snapshotOf cfg (Tracker.track cfg p) x = none := by
        cases x <;> simp [snapshotOf, hc]
      rw [latest_snoc, hx, ih]

lemma last_join_eq {s : Slot} (hw : cfg.retention.window.isSome) (ho : s.overflowed = false)
    (seg : Segment) :
    (s.join cfg seg).track.kept.states.getLast? =
      if cfg.collectStateTimeline then some ((accounted s.track seg).snapshot seg.ts)
      else s.track.kept.states.getLast? := by
  split
  · next hc => exact last_join hw hc ho seg
  · next hc =>
      have hs : s.join cfg seg = ({ s with track := accounted s.track seg } : Slot).derive cfg seg
          (s.track.directionOf seg.flow.source) := by
        simp only [Slot.join, Slot.noteState, hc, Bool.false_eq_true, if_false]
        rfl
      rw [hs, Grows.last_eq (recorded_derive _ _ _ _).grows, accounted_kept]

lemma last_found_eq {s : Slot} (hw : cfg.retention.window.isSome) (ho : s.overflowed = false)
    (seg : Segment) :
    (s.found cfg seg).track.kept.states.getLast? =
      if cfg.collectStateTimeline then some (s.track.snapshot seg.ts)
      else s.track.kept.states.getLast? := by
  split
  · next hc => exact last_found hw hc ho seg
  · next hc =>
      have hs : s.found cfg seg = s.derive cfg seg (s.track.directionOf seg.flow.source) := by
        simp only [Slot.found, Slot.noteState, hc, Bool.false_eq_true, if_false]
      rw [hs, Grows.last_eq (recorded_derive _ _ _ _).grows]

/-- What keeps the last snapshot of a connection nothing more was recorded for. -/
lemma KeepsLatest.of_last {items items' : List Item} {c c' : ConnTrack}
    (hk : KeepsLatest cfg items c)
    (hlast : c'.kept.states.getLast? = c.kept.states.getLast?)
    (hlatest : latest cfg items' c'.id = latest cfg items c.id) : KeepsLatest cfg items' c' := by
  refine ⟨hlast.trans (hk.last.trans hlatest.symm), fun hc hnil => hk.exist hc ?_⟩
  rw [hnil] at hlast
  exact List.getLast?_eq_none_iff.mp hlast.symm

/-- Ageing spares the last snapshot. -/
lemma keepsLatest_aged {items : List Item} {c : ConnTrack} (h : ℕ) (hk : KeepsLatest cfg items c) :
    KeepsLatest cfg items (aged h c) :=
  hk.of_last (dropsFronts_age h c.kept).last rfl

section Step

variable {p : List Item} {c : ConnTrack}

lemma keepsLatest_apart {j : ℕ} (hc : (Tracker.track cfg p).conns[j]? = some c)
    (hj : (Tracker.track cfg p).joins cfg seg ≠ some j) (hk : KeepsLatest cfg p c) :
    KeepsLatest cfg (p ++ [.segment seg]) c := by
  have hne := attributed_ne (indexed_track cfg p) hc hj
  refine hk.of_last rfl ?_
  rw [latest_snoc]
  by_cases hs : cfg.collectStateTimeline = true <;> simp [snapshotOf, hs, hne]

lemma keepsLatest_join (hw : cfg.retention.window.isSome) {i : ℕ}
    (hj : (Tracker.track cfg p).joins cfg seg = some i)
    (hc : (Tracker.track cfg p).conns[i]? = some c) (hk : KeepsLatest cfg p c) :
    KeepsLatest cfg (p ++ [.segment seg]) (((Tracker.track cfg p).slot c).join cfg seg).track := by
  have hid := (eq_of_core ConnTrack.id
    (recorded_join cfg ((Tracker.track cfg p).slot c) seg).core).trans (accounted_id c seg)
  have hlast := last_join_eq (s := (Tracker.track cfg p).slot c) hw
    ((counted_track cfg p).evict hw) seg
  refine ⟨?_, fun hs hnil => by simp [hs, hnil] at hlast⟩
  rw [hlast, hid, latest_snoc]
  by_cases hs : cfg.collectStateTimeline = true <;>
    simp [snapshotOf, hs, attributed_join hj hc, Tracker.slot, hk.last]

lemma keepsLatest_found (hw : cfg.retention.window.isSome)
    (hj : (Tracker.track cfg p).joins cfg seg = none) :
    KeepsLatest cfg (p ++ [.segment seg]) (((Tracker.track cfg p).slot
      (freshTrack ((Tracker.track cfg p).nextId seg.pair) seg)).found cfg seg).track := by
  have hid := (eq_of_core ConnTrack.id (recorded_found cfg ((Tracker.track cfg p).slot
    (freshTrack ((Tracker.track cfg p).nextId seg.pair) seg)) seg).core).trans
      (id_freshTrack _ seg)
  have hlast := last_found_eq (s := (Tracker.track cfg p).slot
    (freshTrack ((Tracker.track cfg p).nextId seg.pair) seg)) hw
      ((counted_track cfg p).evict hw) seg
  refine ⟨?_, fun hs hnil => by simp [hs, hnil] at hlast⟩
  by_cases hs : cfg.collectStateTimeline = true
  · rw [hlast, hid, latest_snoc]
    simp [snapshotOf, hs, attributed_create hj, Tracker.slot]
  · rw [hlast, latest_eq_none (by simpa using hs)]
    simp [hs, Tracker.slot]

end Step

/-- **The last snapshot stays.** Under eviction every tracked connection retains the snapshot
recorded most recently for it. -/
theorem keepsLatest_track (hw : cfg.retention.window.isSome) (items : List Item) :
    ∀ c ∈ (Tracker.track cfg items).conns, KeepsLatest cfg items c := by
  induction items using List.reverseRecOn with
  | nil => simp [Tracker.new]
  | append_singleton p x ih =>
      intro c hmem
      rw [Tracker.track_snoc] at hmem
      cases came_of_mem (counted_track cfg p).balance x c hmem with
      | apart hc hj =>
          exact keepsLatest_aged _ (keepsLatest_apart hc hj (ih _ (List.mem_of_getElem? hc)))
      | joined hj hc =>
          exact keepsLatest_aged _ (keepsLatest_join hw hj hc (ih _ (List.mem_of_getElem? hc)))
      | opened hj => exact keepsLatest_aged _ (keepsLatest_found hw hj)
      | inert hw' => simp [hw'] at hw
      | ticked _ hc hf _ =>
          refine keepsLatest_aged _ ((ih _ hc).of_last (Grows.last_eq hf.grows) ?_)
          rw [eq_of_core ConnTrack.id hf.core, latest_snoc]
          rfl

/-! ### Time order -/

/-- A series in time order, nothing in it ahead of `now`. -/
def InTime (now : Nanos) (α : Type) (time : α → Nanos) (l : List α) : Prop :=
  (l.Pairwise fun x y => (time x).ns ≤ (time y).ns) ∧ ∀ x ∈ l, (time x).ns ≤ now.ns

lemma inTime_grows {now : Nanos} {k k' : Retained} (h : Grows (fun x => x.t = now) k k')
    (hk : AllSeries (InTime now) k) : AllSeries (InTime now) k' := by
  refine h.keeps (I := AllSeries (InTime now)) hk (fun k k' hk hd => ?_) (fun k x hk hx => ?_)
  · exact hk.drop hd fun _ _ l m hs h => ⟨h.1.sublist hs.sublist, fun x hx => h.2 x (hs.subset hx)⟩
  · refine hk.push fun _ time l y hy h => ⟨?_, fun z hz => ?_⟩
    · refine List.pairwise_append.mpr ⟨h.1, by simp, fun a ha b hb => ?_⟩
      rw [List.mem_singleton.mp hb, hy, hx]
      exact h.2 a ha
    · rcases List.mem_append.mp hz with hz | hz
      · exact h.2 z hz
      · rw [List.mem_singleton.mp hz, hy, hx]

lemma inTime_aged {now : Nanos} {c : ConnTrack} (h : ℕ) (hc : AllSeries (InTime now) c.kept) :
    AllSeries (InTime now) (aged h c).kept :=
  hc.drop (dropsFronts_age h c.kept) fun _ _ _ _ hs hl =>
    ⟨hl.1.sublist hs.sublist, fun x hx => hl.2 x (hs.subset hx)⟩

lemma inTime_later {now now' : Nanos} {k : Retained} (hn : now.ns ≤ now'.ns)
    (hk : AllSeries (InTime now) k) : AllSeries (InTime now') k :=
  hk.imp fun _ _ _ h => ⟨h.1, fun x hx => (h.2 x hx).trans hn⟩

/-- **Time order.** On items in time order every retained series is in time order and up to
the clock. -/
theorem inTime_track {items : List Item} (hord : items.Pairwise fun a b => a.ts.ns ≤ b.ts.ns) :
    ∀ c ∈ (Tracker.track cfg items).conns,
      AllSeries (InTime (Tracker.track cfg items).now) c.kept := by
  have h : Counted cfg (Tracker.track cfg items) ∧ ∀ c ∈ (Tracker.track cfg items).conns,
      AllSeries (InTime (Tracker.track cfg items).now) c.kept := by
    refine Lib.Runs.inv_of_steps
      (P := fun t => Counted cfg t ∧ ∀ c ∈ t.conns, AllSeries (InTime t.now) c.kept)
      ⟨⟨rfl, fun _ => rfl⟩, by simp [Tracker.new]⟩ ?_ (steps_of_sorted cfg hord)
    rintro t x ⟨hn, ih⟩ ⟨hnow, -⟩
    have hmax : max t.now x.ts = x.ts := Nanos.max_eq_right hnow
    refine ⟨counted_observe hn x, fun c hmem => ?_⟩
    cases came_of_mem hn.balance x c hmem with
    | apart hc hj =>
        rw [now_segment]
        exact inTime_aged _ (inTime_later (by simp) (ih _ (List.mem_of_getElem? hc)))
    | @joined seg _ c hj hc =>
        have hg := (recorded_join cfg (t.slot c) seg).grows
        rw [Item.ts] at hmax
        simp only [Tracker.slot, accounted_kept] at hg
        rw [now_segment, hmax]
        exact inTime_aged _ (inTime_grows hg (inTime_later hnow (ih _ (List.mem_of_getElem? hc))))
    | @opened seg hj =>
        have hg := (recorded_found cfg (t.slot (freshTrack (t.nextId seg.pair) seg))
          seg).grows
        rw [Item.ts] at hmax
        simp only [Tracker.slot, kept_freshTrack] at hg
        rw [now_segment, hmax]
        have h0 : AllSeries (InTime seg.ts) {} := by constructor <;> simp [InTime]
        exact inTime_aged _ (inTime_grows hg h0)
    | inert hw hc =>
        rw [observe_tick_failFast hw]
        exact ih _ hc
    | @ticked at_ c c' hw hc hf _ =>
        rw [now_step hw]
        exact inTime_aged _ (inTime_grows (hf.grows.imp fun _ h => h.1)
          (inTime_later (by simp) (ih _ hc)))
  exact h.2

end TcpVisr.Kept
