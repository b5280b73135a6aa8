import TcpVisr.Later

/-!
Time translation.

Adding one constant to the time of every item moves every time the tracker holds by that
constant, from the first segment on, and changes nothing else: not what is tracked, not where
instances are split, not what is evicted or retained. Before the first segment there is nothing
but the clock, and a clock no item has set yet does not move.
-/

namespace TcpVisr

def Tracker.later (k : ℕ) (t : Tracker) : Tracker :=
  { t with conns := t.conns.map (ConnTrack.later k), now := t.now.later k }

/-- No time the tracker holds lies after `b`. -/
structure Tracker.Until (b : ℕ) (t : Tracker) : Prop where
  now : t.now.ns ≤ b
  conns : ∀ c ∈ t.conns, c.Until b

namespace Translation

open Lib.Runs Recording Slots Plan Passes Lifecycle Index Later

variable {cfg : EngineConfig} {b k : ℕ} {t : Tracker} {c : ConnTrack} {seg : Segment}

/-! ### Segments -/

/-- A bare SYN splits after a silence, which is a difference of times. -/
lemma shouldSplit_later (hb : b + k ≤ u64Max) (hc : c.Until b) (hs : seg.ts.ns ≤ b) :
    shouldSplit cfg (c.later k) (seg.later k) = shouldSplit cfg c seg := by
  have hidle : (seg.ts.later k).ns - (c.lastAt.later k).ns = seg.ts.ns - c.lastAt.ns := by
    rw [ns_later hb hs, ns_later hb hc.lastAt]
    omega
  unfold shouldSplit
  change (if isBareSyn seg.flags = true then c.state.terminal ||
    decide (cfg.deadAfter.ns < (seg.ts.later k).ns - (c.lastAt.later k).ns) else _) = _
  rw [hidle]
  rfl

lemma joins_later (hb : b + k ≤ u64Max) (ht : t.Until b) (hs : seg.ts.ns ≤ b) :
    (t.later k).joins cfg (seg.later k) = t.joins cfg seg := by
  have hlive : (t.later k).live = t.live := rfl
  have hconns : (t.later k).conns = t.conns.map (ConnTrack.later k) := rfl
  unfold Tracker.joins
  rw [later_pair, hlive, hconns]
  cases t.live seg.pair with
  | none => rfl
  | some i =>
      cases hc : t.conns[i]? with
      | none => simp [hc]
      | some c =>
          have hsplit : shouldSplit cfg (c.later k) (seg.later k) = shouldSplit cfg c seg :=
            shouldSplit_later hb (ht.conns c (List.mem_of_getElem? hc)) hs
          simp only [List.getElem?_map, hc, Option.map_some, hsplit]

lemma joinInstance_later (hb : b + k ≤ u64Max) (ht : t.Until b) (hs : seg.ts.ns ≤ b) {i : ℕ}
    (hc : t.conns[i]? = some c) :
    (t.later k).joinInstance cfg i (seg.later k) = (t.joinInstance cfg i seg).later k := by
  have hc' : (t.later k).conns[i]? = some (c.later k) := by
    simp [Tracker.later, hc]
  have hjoin : ((t.later k).slot (c.later k)).join cfg (seg.later k) =
      ((t.slot c).join cfg seg).later k :=
    join_later (s := t.slot c) hb (ht.conns c (List.mem_of_getElem? hc)).metrics hs
  unfold Tracker.joinInstance
  rw [hc, hc']
  dsimp only
  rw [hjoin]
  simp only [Tracker.later, List.map_set]
  rfl

lemma createInstance_later (hb : b + k ≤ u64Max) (hs : seg.ts.ns ≤ b) :
    (t.later k).createInstance cfg (seg.later k) = (t.createInstance cfg seg).later k := by
  have hid : (t.later k).nextId seg.pair = t.nextId seg.pair := rfl
  have hfound : ((t.later k).slot (freshTrack (t.nextId seg.pair) (seg.later k))).found cfg
      (seg.later k) = ((t.slot (freshTrack (t.nextId seg.pair) seg)).found cfg seg).later k := by
    rw [freshTrack_later]
    exact found_later (s := t.slot (freshTrack (t.nextId seg.pair) seg)) hb
      (until_fresh _ hs).metrics hs
  unfold Tracker.createInstance
  dsimp only [later_pair]
  rw [hid, hfound]
  simp only [Tracker.later, List.map_append, List.map_singleton, List.length_map]
  rfl

lemma observeSegment_later (hb : b + k ≤ u64Max) (ht : t.Until b) (hs : seg.ts.ns ≤ b) :
    (t.later k).observeSegment cfg (seg.later k) = (t.observeSegment cfg seg).later k := by
  unfold Tracker.observeSegment
  rw [joins_later hb ht hs]
  cases hj : t.joins cfg seg with
  | none => exact createInstance_later hb hs
  | some i =>
      obtain ⟨c, hc⟩ := joins_conns hj
      exact joinInstance_later hb ht hs hc

lemma until_observeSegment (ht : t.Until b) (hs : seg.ts.ns ≤ b) :
    (t.observeSegment cfg seg).Until b := by
  unfold Tracker.observeSegment
  cases hj : t.joins cfg seg with
  | none =>
      refine ⟨ht.now, fun c hc => ?_⟩
      rcases List.mem_append.mp hc with hc | hc
      · exact ht.conns c hc
      · rw [List.mem_singleton.mp hc]
        exact until_found (until_fresh _ hs) hs
  | some i =>
      obtain ⟨c, hc⟩ := joins_conns hj
      have hconns : (t.joinInstance cfg i seg).conns =
          t.conns.set i ((t.slot c).join cfg seg).track := by
        simp only [Tracker.joinInstance, hc]
      have hnow : (t.joinInstance cfg i seg).now = t.now := by
        simp only [Tracker.joinInstance, hc]
      refine ⟨by dsimp only; rw [hnow]; exact ht.now, fun d hd => ?_⟩
      dsimp only at hd
      rw [hconns] at hd
      rcases List.mem_or_eq_of_mem_set hd with hd | rfl
      · exact ht.conns d hd
      · exact until_join (s := t.slot c) (ht.conns c (List.mem_of_getElem? hc)) hs

/-! ### The passes -/

/-- What lies before a horizon does so after the move, also for a horizon cut off at zero. -/
lemma before_later (hb : b + k ≤ u64Max) {a now : Nanos} (ha : a.ns ≤ b) (hn : now.ns ≤ b)
    (w : ℕ) : (a.later k).ns < (now.later k).ns - w ↔ a.ns < now.ns - w := by
  rw [ns_later hb ha, ns_later hb hn]
  omega

@[simp] lemma count_later (r : Retained) : (r.later k).count = r.count := by
  simp [Retained.count, Retained.later]

@[simp] lemma retained_later (cs : List ConnTrack) :
    retained (cs.map (ConnTrack.later k)) = retained cs := by
  induction cs with
  | nil => rfl
  | cons c cs ih =>
      rw [List.map_cons, retained_cons, retained_cons, ih]
      exact congrArg (· + retained cs) (count_later c.kept)

lemma aged_later (hb : b + k ≤ u64Max) (hc : c.Until b) {now : Nanos} (hn : now.ns ≤ b)
    (w : ℕ) : aged ((now.later k).ns - w) (c.later k) = (aged (now.ns - w) c).later k := by
  have hage {α : Type} (time : α → Nanos) (move : α → α) (floor : ℕ) {l : List α}
      (hmove : ∀ x, time (move x) = (time x).later k) (hl : ∀ x ∈ l, (time x).ns ≤ b) :
      Lib.Ageing.age (fun x => (time x).ns) ((now.later k).ns - w) floor (l.map move) =
        (Lib.Ageing.age (fun x => (time x).ns) (now.ns - w) floor l).map move := by
    refine Lib.Ageing.age_map fun x hx => ?_
    rw [hmove]
    exact before_later hb (hl x hx) hn w
  have hkept : age ((now.later k).ns - w) (c.kept.later k) =
      (age (now.ns - w) c.kept).later k := by
    simp only [age, Retained.later,
      hage StateSample.t (StateSample.later k) 1 (fun _ => rfl) hc.kept.states,
      hage MetricSample.t (MetricSample.later k) 0 (fun _ => rfl) hc.kept.series,
      hage SeqSample.t (SeqSample.later k) 0 (fun _ => rfl) hc.kept.seq,
      hage InFlightSample.t (InFlightSample.later k) 0 (fun _ => rfl) hc.kept.inflight,
      hage RttSample.t (RttSample.later k) 0 (fun _ => rfl) hc.kept.rtt,
      hage ThroughputSample.t (ThroughputSample.later k) 0 (fun _ => rfl) hc.kept.throughput]
  change { c.later k with kept := age ((now.later k).ns - w) (c.kept.later k) } = _
  rw [hkept]
  rfl

lemma until_aged (hc : c.Until b) (h : ℕ) : (aged h c).Until b :=
  { hc with
    kept := hc.kept.drop (dropsFronts_age h c.kept) fun _ _ _ _ hs hl x hx => hl x (hs.subset hx) }

lemma evictSamples_later (hb : b + k ≤ u64Max) (ht : t.Until b) :
    (t.later k).evictSamples cfg = (t.evictSamples cfg).later k := by
  unfold Tracker.evictSamples
  cases cfg.retention.window with
  | none => rfl
  | some w =>
      have haged : (t.conns.map (ConnTrack.later k)).map (aged ((t.now.later k).ns - w.ns)) =
          (t.conns.map (aged (t.now.ns - w.ns))).map (ConnTrack.later k) := by
        rw [List.map_map, List.map_map]
        exact List.map_congr_left fun c hc => aged_later hb (ht.conns c hc) ht.now w.ns
      dsimp only [Tracker.forEach, Tracker.later, Tracker.horizon]
      rw [eachSlot_evict, eachSlot_evict, haged, retained_later, retained_later]

lemma until_evictSamples (ht : t.Until b) : (t.evictSamples cfg).Until b := by
  unfold Tracker.evictSamples
  cases cfg.retention.window with
  | none => exact ht
  | some w =>
      dsimp only [Tracker.forEach]
      rw [eachSlot_evict]
      refine ⟨ht.now, fun c hc => ?_⟩
      obtain ⟨d, hd, rfl⟩ := List.mem_map.mp hc
      exact until_aged (ht.conns d hd) _

lemma emitDecaySamples_later (hb : b + k ≤ u64Max) (ht : t.Until b) :
    (t.later k).emitDecaySamples cfg = (t.emitDecaySamples cfg).later k := by
  have hdecay : ∀ n o, Tracker.eachSlot (Slot.decay cfg (t.now.later k))
      (t.conns.map (ConnTrack.later k)) n o =
        ((Tracker.eachSlot (Slot.decay cfg t.now) t.conns n o).1.map (ConnTrack.later k),
          (Tracker.eachSlot (Slot.decay cfg t.now) t.conns n o).2) :=
    eachSlot_map t.conns fun c hc n o => decay_later (s := ⟨c, n, o⟩) hb (ht.conns c hc) ht.now
  unfold Tracker.emitDecaySamples
  by_cases ho : t.overflowed = true
  · rw [if_pos ho, if_pos (show (t.later k).overflowed = true from ho)]
  · rw [if_neg ho, if_neg (show ¬ (t.later k).overflowed = true from ho)]
    dsimp only [Tracker.forEach, Tracker.later]
    rw [hdecay]

lemma until_emitDecaySamples (ht : t.Until b) : (t.emitDecaySamples cfg).Until b := by
  unfold Tracker.emitDecaySamples
  split
  · exact ht
  · exact ⟨ht.now, forall_eachSlot t.conns
      (fun c hc n o => until_decay (s := ⟨c, n, o⟩) (ht.conns c hc) ht.now) _ _⟩

lemma evictable_later (hb : b + k ≤ u64Max) (hc : c.Until b) {now : Nanos} (hn : now.ns ≤ b)
    (w : ℕ) : (c.later k).evictable cfg ((now.later k).ns - w) (now.later k) =
      c.evictable cfg (now.ns - w) now := by
  have hidle : (now.later k).ns - (c.lastAt.later k).ns = now.ns - c.lastAt.ns := by
    rw [ns_later hb hn, ns_later hb hc.lastAt]
    omega
  have hold := before_later hb hc.lastAt hn w
  unfold ConnTrack.evictable
  change ((c.state.terminal || decide (cfg.deadAfter.ns < (now.later k).ns -
    (c.lastAt.later k).ns)) && decide ((c.lastAt.later k).ns < (now.later k).ns - w)) = _
  rw [hidle, decide_eq_decide.mpr hold]

lemma evictDeadConnections_later (hb : b + k ≤ u64Max) (ht : t.Until b) :
    (t.later k).evictDeadConnections cfg = (t.evictDeadConnections cfg).later k := by
  cases hw : cfg.retention.window with
  | none => simp only [Tracker.evictDeadConnections, hw]
  | some w =>
      have hfil : (t.conns.map (ConnTrack.later k)).filter
            (fun c => !c.evictable cfg ((t.now.later k).ns - w.ns) (t.now.later k)) =
          (t.conns.filter fun c => !c.evictable cfg (t.now.ns - w.ns) t.now).map
            (ConnTrack.later k) := by
        rw [List.filter_map]
        refine congrArg (List.map (ConnTrack.later k)) (List.filter_congr fun c hc => ?_)
        exact congrArg not (evictable_later hb (ht.conns c hc) ht.now w.ns)
      have hlive : ∀ cs : List ConnTrack, Tracker.rebuildLive (cs.map (ConnTrack.later k)) =
          Tracker.rebuildLive cs := by
        intro cs
        refine rebuildLive_congr ?_
        rw [List.map_map]
        rfl
      have hcount : ∀ cs : List ConnTrack, (cs.map fun c => (c.later k).kept.count).sum =
          (cs.map fun c => c.kept.count).sum := fun cs =>
        congrArg List.sum (List.map_congr_left fun c _ => count_later c.kept)
      simp only [Tracker.evictDeadConnections, hw, Tracker.horizon, Tracker.later, hfil,
        List.length_map]
      by_cases hlen : (t.conns.filter fun c => !c.evictable cfg (t.now.ns - w.ns) t.now).length =
          t.conns.length
      · simp only [hlen, if_true]
      · simp only [hlen, if_false, hlive, List.any_map, List.map_map, Function.comp_def, hcount]
        rfl

lemma until_evictDeadConnections (ht : t.Until b) : (t.evictDeadConnections cfg).Until b := by
  cases hw : cfg.retention.window with
  | none => simpa only [Tracker.evictDeadConnections, hw] using ht
  | some w =>
      simp only [Tracker.evictDeadConnections, hw]
      split
      · exact ht
      · exact ⟨ht.now, fun c hc => ht.conns c (List.mem_of_mem_filter hc)⟩

/-! ### One item -/

/-- The tracker with another clock. -/
def atClock (t : Tracker) (now : Nanos) : Tracker := { t with now := now }

/-- An item that moves the clock. -/
def Sets (cfg : EngineConfig) : Item → Prop
  | .segment _ => True
  | .tick _ => cfg.retention.window.isSome = true

lemma until_clocked (ht : t.Until b) {x : Item} (hx : x.ts.ns ≤ b) : (clocked t x).Until b := by
  refine ⟨?_, ht.conns⟩
  change (max t.now x.ts).ns ≤ b
  rw [Nanos.ns_max]
  exact max_le ht.now hx

/-- **One item.** Once the clocks agree, moving times commutes with observing an item. -/
theorem observe_later (hb : b + k ≤ u64Max) (ht : t.Until b) {x : Item} (hx : x.ts.ns ≤ b)
    (hsets : Sets cfg x) {n : Nanos} (hn : max n (x.later k).ts = (max t.now x.ts).later k) :
    (atClock (t.later k) n).observe cfg (x.later k) = (t.observe cfg x).later k := by
  have hclock : clocked (atClock (t.later k) n) (x.later k) = (clocked t x).later k := by
    unfold clocked atClock Tracker.later
    dsimp only
    rw [hn]
  have hu := until_clocked ht hx
  cases x with
  | segment seg =>
      change Tracker.evictSamples cfg (Tracker.observeSegment cfg
        (clocked (atClock (t.later k) n) (Item.later k (.segment seg))) (seg.later k)) = _
      rw [hclock, observeSegment_later hb hu hx,
        evictSamples_later hb (until_observeSegment hu hx)]
      rfl
  | tick at_ =>
      obtain ⟨w, hw⟩ := Option.isSome_iff_exists.mp hsets
      have hd : ((clocked t (.tick at_)).emitDecaySamples cfg).Until b :=
        until_emitDecaySamples hu
      rw [observe_tick_evict hw, Item.later, observe_tick_evict hw]
      change Tracker.evictDeadConnections cfg (Tracker.evictSamples cfg
        (Tracker.emitDecaySamples cfg (clocked _ (Item.later k (.tick at_))))) = _
      rw [hclock, emitDecaySamples_later hb hu, evictSamples_later hb hd,
        evictDeadConnections_later hb (until_evictSamples hd)]

lemma until_observe (ht : t.Until b) {x : Item} (hx : x.ts.ns ≤ b) :
    (t.observe cfg x).Until b := by
  have hu := until_clocked ht hx
  cases x with
  | segment seg => exact until_evictSamples (until_observeSegment hu hx)
  | tick at_ =>
      cases hw : cfg.retention.window with
      | none => rw [observe_tick_failFast hw]; exact ht
      | some w =>
          rw [observe_tick_evict hw]
          exact until_evictDeadConnections (until_evictSamples (until_emitDecaySamples hu))

/-! ### Runs -/

theorem until_track (cfg : EngineConfig) {items : List Item} (h : ∀ x ∈ items, x.ts.ns ≤ b) :
    (Tracker.track cfg items).Until b := by
  induction items using List.reverseRecOn with
  | nil => exact ⟨Nat.zero_le b, by simp [Tracker.new]⟩
  | append_singleton p x ih =>
      rw [Tracker.track_snoc]
      exact until_observe (ih fun y hy => h y (List.mem_append_left [x] hy)) (h x (by simp))

/-- The moved run after `p`: the run moved, its clock moved too once some segment has set it. -/
structure Moved (cfg : EngineConfig) (k : ℕ) (p : List Item) (n : Nanos) : Prop where
  track : Tracker.track cfg (p.map (Item.later k)) = atClock ((Tracker.track cfg p).later k) n
  clock : ∀ a : Nanos, max n (a.later k) = (max (Tracker.track cfg p).now a).later k
  set : (∃ seg, Item.segment seg ∈ p) → n = (Tracker.track cfg p).now.later k

/-- An item that moves the clock brings the two clocks together. -/
lemma Moved.of_sets {p : List Item} {x : Item} {n : Nanos} (hb : b + k ≤ u64Max)
    (h : Moved cfg k p n) (ht : (Tracker.track cfg p).Until b) (hx : x.ts.ns ≤ b)
    (hsets : Sets cfg x) :
    Moved cfg k (p ++ [x]) ((Tracker.track cfg (p ++ [x])).now.later k) := by
  refine ⟨?_, fun a => (later_max _ a).symm, fun _ => rfl⟩
  have hts : (x.later k).ts = x.ts.later k := by cases x <;> rfl
  rw [List.map_append, List.map_singleton, Tracker.track_snoc, Tracker.track_snoc, h.track,
    observe_later hb ht hx hsets (by rw [hts]; exact h.clock x.ts)]
  rfl

/-- Under fail-fast a tick changes nothing on either side. -/
lemma Moved.of_inert {p : List Item} {at_ n : Nanos} (h : Moved cfg k p n)
    (hw : cfg.retention.window = none) : Moved cfg k (p ++ [.tick at_]) n := by
  have htrack : Tracker.track cfg (p ++ [.tick at_]) = Tracker.track cfg p := by
    rw [Tracker.track_snoc, observe_tick_failFast hw]
  refine ⟨?_, ?_, ?_⟩
  · rw [List.map_append, List.map_singleton, Tracker.track_snoc, h.track, htrack, Item.later,
      observe_tick_failFast hw]
  · rw [htrack]
    exact h.clock
  · rintro ⟨seg, hseg⟩
    rw [htrack]
    exact h.set ⟨seg, by simpa using hseg⟩

theorem moved_track (cfg : EngineConfig) (hb : b + k ≤ u64Max) {p : List Item}
    (hp : ∀ x ∈ p, x.ts.ns ≤ b) : ∃ n, Moved cfg k p n := by
  induction p using List.reverseRecOn with
  | nil =>
      refine ⟨Nanos.sat 0, rfl, fun a => ?_, by simp⟩
      have hzero : ∀ a : Nanos, max (Nanos.sat 0) a = a := fun a =>
        Nanos.max_eq_right (Nat.zero_le a.ns)
      rw [hzero]
      exact congrArg (Nanos.later k) (hzero a).symm
  | append_singleton p x ih =>
      have hp' : ∀ y ∈ p, y.ts.ns ≤ b := fun y hy => hp y (List.mem_append_left [x] hy)
      obtain ⟨n, hn⟩ := ih hp'
      have hx : x.ts.ns ≤ b := hp x (by simp)
      cases x with
      | segment seg => exact ⟨_, hn.of_sets hb (until_track cfg hp') hx trivial⟩
      | tick at_ =>
          cases hw : cfg.retention.window with
          | none => exact ⟨n, hn.of_inert hw⟩
          | some w =>
              refine ⟨_, hn.of_sets hb (until_track cfg hp') hx ?_⟩
              change cfg.retention.window.isSome = true
              rw [hw]
              rfl

/-- **Time translation.** If no moved time leaves the range of the clock, then after every
prefix with a segment the run on the moved items is the run on the items with its times
moved, each by exactly `k`. -/
theorem track_later (cfg : EngineConfig) (k : ℕ) (items : List Item)
    (hfit : ∀ x ∈ items, x.ts.ns + k ≤ u64Max) :
    ∀ p, p <+: items → (∃ seg, Item.segment seg ∈ p) →
      Tracker.track cfg (p.map (Item.later k)) = (Tracker.track cfg p).later k ∧
        (Tracker.track cfg p).Until (u64Max - k) := by
  intro p hp hseg
  have hle : ∀ x ∈ p, x.ts.ns + k ≤ u64Max := fun x hx => hfit x (hp.subset hx)
  have hk : u64Max - k + k ≤ u64Max := by
    obtain ⟨seg, hmem⟩ := hseg
    have := hle _ hmem
    omega
  have hp' : ∀ x ∈ p, x.ts.ns ≤ u64Max - k := by
    intro x hx
    have := hle x hx
    omega
  obtain ⟨n, hn⟩ := moved_track cfg hk hp'
  refine ⟨?_, until_track cfg hp'⟩
  rw [hn.track, hn.set hseg]
  rfl

/-- A window of 100 nanoseconds, longer than what `opening` lasts. -/
def brief : EngineConfig where
  retention := .evict (Nanos.sat 100) 50
  collectInflightTimeline := true
  collectThroughputTimeline := true

/-- A tick before anything else, data, and a tick while the window still reaches before zero. -/
def opening : List Item :=
  [.tick (Nanos.sat 1), .segment (.between 1 2 2 TcpFlags.ACK 100 10), .tick (Nanos.sat 60)]

theorem track_later_opening :
    Tracker.track brief (opening.map (Item.later 1000)) =
        (Tracker.track brief opening).later 1000 ∧
      (Tracker.track brief opening).Until (u64Max - 1000) :=
  track_later brief 1000 opening (by decide +kernel) opening List.prefix_rfl
    ⟨.between 1 2 2 TcpFlags.ACK 100 10, by simp [opening]⟩

end Translation

end TcpVisr
