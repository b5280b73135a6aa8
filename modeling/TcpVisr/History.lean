import TcpVisr.Queries
import TcpVisr.States

/-!
The lifecycle snapshots of a replay.

Under fail-fast, without overflow, each segment appends exactly one snapshot to the
connection it belongs to. The snapshots of a connection therefore tell its whole history, in
the order of arrival.
-/

namespace TcpVisr.History

open Lib.AsOf Recording Slots Plan Passes Lifecycle Index Steps States

variable {cfg : EngineConfig} {s : Slot} {t : Tracker} {seg : Segment}

/-! ### What a segment appends -/

lemma states_pushAll_detail {now : Nanos} {xs : List Sample} (hx : ∀ x ∈ xs, Detail now x)
    (k : Retained) : (pushAll k xs).states = k.states := by
  induction xs generalizing k with
  | nil => rfl
  | cons x xs ih =>
      rw [pushAll_cons, ih fun y hy => hx y (by simp [hy]), (hx x (by simp)).states_eq]

lemma states_join (hw : cfg.retention.window = none) (hc : cfg.collectStateTimeline = true)
    (ho : (s.join cfg seg).overflowed = false) :
    (s.join cfg seg).track.kept.states =
      s.track.kept.states ++ [(accounted s.track seg).snapshot seg.ts] := by
  have heq := join_eq (Or.inl ho)
  rw [heq] at ho ⊢
  rw [recordAll_of_not_overflowed hw ho, put_kept]
  simp only [joinPlan, statePlan, hc, if_true, List.singleton_append, pushAll_cons,
    rederive_kept, accounted_kept]
  rw [states_pushAll_detail detail_derivePlan]
  rfl

lemma states_found (hw : cfg.retention.window = none) (hc : cfg.collectStateTimeline = true)
    (ho : (s.found cfg seg).overflowed = false) :
    (s.found cfg seg).track.kept.states =
      s.track.kept.states ++ [s.track.snapshot seg.ts] := by
  have heq := found_eq ((recorded_found cfg s seg).not_overflowed ho) (Or.inl ho)
  rw [heq] at ho ⊢
  rw [recordAll_of_not_overflowed hw ho, put_kept]
  simp only [foundPlan, statePlan, hc, if_true, pushAll_append, pushAll_cons, pushAll_nil,
    rederive_kept]
  change (pushAll _ _).states ++ _ = _
  rw [states_pushAll_detail detail_derivePlan]

lemma overflowed_join (hb : t.collectedSamples = retained t.conns) {i : ℕ} {c : ConnTrack}
    (hj : t.joins cfg seg = some i) (hc : t.conns[i]? = some c) :
    (t.observe cfg (.segment seg)).overflowed = ((t.slot c).join cfg seg).overflowed := by
  rw [observe_join_eq hb hj hc]
  rfl

lemma overflowed_create (hb : t.collectedSamples = retained t.conns)
    (hj : t.joins cfg seg = none) :
    (t.observe cfg (.segment seg)).overflowed =
      ((t.slot (freshTrack (t.nextId seg.pair) seg)).found cfg seg).overflowed := by
  rw [observe_create_eq hb hj]
  rfl

/-- Under fail-fast the flag, once set, stays set. -/
lemma not_overflowed (hi : Indexed t.life) (hb : t.collectedSamples = retained t.conns)
    (hw : cfg.retention.window = none) (x : Item) (ho : (t.observe cfg x).overflowed = false) :
    t.overflowed = false := by
  cases x with
  | segment seg =>
      cases hj : t.joins cfg seg with
      | some i =>
          obtain ⟨c, hc, -⟩ := joins_newest hi hj
          rw [overflowed_join hb hj hc] at ho
          exact (recorded_join cfg (t.slot c) seg).not_overflowed ho
      | none =>
          rw [overflowed_create hb hj] at ho
          exact (recorded_found cfg (t.slot _) seg).not_overflowed ho
  | tick at_ => rwa [observe_tick_failFast hw] at ho

/-! ### The history of one connection -/

/-- Nothing a snapshot counts goes down from `a` to `b`. -/
def NoLess (a b : StateSample) : Prop :=
  a.state.rank ≤ b.state.rank ∧ a.bytesO2r ≤ b.bytesO2r ∧ a.bytesR2o ≤ b.bytesR2o

lemma NoLess.refl (a : StateSample) : NoLess a a := ⟨le_rfl, le_rfl, le_rfl⟩

lemma NoLess.trans {a b c : StateSample} (h : NoLess a b) (h' : NoLess b c) : NoLess a c :=
  ⟨h.1.trans h'.1, h.2.1.trans h'.2.1, h.2.2.trans h'.2.2⟩

lemma rank_inj {a b : ConnState} (h : a.rank = b.rank) : a = b := by
  cases a <;> cases b <;> simp [ConnState.rank] at h ⊢

/-- Snapshots that are no less than each other agree, but for their times. -/
lemma NoLess.antisymm {a b : StateSample} (h : NoLess a b) (h' : NoLess b a) :
    a.state = b.state ∧ a.bytesO2r = b.bytesO2r ∧ a.bytesR2o = b.bytesR2o :=
  ⟨rank_inj (le_antisymm h.1 h'.1), le_antisymm h.2.1 h'.2.1, le_antisymm h.2.2 h'.2.2⟩

lemma noLess_accounted (c : ConnTrack) (seg : Segment) (a b : Nanos) :
    NoLess (c.snapshot a) ((accounted c seg).snapshot b) := by
  have hrank := rank_accounted c seg
  obtain ⟨_, _, _, m, n, _, _, h⟩ := accounted_frame c seg
  refine ⟨hrank, ?_, ?_⟩ <;> rw [h] <;> simp [ConnTrack.snapshot]

/-- What the snapshots of a connection tell: the last recorded one is its current state,
nothing goes down on the way, and all lie within its life. -/
structure Chronicle (c : ConnTrack) : Prop where
  last : ∃ a, c.kept.states.getLast? = some (c.snapshot a)
  grows : c.kept.states.Pairwise NoLess
  below : ∀ s ∈ c.kept.states, s.t.ns ≤ c.lastAt.ns
  first : ∃ s ∈ c.kept.states, s.t = c.openedAt

lemma Chronicle.noLess {c : ConnTrack} (h : Chronicle c) (a : Nanos) :
    ∀ s ∈ c.kept.states, NoLess s (c.snapshot a) := by
  intro s hs
  obtain ⟨b, hb⟩ := h.last
  change NoLess s (c.snapshot b)
  exact rel_getLast? NoLess.refl h.grows hs hb

lemma chronicle_of_join {c d : ConnTrack} (h : Chronicle c) (hd : core d = core (accounted c seg))
    (hs : d.kept.states = c.kept.states ++ [(accounted c seg).snapshot seg.ts]) : Chronicle d := by
  obtain ⟨hlast, hgrows, hbelow, hfirst⟩ := h
  have hlastAt := (eq_of_core ConnTrack.lastAt hd).trans (accounted_lastAt c seg)
  have hopened := (eq_of_core ConnTrack.openedAt hd).trans (accounted_openedAt c seg)
  have hsnap := eq_of_core (fun c => c.snapshot seg.ts) hd
  refine ⟨⟨seg.ts, by rw [hs, hsnap]; simp⟩, ?_, fun s hmem => ?_, ?_⟩
  · rw [hs]
    refine List.pairwise_append.mpr ⟨hgrows, by simp, fun a ha b hb => ?_⟩
    rw [List.mem_singleton.mp hb]
    exact (Chronicle.noLess ⟨hlast, hgrows, hbelow, hfirst⟩ seg.ts a ha).trans
      (noLess_accounted c seg _ _)
  · rw [hlastAt, Nanos.ns_max]
    rw [hs] at hmem
    rcases List.mem_append.mp hmem with hmem | hmem
    · exact le_max_of_le_left (hbelow s hmem)
    · rw [List.mem_singleton.mp hmem]
      exact le_max_right _ _
  · obtain ⟨s, hmem, hst⟩ := hfirst
    exact ⟨s, by rw [hs]; exact List.mem_append_left _ hmem, by rw [hst, hopened]⟩

lemma chronicle_of_found {id : ConnId} {d : ConnTrack} (hd : core d = core (freshTrack id seg))
    (hs : d.kept.states = [(freshTrack id seg).snapshot seg.ts]) : Chronicle d := by
  have hlastAt := (eq_of_core ConnTrack.lastAt hd).trans (lastAt_freshTrack id seg)
  have hopened := (eq_of_core ConnTrack.openedAt hd).trans (openedAt_freshTrack id seg)
  have hsnap := eq_of_core (fun c => c.snapshot seg.ts) hd
  refine ⟨⟨seg.ts, by rw [hs, hsnap]; rfl⟩, by simp [hs], ?_, ?_⟩
  · intro s hmem
    rw [hs, List.mem_singleton] at hmem
    rw [hmem, hlastAt]
    exact le_rfl
  · exact ⟨_, by rw [hs]; exact List.mem_singleton_self _, hopened.symm⟩

/-- A connection after a fail-fast step without overflow: unchanged, with one snapshot more,
or opened with one snapshot. -/
inductive Told (t : Tracker) : Item → ConnTrack → Prop
  | same {x : Item} {c : ConnTrack} (hc : c ∈ t.conns) : Told t x c
  | more {seg : Segment} {c d : ConnTrack} (hc : c ∈ t.conns)
      (hd : core d = core (accounted c seg))
      (hs : d.kept.states = c.kept.states ++ [(accounted c seg).snapshot seg.ts]) :
      Told t (.segment seg) d
  | fresh {seg : Segment} {d : ConnTrack}
      (hd : core d = core (freshTrack (t.nextId seg.pair) seg))
      (hs : d.kept.states = [(freshTrack (t.nextId seg.pair) seg).snapshot seg.ts]) :
      Told t (.segment seg) d

lemma told_of_mem (hb : t.collectedSamples = retained t.conns)
    (hw : cfg.retention.window = none) (hc : cfg.collectStateTimeline = true) {x : Item}
    (ho : (t.observe cfg x).overflowed = false) :
    ∀ c ∈ (t.observe cfg x).conns, Told t x c := by
  intro c hmem
  have hh : ∀ now, horizonAt cfg now = 0 := fun now => by simp [horizonAt, hw]
  cases came_of_mem hb x c hmem with
  | apart hc₀ hj => rw [hh, aged_zero]; exact .same (List.mem_of_getElem? hc₀)
  | joined hj hc₀ =>
      rw [overflowed_join hb hj hc₀] at ho
      rw [hh, aged_zero]
      exact .more (List.mem_of_getElem? hc₀) (recorded_join _ _ _).core (states_join hw hc ho)
  | opened hj =>
      rw [overflowed_create hb hj] at ho
      rw [hh, aged_zero]
      refine .fresh (recorded_found _ _ _).core ?_
      rw [states_found hw hc ho]
      simp [Tracker.slot]
  | inert _ hc₀ => exact .same hc₀
  | ticked hw' => simp [hw] at hw'

/-- **The rule for replays.** A property of connections that a first snapshot gives and a
further snapshot keeps holds of every connection of a replay without overflow. -/
theorem forall_told {P : ConnTrack → Prop} (hw : cfg.retention.window = none)
    (hc : cfg.collectStateTimeline = true) {G : Tracker → Item → Prop}
    (hstep : ∀ t x, (∀ c ∈ t.conns, P c) → G t x → ∀ c, Told t x c → P c) {items : List Item}
    (hG : Lib.Runs.Steps (Tracker.observe cfg) Tracker.new G items)
    (ho : (Tracker.track cfg items).overflowed = false) :
    ∀ c ∈ (Tracker.track cfg items).conns, P c := by
  induction items using List.reverseRecOn with
  | nil => simp [Tracker.new]
  | append_singleton p x ih =>
      rw [Tracker.track_snoc] at ho ⊢
      obtain ⟨hp, hx⟩ := Lib.Runs.steps_snoc.mp hG
      have hb := (counted_track cfg p).balance
      have h := ih hp (not_overflowed (indexed_track cfg p) hb hw x ho)
      exact fun c hmem => hstep _ x h hx c (told_of_mem hb hw hc ho c hmem)

/-- **The chronicle** of every connection of a replay without overflow. -/
theorem chronicle_track (hw : cfg.retention.window = none)
    (hc : cfg.collectStateTimeline = true) {items : List Item}
    (ho : (Tracker.track cfg items).overflowed = false) :
    ∀ c ∈ (Tracker.track cfg items).conns, Chronicle c := by
  refine forall_told (G := fun _ _ => True) hw hc ?_ (fun _ _ _ => trivial) ho
  intro t x h _ c htold
  cases htold with
  | same hc₀ => exact h c hc₀
  | more hc₀ hd hs => exact chronicle_of_join (h _ hc₀) hd hs
  | fresh hd hs => exact chronicle_of_found hd hs

end TcpVisr.History
