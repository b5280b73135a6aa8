import Mathlib.Data.List.Destutter
import TcpVisr.Cursor
import TcpVisr.Frames
import TcpVisr.Lib.Walk

/-!
Querying and stepping, against a linear scan.

What a timeline answers from its sorted series by binary search is what one scan of the
samples as they were supplied would find. Its event times are the times of all samples, so
that stepping from event to event passes each of them once. The app steps inside its cursor
domain: on a replay that is every event, while a live domain may begin behind some.
-/

namespace TcpVisr

open Lib.Runs Lib.AsOf Lib.Walk Recording Index Kept Seek Queries

namespace Timeline

/-- What a connection resolves to at `T`, by one scan of its samples. -/
def scan (finish T : Nanos) (c : ConnSeries) : Option AsOf :=
  if c.conn.openedAt.ns ≤ T.ns ∧
      T.ns ≤ (if c.conn.state.terminal then c.conn.lastAt else finish).ns then
    (latest (fun s : StateSample => s.t.ns) T.ns c.states).map fun s =>
      ⟨c.conn.id, s.state, s.bytesO2r, s.bytesR2o⟩
  else none

/-- `c'` is `c` with its samples permuted, those of equal time in the same order. -/
structure Rearranged (c c' : ConnSeries) : Prop where
  conn : c'.conn = c.conn
  perm : c'.states.Perm c.states
  stable : ∀ t, (c'.states.filter fun s => s.t = t) = c.states.filter fun s => s.t = t

/-- Some retained sample lies at `x`. -/
def Event (tl : Timeline) (x : Nanos) : Prop := ∃ e ∈ tl.entries, ∃ s ∈ e.samples, s.t = x

variable {conns conns' : List ConnSeries} {finish T : Nanos} {tl : Timeline}

/-! ### Resolving -/

lemma resolveAt_withSeqEnding (conns : List ConnSeries) (finish T : Nanos) :
    (withSeqEnding conns finish).resolveAt T = conns.filterMap (scan finish T) := by
  have hone (c : ConnSeries) :
      (if activeEntry T (entry finish c) then
        (sampleAt (entry finish c).samples T).map fun s =>
          (⟨c.conn.id, s.state, s.bytesO2r, s.bytesR2o⟩ : AsOf)
      else none) = scan finish T c := by
    have hsample : sampleAt (entry finish c).samples T =
        latest (fun s : StateSample => s.t.ns) T.ns c.states :=
      (sampleAt_sorted c.states T).trans
        (asOf_insertionSort (fun s : StateSample => s.t.ns) T.ns c.states)
    unfold scan
    rw [hsample]
    refine if_congr ?_ rfl rfl
    rw [activeEntry, Bool.and_eq_true, decide_eq_true_eq, decide_eq_true_eq]
    rfl
  unfold resolveAt activeEntries withSeqEnding
  rw [List.filterMap_filter, List.filterMap_map]
  exact List.filterMap_congr fun c _ => hone c

lemma scan_rearranged {c c' : ConnSeries} (h : Rearranged c c') (finish T : Nanos) :
    scan finish T c' = scan finish T c := by
  have hfilter : ∀ k, (c'.states.filter fun s => s.t.ns = k) =
      c.states.filter fun s => s.t.ns = k := by
    intro k
    by_cases hk : ∃ t : Nanos, t.ns = k
    · obtain ⟨t, rfl⟩ := hk
      simpa only [Nanos.ext_iff] using h.stable t
    · have hnone : ∀ l : List StateSample, (l.filter fun s => s.t.ns = k) = [] := fun l =>
        List.filter_eq_nil_iff.mpr fun s _ hs => hk ⟨s.t, by simpa using hs⟩
      rw [hnone, hnone]
  unfold scan
  rw [h.conn, latest_eq_of_filters (fun s : StateSample => s.t.ns) T.ns hfilter]

lemma resolveAt_rearranged (h : List.Forall₂ Rearranged conns conns') (finish T : Nanos) :
    (withSeqEnding conns' finish).resolveAt T = (withSeqEnding conns finish).resolveAt T := by
  rw [resolveAt_withSeqEnding, resolveAt_withSeqEnding]
  induction h with
  | nil => rfl
  | cons hc _ ih => rw [List.filterMap_cons, List.filterMap_cons, scan_rearranged hc, ih]

/-! ### The event times -/

lemma sortDedup_eq (l : List Nanos) : sortDedup l = (sortByTime id l).dedup := by
  have : Std.Antisymm fun a b : Nanos => (id a).ns ≤ (id b).ns :=
    ⟨fun _ _ h h' => Nanos.ext (le_antisymm h h')⟩
  exact List.Pairwise.destutter_eq_dedup (sortByTime_sorted id l)

lemma mem_sortDedup {l : List Nanos} {x : Nanos} : x ∈ sortDedup l ↔ x ∈ l := by
  rw [sortDedup_eq, List.mem_dedup]
  exact (sortByTime_perm id l).mem_iff

lemma sortDedup_sorted (l : List Nanos) : (sortDedup l).Pairwise fun a b => a.ns < b.ns := by
  rw [sortDedup_eq]
  have hle := (sortByTime_sorted id l).sublist (List.dedup_sublist _)
  refine hle.imp₂ (fun a b hab hne => ?_) (List.nodup_dedup _)
  exact lt_of_le_of_ne hab fun h => hne (Nanos.ext h)

/-- The event times are those of the samples, once each and in order. -/
structure Marked (tl : Timeline) : Prop where
  sorted : tl.eventTimes.Pairwise fun a b => a.ns < b.ns
  mem : ∀ x, x ∈ tl.eventTimes ↔ tl.Event x

lemma marked_withSeqEnding (conns : List ConnSeries) (finish : Nanos) :
    (withSeqEnding conns finish).Marked where
  sorted := sortDedup_sorted _
  mem x := by
    change x ∈ sortDedup _ ↔ ∃ e ∈ conns.map (entry finish), _
    rw [mem_sortDedup]
    simp only [List.mem_flatMap, List.mem_map, exists_exists_and_eq_and]
    rfl

/-- Stepping by `next` from `t` visits the times of `S`, once each and in the order `r`, and then
finds none. -/
def Enumerates (next : Nanos → Option Nanos) (t : Nanos) (r : Nanos → Nanos → Prop)
    (S : Nanos → Prop) : Prop :=
  ∃ L : List Nanos, L.Pairwise r ∧ (∀ x, x ∈ L ↔ S x) ∧ ∀ n, walk next n t = L.take n

lemma enumerates_nextEvent (h : tl.Marked) (t : Nanos) :
    Enumerates tl.nextEvent t (fun a b => a.ns < b.ns) fun x => tl.Event x ∧ t.ns < x.ns := by
  refine ⟨tl.eventTimes.filter fun x => t.ns < x.ns, h.sorted.sublist List.filter_sublist,
    fun x => ?_, fun n => walk_following h.sorted n t⟩
  rw [List.mem_filter, h.mem, decide_eq_true_eq]

lemma nextEvent_some (h : tl.Marked) {t x : Nanos} (hx : tl.nextEvent t = some x) :
    tl.Event x ∧ t.ns < x.ns := by
  have hhead : (tl.eventTimes.filter fun x => t.ns < x.ns).head? = some x :=
    (following_eq h.sorted t.ns).symm.trans hx
  obtain ⟨hmem, hlt⟩ := List.mem_filter.mp (List.mem_of_head? hhead)
  exact ⟨(h.mem x).mp hmem, of_decide_eq_true hlt⟩

lemma le_advance (h : tl.Marked) (t : Nanos) : t.ns ≤ (advance tl.nextEvent t).ns := by
  unfold advance
  cases hn : tl.nextEvent t with
  | none => exact le_rfl
  | some x => exact (nextEvent_some h hn).2.le

lemma enumerates_prevEvent (h : tl.Marked) (t : Nanos) :
    Enumerates tl.prevEvent t (fun a b => b.ns < a.ns) fun x => tl.Event x ∧ x.ns < t.ns := by
  refine ⟨(tl.eventTimes.filter fun x : Nanos => x.ns < t.ns).reverse,
    List.pairwise_reverse.mpr (h.sorted.sublist List.filter_sublist), fun x => ?_,
    fun n => walk_preceding h.sorted n t⟩
  rw [List.mem_reverse, List.mem_filter, h.mem, decide_eq_true_eq]

/-- The event times ahead of `t`. -/
def ahead (tl : Timeline) (t : Nanos) : List Nanos := tl.eventTimes.filter fun x => t.ns < x.ns

lemma ahead_suffix (h : tl.Marked) (t : Nanos) : ∃ l : List Nanos,
    tl.eventTimes = l ++ tl.ahead t ∧ ∀ x, x ∈ l ↔ tl.Event x ∧ x.ns ≤ t.ns := by
  have hfront : tl.eventTimes.Pairwise fun x y =>
      decide (y.ns ≤ t.ns) = true → decide (x.ns ≤ t.ns) = true :=
    h.sorted.imp fun hxy hy => decide_eq_true (hxy.le.trans (of_decide_eq_true hy))
  refine ⟨tl.eventTimes.filter fun x => x.ns ≤ t.ns, ?_, fun x => ?_⟩
  · conv_lhs => rw [← List.takeWhile_append_dropWhile (p := fun x => decide (x.ns ≤ t.ns))
      (l := tl.eventTimes)]
    rw [Lib.Front.takeWhile_eq_filter hfront, Lib.Front.dropWhile_eq_filter hfront]
    simp only [← decide_not, not_le, ahead]
  · rw [List.mem_filter, h.mem, decide_eq_true_eq]

end Timeline

/-! ### Stepping the cursor -/

namespace App

variable {lower : String → String} {app : App}

/-- The app with its cursor at the start of its domain. -/
def rewound (app : App) : App :=
  { app with transport := { app.transport with cursor := app.transport.start } }

/-- No event lies behind the domain. -/
structure Fits (app : App) : Prop where
  marked : app.timeline.Marked
  domain : app.transport.start.ns ≤ app.transport.finish.ns
  below : ∀ x, app.timeline.Event x → x.ns ≤ app.transport.finish.ns

lemma clamp_of_mem {t lo hi : Nanos} (h₁ : lo.ns ≤ t.ns) (h₂ : t.ns ≤ hi.ns) :
    t.clamp lo hi = t := by
  rw [Nanos.clamp, if_neg (by omega), if_neg (by omega)]

lemma clamp_of_le {t lo hi : Nanos} (h : t.ns ≤ lo.ns) (hd : lo.ns ≤ hi.ns) :
    t.clamp lo hi = lo := by
  unfold Nanos.clamp
  split
  · rfl
  · rw [if_neg (by omega)]
    exact Nanos.ext (by omega)

variable (lower) in
/-- A step forward goes to the next event. -/
lemma stepForward_fits (h : app.Fits) (hc : app.transport.start.ns ≤ app.transport.cursor.ns) :
    (app.stepForward lower).timeline = app.timeline ∧
      (app.stepForward lower).transport = { app.transport with
        cursor := advance app.timeline.nextEvent app.transport.cursor } := by
  unfold stepForward advance
  cases hn : app.timeline.nextEvent app.transport.cursor with
  | none => exact ⟨rfl, rfl⟩
  | some t =>
      refine ⟨(view_reconcile _).timeline, (view_reconcile _).transport.trans ?_⟩
      obtain ⟨hevent, hlt⟩ := Timeline.nextEvent_some h.marked hn
      dsimp only [Transport.setCursor]
      rw [clamp_of_mem (by omega) (h.below t hevent)]
      rfl

variable (lower) in
/-- A step back goes to the previous event, but not out of the domain. -/
lemma stepBack_clamps (hc : app.transport.start.ns ≤ app.transport.cursor.ns)
    (hc' : app.transport.cursor.ns ≤ app.transport.finish.ns) :
    (app.stepBack lower).timeline = app.timeline ∧
      (app.stepBack lower).transport = { app.transport with
        cursor := (advance app.timeline.prevEvent app.transport.cursor).clamp
          app.transport.start app.transport.finish } := by
  unfold stepBack advance
  cases hn : app.timeline.prevEvent app.transport.cursor with
  | none =>
      refine ⟨rfl, ?_⟩
      rw [Option.getD_none, clamp_of_mem hc hc']
  | some t => exact ⟨(view_reconcile _).timeline, (view_reconcile _).transport⟩

/-- The app with its cursor at `t`. -/
def At (app : App) (t : Nanos) (app' : App) : Prop :=
  app'.timeline = app.timeline ∧ app'.transport = { app.transport with cursor := t }

lemma Fits.at {app' : App} {t : Nanos} (h : app.Fits) (ha : app.At t app') : app'.Fits := by
  obtain ⟨htl, htr⟩ := ha
  constructor <;> simp only [htl, htr]
  · exact h.marked
  · exact h.domain
  · exact h.below

variable (lower) in
/-- Stepping forward from the start. -/
lemma forward_at (h : app.Fits) (n : ℕ) :
    app.At ((advance app.timeline.nextEvent)^[n] app.transport.start)
        ((stepForward lower)^[n] app.rewound) ∧
      app.transport.start.ns ≤
        ((advance app.timeline.nextEvent)^[n] app.transport.start).ns := by
  induction n with
  | zero => exact ⟨⟨rfl, rfl⟩, le_rfl⟩
  | succ n ih =>
      obtain ⟨hat, hle⟩ := ih
      rw [Function.iterate_succ_apply', Function.iterate_succ_apply']
      have hstep := stepForward_fits lower (h.at hat) (by rw [hat.2]; exact hle)
      rw [hat.1, hat.2] at hstep
      exact ⟨hstep, hle.trans (Timeline.le_advance h.marked _)⟩

/-- A step back from a mark ahead of the start goes to the one before it, and from the first
to the start if an event lies there or behind it. -/
lemma stepBack_at (h : app.Fits) {i : ℕ} {u v : Nanos} {app' : App} (hat : app.At u app')
    (hu : (app.timeline.ahead app.transport.start)[i]? = some u)
    (hv : (app.transport.start :: app.timeline.ahead app.transport.start)[i]? = some v)
    (hi : i ≠ 0 ∨ ∃ x, app.timeline.Event x ∧ x.ns ≤ app.transport.start.ns) :
    app.At v (app'.stepBack lower) := by
  obtain ⟨l, hl, hmem⟩ := Timeline.ahead_suffix h.marked app.transport.start
  generalize hL : app.timeline.ahead app.transport.start = L at hl hu hv
  have hin : ∀ x ∈ L, app.transport.start.ns < x.ns ∧ x.ns ≤ app.transport.finish.ns := by
    intro x hx
    rw [← hL] at hx
    obtain ⟨hx, hlt⟩ := List.mem_filter.mp hx
    exact ⟨of_decide_eq_true hlt, h.below x ((h.marked.mem x).mp hx)⟩
  obtain ⟨hlo, hhi⟩ := hin u (List.mem_of_getElem? hu)
  have hprev : app.timeline.prevEvent u =
      if l.length + i = 0 then none else app.timeline.eventTimes[l.length + i - 1]? := by
    refine preceding_getElem h.marked.sorted ?_
    rw [hl, List.getElem?_append_right (by omega), Nat.add_sub_cancel_left, hu]
  obtain ⟨htl, htr⟩ := hat
  have hstep := stepBack_clamps lower (by rw [htr]; exact hlo.le) (by rw [htr]; exact hhi)
  rw [htl, htr] at hstep
  dsimp only at hstep
  suffices hclamp : (advance app.timeline.prevEvent u).clamp app.transport.start
      app.transport.finish = v by
    rwa [hclamp] at hstep
  unfold advance
  rw [hprev]
  cases i with
  | zero =>
      -- the event before the first one ahead is not ahead of the start
      obtain ⟨x, hx⟩ := hi.resolve_left (by simp)
      have hpos : l ≠ [] := List.ne_nil_of_mem ((hmem x).mpr hx)
      have hlen := List.length_pos_iff.mpr hpos
      rw [if_neg (by omega), hl, List.getElem?_append_left (by omega), Nat.add_zero,
        ← List.getLast?_eq_getElem?, List.getLast?_eq_getLast_of_ne_nil hpos, Option.getD_some]
      have hlast := ((hmem _).mp (List.getLast_mem hpos)).2
      obtain rfl : app.transport.start = v := by simpa using hv
      exact clamp_of_le hlast h.domain
  | succ i =>
      have hv' : L[i]? = some v := by simpa using hv
      rw [if_neg (by omega), hl, List.getElem?_append_right (by omega),
        show l.length + (i + 1) - 1 - l.length = i by omega, hv', Option.getD_some]
      obtain ⟨hlo, hhi⟩ := hin v (List.mem_of_getElem? hv')
      exact clamp_of_mem hlo.le hhi

/-- Stepping forward from the start of the domain visits the marks of `L` in turn and stays at
the last; stepping back retraces them, and the way to the start if an event lies there or
behind it. -/
structure Visits (lower : String → String) (app : App) (L : List Nanos) : Prop where
  forward : ∀ n, (app.transport.start :: L)[min n L.length]? =
    some ((stepForward lower)^[n] app.rewound).transport.cursor
  back : ∀ n j, n ≤ L.length → j ≤ n →
    (j < n ∨ ∃ x, app.timeline.Event x ∧ x.ns ≤ app.transport.start.ns) →
      (app.transport.start :: L)[n - j]? =
        some ((stepBack lower)^[j] ((stepForward lower)^[n] app.rewound)).transport.cursor

/-- **Stepping through an app.** -/
theorem visits_ahead (h : app.Fits) :
    app.Visits lower (app.timeline.ahead app.transport.start) := by
  have hforward : ∀ n, (app.transport.start :: app.timeline.ahead app.transport.start)[min n
      (app.timeline.ahead app.transport.start).length]? =
        some ((advance app.timeline.nextEvent)^[n] app.transport.start) :=
    iterate_advance fun n => walk_following h.marked.sorted n app.transport.start
  constructor
  · intro n
    rw [hforward n, (forward_at lower h n).1.2]
  · intro n j hn hj hearlier
    suffices hat : ∃ v, (app.transport.start ::
        app.timeline.ahead app.transport.start)[n - j]? = some v ∧
          app.At v ((stepBack lower)^[j] ((stepForward lower)^[n] app.rewound)) by
      obtain ⟨v, hv, hat⟩ := hat
      rw [hv, hat.2]
    induction j with
    | zero =>
        have hat := (forward_at lower h n).1
        refine ⟨_, ?_, hat⟩
        have := hforward n
        rwa [min_eq_left hn] at this
    | succ j ih =>
        obtain ⟨u, hu, hat⟩ := ih (by omega) (.inl (by omega))
        rw [Function.iterate_succ_apply']
        obtain ⟨v, hv⟩ : ∃ v, (app.transport.start ::
            app.timeline.ahead app.transport.start)[n - (j + 1)]? = some v :=
          ⟨_, List.getElem?_eq_getElem (by rw [List.length_cons]; omega)⟩
        refine ⟨v, hv, stepBack_at h hat ?_ hv ?_⟩
        · rwa [show n - j = n - (j + 1) + 1 by omega, List.getElem?_cons_succ] at hu
        · exact hearlier.imp_left fun hlt => by omega

/-! ### Every app -/

lemma metas_moveBy (app : App) (step : Step) : (app.moveBy lower step).metas = app.metas := by
  unfold moveBy
  dsimp only
  split <;> rfl

/-- `app'` shows the timeline of `app`, of the same connections, over the same domain. -/
structure SameDomain (app app' : App) : Prop where
  timeline : app'.timeline = app.timeline
  start : app'.transport.start = app.transport.start
  finish : app'.transport.finish = app.transport.finish
  metas : app'.metas = app.metas

lemma SameDomain.of_view {app app' : App} (h : SameView app app') (hm : app'.metas = app.metas) :
    SameDomain app app' :=
  ⟨h.timeline, by rw [h.transport], by rw [h.transport], hm⟩

lemma SameDomain.trans {app app' app'' : App} (h : SameDomain app app')
    (h' : SameDomain app' app'') : SameDomain app app'' :=
  ⟨h'.timeline.trans h.timeline, h'.start.trans h.start, h'.finish.trans h.finish,
    h'.metas.trans h.metas⟩

lemma SameDomain.reconcile {app app' : App} (h : SameDomain app app') :
    SameDomain app (app'.reconcileSelection lower) :=
  h.trans (.of_view (view_reconcile app') (metas_reconcile app'))

lemma sameDomain_freeze (app : App) : SameDomain app app.freezeIfLive := by
  unfold freezeIfLive
  split <;> exact ⟨rfl, rfl, rfl, rfl⟩

lemma sameDomain_step (app : App) (o : Option Nanos) :
    SameDomain app (match o with
      | some t => reconcileSelection lower
          { app.freezeIfLive with transport := app.freezeIfLive.transport.setCursor t }
      | none => app.freezeIfLive) := by
  cases o with
  | none => exact sameDomain_freeze app
  | some t =>
      refine SameDomain.reconcile ((sameDomain_freeze app).trans ?_)
      exact ⟨rfl, rfl, rfl, rfl⟩

lemma sameDomain_seek (app : App) (forward : Bool) :
    SameDomain app (app.freezeIfLive.seek lower forward) := by
  refine SameDomain.reconcile ((sameDomain_freeze app).trans ?_)
  exact ⟨rfl, rfl, rfl, rfl⟩

lemma sameDomain_nav (app : App) (code : KeyCode) :
    SameDomain app (handleNav lower app code).1 := by
  unfold handleNav
  split
  · exact ⟨rfl, rfl, rfl, rfl⟩
  · exact ⟨rfl, rfl, rfl, rfl⟩
  · exact ⟨rfl, rfl, rfl, rfl⟩
  · exact ⟨rfl, rfl, rfl, rfl⟩
  · exact .of_view (view_moveBy app .down) (metas_moveBy app .down)
  · exact .of_view (view_moveBy app .down) (metas_moveBy app .down)
  · exact .of_view (view_moveBy app .up) (metas_moveBy app .up)
  · exact .of_view (view_moveBy app .up) (metas_moveBy app .up)
  · split
    · unfold toggleFollow
      dsimp only
      split <;> exact ⟨rfl, rfl, rfl, rfl⟩
    · refine SameDomain.reconcile ⟨rfl, ?_, ?_, rfl⟩ <;> dsimp only [Transport.togglePlay] <;>
        split_ifs <;> rfl
  · exact sameDomain_seek app false
  · exact sameDomain_seek app true
  · exact ⟨rfl, rfl, rfl, rfl⟩
  · exact ⟨rfl, rfl, rfl, rfl⟩
  · exact ⟨rfl, rfl, rfl, rfl⟩
  · exact ⟨rfl, rfl, rfl, rfl⟩
  · exact sameDomain_step app _
  · exact sameDomain_step app _
  · dsimp only [openDetail]
    split <;> exact ⟨rfl, rfl, rfl, rfl⟩
  · exact ⟨rfl, rfl, rfl, rfl⟩
  · exact ⟨rfl, rfl, rfl, rfl⟩
  · exact ⟨rfl, rfl, rfl, rfl⟩

lemma sameDomain_filter (app : App) (code : KeyCode) :
    SameDomain app (handleFilter lower app code) := by
  unfold handleFilter
  split
  · exact ⟨rfl, rfl, rfl, rfl⟩
  · exact SameDomain.reconcile ⟨rfl, rfl, rfl, rfl⟩
  · exact SameDomain.reconcile ⟨rfl, rfl, rfl, rfl⟩
  · exact SameDomain.reconcile ⟨rfl, rfl, rfl, rfl⟩
  · exact ⟨rfl, rfl, rfl, rfl⟩

lemma sameDomain_tick (app : App) (dt : Nanos) : SameDomain app (app.tick lower dt) := by
  have hmoved : SameDomain app { app with transport := app.transport.tick dt } := by
    refine ⟨rfl, ?_, ?_, rfl⟩ <;> dsimp only [Transport.tick] <;> split_ifs <;> rfl
  unfold App.tick
  dsimp only
  split
  · exact hmoved.reconcile
  · exact hmoved

end App

namespace Timeline

variable {conns : List ConnSeries} {finish : Nanos} {tl : Timeline}

lemma event_withSeqEnding (conns : List ConnSeries) (finish x : Nanos) :
    (withSeqEnding conns finish).Event x ↔ ∃ c ∈ conns, ∃ s ∈ c.states, s.t = x := by
  change (∃ e ∈ conns.map (entry finish), _) ↔ _
  simp only [List.mem_map, exists_exists_and_eq_and]
  refine exists_congr fun c => and_congr_right fun _ => exists_congr fun s =>
    and_congr_left fun _ => ?_
  exact (sortByTime_perm StateSample.t c.states).mem_iff

lemma minTime_mem {l : List Nanos} (h : l ≠ []) : minTime l ∈ l := by
  have hfold : ∀ (l : List Nanos) (m : Nanos),
      l.foldl (fun a b => if a.ns ≤ b.ns then a else b) m ∈ m :: l := by
    intro l
    induction l with
    | nil => simp
    | cons x l ih =>
        intro m
        rw [List.foldl_cons]
        split
        · exact List.mem_cons.mpr ((List.mem_cons.mp (ih m)).imp_right (List.mem_cons_of_mem x))
        · exact List.mem_cons_of_mem m (ih x)
  cases l with
  | nil => exact absurd rfl h
  | cons x l => exact hfold l x

lemma minTime_le_of_mem {l : List Nanos} {x : Nanos} (h : x ∈ l) : (minTime l).ns ≤ x.ns := by
  have hfold : ∀ (l : List Nanos) (m : Nanos), ∀ x ∈ l,
      (l.foldl (fun a b => if a.ns ≤ b.ns then a else b) m).ns ≤ x.ns := by
    intro l
    induction l with
    | nil => simp
    | cons y l ih =>
        intro m x hx
        rw [List.foldl_cons]
        rcases List.mem_cons.mp hx with rfl | hx
        · refine (foldl_min_le l _).trans ?_
          split <;> omega
        · exact ih _ x hx
  cases l with
  | nil => simp at h
  | cons y l =>
      rcases List.mem_cons.mp h with rfl | h
      · exact foldl_min_le l x
      · exact hfold l y x h

/-- The domain of a timeline reaches from its first event to behind its last. -/
structure Spans (tl : Timeline) : Prop where
  marked : tl.Marked
  first : ∀ x, tl.Event x → tl.start.ns ≤ x.ns ∧ tl.Event tl.start
  last : ∀ x, tl.Event x → x.ns ≤ tl.finish.ns

lemma spans_withSeqEnding (h : ∀ c ∈ conns, ∀ s ∈ c.states, s.t.ns ≤ finish.ns) :
    (withSeqEnding conns finish).Spans where
  marked := marked_withSeqEnding conns finish
  first x hx := by
    obtain ⟨c, hc, s, hs, rfl⟩ := (event_withSeqEnding conns finish x).mp hx
    have hmem : s.t ∈ conns.flatMap fun c => c.states.map StateSample.t :=
      List.mem_flatMap.mpr ⟨c, hc, List.mem_map_of_mem hs⟩
    refine ⟨minTime_le_of_mem hmem, (event_withSeqEnding conns finish _).mpr ?_⟩
    obtain ⟨d, hd, ht⟩ := List.mem_flatMap.mp (minTime_mem (List.ne_nil_of_mem hmem))
    obtain ⟨s', hs', heq⟩ := List.mem_map.mp ht
    exact ⟨d, hd, s', hs', heq⟩
  last x hx := by
    obtain ⟨c, hc, s, hs, rfl⟩ := (event_withSeqEnding conns finish x).mp hx
    exact h c hc s hs

lemma Tracked.spans (h : tl.Tracked) : tl.Spans := by
  obtain ⟨cfg, items, rfl | h⟩ := h
  · refine spans_withSeqEnding fun d hd s hs => ?_
    obtain ⟨c, hc, rfl⟩ := List.mem_map.mp hd
    exact (below_lastAt cfg items c hc s hs).trans (sound_track cfg items c hc).last
  · obtain ⟨-, rfl⟩ := timeline_of_ok h
    refine spans_withSeqEnding fun d hd s hs => ?_
    obtain ⟨c, hc, rfl⟩ := List.mem_map.mp hd
    refine (below_lastAt cfg items c hc s hs).trans (le_maxTime ?_)
    simp only [List.map_map, List.mem_map]
    exact ⟨c, hc, rfl⟩

end Timeline

/-- A frame as the live loop makes it: the snapshot of a tracker, from its horizon to its
clock. -/
def AppEvent.Snapped : AppEvent → Prop
  | .retarget timeline horizon now _ => ∃ cfg items,
      timeline = (Tracker.track cfg items).snapshot ∧
        horizon = (Tracker.track cfg items).retentionHorizon cfg ∧
        now = (Tracker.track cfg items).now
  | _ => True

/-- A frame. -/
def AppEvent.isFrame : AppEvent → Bool
  | .retarget _ _ _ _ => true
  | _ => false

namespace App

variable {lower : String → String} {app : App}

lemma sameDomain_handle {e : AppEvent} (he : e.isFrame = false) :
    SameDomain app (app.handle lower e) := by
  cases e with
  | key key =>
      change SameDomain app (handleKey lower app key).1
      unfold handleKey
      split
      · exact ⟨rfl, rfl, rfl, rfl⟩
      · split
        · exact sameDomain_nav app key.code
        · exact sameDomain_filter app key.code
  | tick dt => exact sameDomain_tick app dt
  | retarget => simp [AppEvent.isFrame] at he
  | name obs => exact ⟨rfl, rfl, rfl, rfl⟩

lemma Fits.sameDomain {app' : App} (h : app.Fits) (hd : SameDomain app app') : app'.Fits := by
  constructor <;> simp only [hd.timeline, hd.start, hd.finish]
  · exact h.marked
  · exact h.domain
  · exact h.below

lemma fits_opening (lower : String → String) {o : Opening} (ho : o.Tracked) :
    (o.app lower).Fits := by
  cases o with
  | replay timeline names title =>
      have hs := Timeline.Tracked.spans ho
      exact ⟨hs.marked, (Timeline.Tracked.proper ho).bounds, hs.last⟩
  | live names title =>
      refine ⟨Timeline.marked_withSeqEnding [] _, le_rfl, fun x hx => ?_⟩
      obtain ⟨e, he, -⟩ := hx
      simp [Opening.app, newLive, newWithNames, Timeline.withSeq, Timeline.withSeqEnding] at he

variable (lower) in
/-- A frame brings its timeline and its domain. -/
lemma domain_retarget (app : App) (timeline : Timeline) (horizon now : Nanos)
    (status : LiveStatus) :
    (app.retarget lower timeline horizon now status).timeline = timeline ∧
      (app.retarget lower timeline horizon now status).transport.start = horizon ∧
      (app.retarget lower timeline horizon now status).transport.finish = now := by
  refine ⟨(view_reconcile _).timeline, ?_⟩
  rw [retarget_transport]
  split <;> exact ⟨rfl, rfl⟩

/-- What hangs on the timeline and its domain alone holds of a run if it holds at the start and
of every frame. -/
lemma inv_frames {P : App → Prop} {F : AppEvent → Prop} {events : List AppEvent} (h0 : P app)
    (hsame : ∀ app app', P app → SameDomain app app' → P app')
    (hframe : ∀ (app : App) timeline horizon now status, F (.retarget timeline horizon now status) →
      P (app.retarget lower timeline horizon now status))
    (he : ∀ e ∈ events, F e) : P (run (App.handle lower) app events) := by
  refine inv_of_steps (G := fun _ e => F e) h0 (fun app e h hf => ?_) fun q e hq =>
    he e (hq.subset (by simp))
  cases hk : e.isFrame with
  | false => exact hsame _ _ h (sameDomain_handle hk)
  | true =>
      cases e with
      | retarget timeline horizon now status => exact hframe app timeline horizon now status hf
      | _ => simp [AppEvent.isFrame] at hk

/-- A live frame reaches from the horizon to the clock, which no event passes. -/
lemma fits_frame (app : App) {timeline : Timeline} {horizon now : Nanos} {status : LiveStatus}
    (he : AppEvent.Snapped (.retarget timeline horizon now status)) :
    (app.retarget lower timeline horizon now status).Fits := by
  obtain ⟨cfg, items, rfl, rfl, rfl⟩ := he
  have hs : (Tracker.track cfg items).snapshot.Spans :=
    Timeline.Tracked.spans ⟨cfg, items, .inl rfl⟩
  obtain ⟨htl, hstart, hfinish⟩ := domain_retarget lower app (Tracker.track cfg items).snapshot
    ((Tracker.track cfg items).retentionHorizon cfg) (Tracker.track cfg items).now status
  constructor
  · rw [htl]
    exact hs.marked
  · rw [hstart, hfinish]
    unfold Tracker.retentionHorizon
    split
    · exact Nat.sub_le _ _
    · exact le_rfl
  · rw [htl, hfinish]
    exact hs.last

lemma fits_run (lower : String → String) {o : Opening} (ho : o.Tracked) {events : List AppEvent}
    (he : ∀ e ∈ events, e.Snapped) : (run (App.handle lower) (o.app lower) events).Fits :=
  inv_frames (fits_opening lower ho) (fun _ _ h hd => h.sameDomain hd)
    (fun app _ _ _ _ he => fits_frame app he) he

lemma sameDomain_run (lower : String → String) (app : App) {events : List AppEvent}
    (he : ∀ e ∈ events, e.isFrame = false) :
    SameDomain app (run (App.handle lower) app events) := by
  refine inv_of_steps (P := SameDomain app) (G := fun _ e => e.isFrame = false) ⟨rfl, rfl, rfl, rfl⟩
    (fun _ _ h he => h.trans (sameDomain_handle he)) fun q e hq => he e ?_
  exact hq.subset (by simp)

/-- Stepping through the app visits every event ahead of the start of its domain. -/
def StepsThrough (lower : String → String) (app : App) : Prop :=
  ∃ L : List Nanos, L.Pairwise (fun a b => a.ns < b.ns) ∧
    (∀ x, x ∈ L ↔ app.timeline.Event x ∧ app.transport.start.ns < x.ns) ∧ app.Visits lower L

/-- The domain starts at the first event, if there is any. -/
def Whole (app : App) : Prop :=
  ∀ x, app.timeline.Event x → app.timeline.Event app.transport.start ∧
    (x = app.transport.start ∨ app.transport.start.ns < x.ns)

lemma Fits.stepsThrough (h : app.Fits) : app.StepsThrough lower := by
  refine ⟨_, h.marked.sorted.sublist List.filter_sublist, fun x => ?_, visits_ahead h⟩
  rw [List.mem_filter, h.marked.mem, decide_eq_true_eq]

lemma whole_opening (lower : String → String) {timeline : Timeline} (h : timeline.Tracked)
    (names : NameTable) (title : String) : (newWithNames lower timeline names title).Whole := by
  intro x hx
  obtain ⟨hle, hfirst⟩ := (Timeline.Tracked.spans h).first x hx
  refine ⟨hfirst, ?_⟩
  rcases hle.lt_or_eq with hlt | heq
  · exact .inr hlt
  · exact .inl (Nanos.ext heq.symm)

lemma Whole.sameDomain {app' : App} (h : app.Whole) (hd : SameDomain app app') : app'.Whole := by
  unfold Whole
  rw [hd.timeline, hd.start]
  exact h

/-- **Queries and steps.** Every query of a timeline is what a scan of its samples finds, and
does not see how samples of different times are interleaved; stepping from event to event
passes the times of all samples. So do the steps of an app inside its cursor domain, and on a
replay that is all of them. -/
theorem queries_are_scans (lower : String → String) :
    (∀ conns finish T,
      (Timeline.withSeqEnding conns finish).resolveAt T =
        conns.filterMap (Timeline.scan finish T)) ∧
    (∀ conns conns' finish T, List.Forall₂ Timeline.Rearranged conns conns' →
      (Timeline.withSeqEnding conns' finish).resolveAt T =
        (Timeline.withSeqEnding conns finish).resolveAt T) ∧
    (∀ (conns : List ConnSeries) finish t,
      Timeline.Enumerates (Timeline.withSeqEnding conns finish).nextEvent t
          (fun a b => a.ns < b.ns)
          (fun x => (∃ c ∈ conns, ∃ s ∈ c.states, s.t = x) ∧ t.ns < x.ns) ∧
        Timeline.Enumerates (Timeline.withSeqEnding conns finish).prevEvent t
          (fun a b => b.ns < a.ns)
          (fun x => (∃ c ∈ conns, ∃ s ∈ c.states, s.t = x) ∧ x.ns < t.ns)) ∧
    (∀ (o : Opening) events, o.Tracked → (∀ e ∈ events, e.Snapped) →
      (run (App.handle lower) (o.app lower) events).StepsThrough lower) ∧
    ∀ timeline names title events, timeline.Tracked → (∀ e ∈ events, e.isFrame = false) →
      (run (App.handle lower) (newWithNames lower timeline names title) events).Whole := by
  refine ⟨Timeline.resolveAt_withSeqEnding, fun _ _ finish T h =>
    Timeline.resolveAt_rearranged h finish T, fun conns finish t => ?_, fun o events ho he => ?_,
    fun timeline names title events ht he => ?_⟩
  · have hm := Timeline.marked_withSeqEnding conns finish
    simp only [← Timeline.event_withSeqEnding conns finish]
    exact ⟨Timeline.enumerates_nextEvent hm t, Timeline.enumerates_prevEvent hm t⟩
  · exact (fits_run lower ho he).stepsThrough
  · exact (whole_opening lower ht names title).sameDomain (sameDomain_run lower _ he)

/-- Ten nanoseconds of retention. -/
def brief : EngineConfig where
  retention := .evict (Nanos.sat 10) 1000
  collectStateTimeline := true

/-- One connection is silent from the start, another opens long after and goes on. -/
def silentSince : List Item :=
  [.segment (.between 1 2 0 TcpFlags.ACK 100 10), .segment (.between 3 4 100 TcpFlags.ACK 500 10),
    .segment (.between 3 4 104 TcpFlags.ACK 510 10),
    .segment (.between 4 3 108 TcpFlags.ACK 900 0 520)]

/-- The frame that shows both: the first has kept its last snapshot. -/
def longAfter : AppEvent :=
  .retarget (Tracker.track brief silentSince).snapshot
    ((Tracker.track brief silentSince).retentionHorizon brief) (Tracker.track brief silentSince).now
    {}

lemma run_longAfter (app : App) :
    run (App.handle lower) app [longAfter] = app.retarget lower
      (Tracker.track brief silentSince).snapshot
      ((Tracker.track brief silentSince).retentionHorizon brief)
      (Tracker.track brief silentSince).now {} := rfl

lemma snapped_longAfter : ∀ e ∈ [longAfter], e.Snapped := by
  simp only [List.mem_singleton, forall_eq]
  exact ⟨brief, silentSince, rfl, rfl, rfl⟩

/-- No step reaches the snapshot of the silent connection, which lies behind the horizon. -/
theorem not_every_event_visited :
    ¬ ∀ (lower : String → String) (o : Opening) (events : List AppEvent), o.Tracked →
      (∀ e ∈ events, e.Snapped) →
        ∀ x, (run (App.handle lower) (o.app lower) events).timeline.Event x →
          ∃ n, ((stepForward lower)^[n]
            (run (App.handle lower) (o.app lower) events).rewound).transport.cursor = x := by
  intro h
  have hf := fits_run String.toLower (o := .live {} "") trivial snapped_longAfter
  have hvisit := h String.toLower (.live {} "") [longAfter] trivial snapped_longAfter (Nanos.sat 0)
  rw [run_longAfter] at hf hvisit
  obtain ⟨htl, hstart, -⟩ := domain_retarget String.toLower
    ((Opening.live {} "").app String.toLower) (Tracker.track brief silentSince).snapshot
    ((Tracker.track brief silentSince).retentionHorizon brief)
    (Tracker.track brief silentSince).now {}
  obtain ⟨n, hn⟩ := hvisit ((hf.marked.mem _).mp (by rw [htl]; decide +kernel))
  obtain ⟨hat, hle⟩ := forward_at String.toLower hf n
  rw [hat.2] at hn
  dsimp only at hn
  rw [hn, hstart] at hle
  revert hle
  decide +kernel

/-- There the steps pass the events of the domain, and a fourth one goes nowhere. -/
theorem queries_are_scans_longAfter :
    let app := run (App.handle String.toLower) ((Opening.live {} "").app String.toLower) [longAfter]
    app.StepsThrough String.toLower ∧
      [1, 2, 3, 4].map (fun n =>
        ((stepForward String.toLower)^[n] app.rewound).transport.cursor) =
          [Nanos.sat 100, Nanos.sat 104, Nanos.sat 108, Nanos.sat 108] :=
  ⟨(queries_are_scans String.toLower).2.2.2.1 (.live {} "") [longAfter] trivial snapped_longAfter,
    by decide +kernel⟩

end App

end TcpVisr
