import TcpVisr.Selecting
import TcpVisr.Kept
import TcpVisr.Queries
import TcpVisr.Seek

/-!
The cursor and its domain.

Rust's `clamp` panics on an empty range. Every range it is given comes from a timeline or
from the tracker's clock, so the times of a run decide whether it can panic, and the
operations of the app whether the cursor ever leaves the domain.
-/

namespace TcpVisr

open Lib.Runs Recording Slots Plan Passes Lifecycle Index Steps Kept Seek Queries

/-- Every range a timeline hands out is one: its domain and the span of each connection. -/
structure Timeline.Proper (tl : Timeline) : Prop where
  bounds : tl.bounds.1.ns ≤ tl.bounds.2.ns
  xSpan : ∀ id span, tl.xSpan id = some span → span.1.ns ≤ span.2.ns

/-! ### The times of a run -/

section Tracker

variable {cfg : EngineConfig} {items : List Item}

/-- No lifecycle snapshot lies after `b`. -/
def Below (b : ℕ) (k : Retained) : Prop := ∀ s ∈ k.states, s.t.ns ≤ b

lemma below_drop {b : ℕ} {k k' : Retained} (h : Below b k) (hd : DropsFronts k k') : Below b k' :=
  fun s hs => h s (hd.states.subset hs)

lemma below_grows {b : ℕ} {P : Sample → Prop} {k k' : Retained} (h : Below b k)
    (hg : Grows P k k') (hP : ∀ s, P (.state s) → s.t.ns ≤ b) : Below b k' := by
  refine hg.keeps (I := Below b) h (fun _ _ => below_drop) fun k x hk hx => ?_
  cases x with
  | state s =>
      intro s' hs'
      rcases List.mem_append.mp hs' with hs' | hs'
      · exact hk s' hs'
      · rw [List.mem_singleton.mp hs']
        exact hP s hx
  | _ => exact hk

lemma below_aged {c : ConnTrack} (n : ℕ) (h : Below c.lastAt.ns c.kept) :
    Below (aged n c).lastAt.ns (aged n c).kept :=
  below_drop h (dropsFronts_age n c.kept)

/-- **Snapshots lie within the life.** No retained lifecycle snapshot of a connection is later
than its last activity. -/
theorem below_lastAt (cfg : EngineConfig) (items : List Item) :
    ∀ c ∈ (Tracker.track cfg items).conns, Below c.lastAt.ns c.kept := by
  induction items using List.reverseRecOn with
  | nil => simp [Tracker.new]
  | append_singleton p x ih =>
      intro c hmem
      rw [Tracker.track_snoc] at hmem
      cases came_of_mem (counted_track cfg p).balance x c hmem with
      | apart hc hj => exact below_aged _ (ih _ (List.mem_of_getElem? hc))
      | @joined seg _ c hj hc =>
          have hr := recorded_join cfg ((Tracker.track cfg p).slot c) seg
          have hlast := (eq_of_core ConnTrack.lastAt hr.core).trans (accounted_lastAt c seg)
          refine below_aged _ (below_grows ?_ hr.grows ?_) <;> rw [hlast, Nanos.ns_max]
          · intro s hs
            rw [accounted_kept] at hs
            exact le_max_of_le_left (ih c (List.mem_of_getElem? hc) s hs)
          · intro s hs
            exact le_max_of_le_right (congrArg Nanos.ns hs).le
      | @opened seg hj =>
          have hr := recorded_found cfg ((Tracker.track cfg p).slot
            (freshTrack ((Tracker.track cfg p).nextId seg.pair) seg)) seg
          have hlast := (eq_of_core ConnTrack.lastAt hr.core).trans (lastAt_freshTrack _ seg)
          refine below_aged _ (below_grows ?_ hr.grows ?_) <;> rw [hlast]
          · simp [Below, Tracker.slot]
          · intro s hs
            exact (congrArg Nanos.ns hs).le
      | inert hw hc => exact ih _ hc
      | ticked hw hc hf _ =>
          have hlast := eq_of_core ConnTrack.lastAt hf.core
          refine below_aged _ (below_grows ?_ hf.grows ?_) <;> rw [hlast]
          · exact ih _ hc
          · rintro s ⟨-, hs⟩
            simp [isState] at hs

lemma foldl_min_le (l : List Nanos) (m : Nanos) :
    (l.foldl (fun a b => if a.ns ≤ b.ns then a else b) m).ns ≤ m.ns := by
  induction l generalizing m with
  | nil => exact le_rfl
  | cons x l ih =>
      have hx : (if m.ns ≤ x.ns then m else x).ns ≤ m.ns := by split <;> omega
      exact (ih _).trans hx

lemma minTime_le {l : List Nanos} {b : ℕ} (h : ∀ x ∈ l, x.ns ≤ b) : (minTime l).ns ≤ b := by
  cases l with
  | nil => exact Nat.zero_le b
  | cons x l => exact (foldl_min_le l x).trans (h x List.mem_cons_self)

/-- A timeline is proper when its end is at or after all activity. -/
lemma proper_withSeqEnding {cs : List ConnTrack} {finish : Nanos}
    (hb : ∀ c ∈ cs, Below c.lastAt.ns c.kept) (ho : ∀ c ∈ cs, c.openedAt.ns ≤ c.lastAt.ns)
    (hf : ∀ c ∈ cs, c.lastAt.ns ≤ finish.ns) :
    (Timeline.withSeqEnding (cs.map ConnTrack.connSeries) finish).Proper := by
  constructor
  · apply minTime_le
    intro x hx
    obtain ⟨d, hd, hx⟩ := List.mem_flatMap.mp hx
    obtain ⟨c, hc, rfl⟩ := List.mem_map.mp hd
    obtain ⟨s, hs, rfl⟩ := List.mem_map.mp hx
    exact (hb c hc s hs).trans (hf c hc)
  · rintro id span hspan
    obtain ⟨e, he, rfl⟩ := Option.map_eq_some_iff.mp hspan
    obtain ⟨d, hd, rfl⟩ := List.mem_map.mp (List.mem_of_find?_eq_some he)
    obtain ⟨c, hc, rfl⟩ := List.mem_map.mp hd
    change c.openedAt.ns ≤ (if c.state.terminal then c.lastAt else finish).ns
    split
    · exact ho c hc
    · exact (ho c hc).trans (hf c hc)

/-- **Live timelines are proper.** -/
theorem proper_snapshot (cfg : EngineConfig) (items : List Item) :
    (Tracker.track cfg items).snapshot.Proper :=
  proper_withSeqEnding (below_lastAt cfg items) (fun c hc => (sound_track cfg items c hc).opened)
    fun c hc => (sound_track cfg items c hc).last

/-- **Replay timelines are proper.** -/
theorem proper_intoTimeline (cfg : EngineConfig) (items : List Item) {tl : Timeline}
    (h : (Tracker.track cfg items).intoTimeline cfg = .ok tl) : tl.Proper := by
  obtain ⟨-, rfl⟩ := timeline_of_ok h
  refine proper_withSeqEnding (below_lastAt cfg items)
    (fun c hc => (sound_track cfg items c hc).opened) fun c hc => le_maxTime ?_
  simp only [List.map_map, List.mem_map]
  exact ⟨c, hc, rfl⟩

end Tracker

/-! ### The transport -/

lemma Nanos.le_sat_add (a : Nanos) (n : ℕ) : a.ns ≤ (Nanos.sat (a.ns + n)).ns :=
  le_min (Nat.le_add_right _ _) a.le_max

namespace Transport

/-- The cursor is inside the domain, which is therefore not empty. -/
structure Within (tr : Transport) : Prop where
  start_le : tr.start.ns ≤ tr.cursor.ns
  le_finish : tr.cursor.ns ≤ tr.finish.ns

lemma clamp_within {lo hi : Nanos} (t : Nanos) (h : lo.ns ≤ hi.ns) :
    lo.ns ≤ (t.clamp lo hi).ns ∧ (t.clamp lo hi).ns ≤ hi.ns := by
  unfold Nanos.clamp
  split_ifs <;> omega

variable {tr : Transport}

lemma Within.start_le_finish (h : tr.Within) : tr.start.ns ≤ tr.finish.ns :=
  h.start_le.trans h.le_finish

lemma within_new {start finish : Nanos} (h : start.ns ≤ finish.ns) :
    (Transport.new start finish).Within := ⟨le_rfl, h⟩

lemma within_setCursor (h : tr.start.ns ≤ tr.finish.ns) (t : Nanos) :
    (tr.setCursor t).Within := ⟨(clamp_within t h).1, (clamp_within t h).2⟩

lemma within_seek (h : tr.start.ns ≤ tr.finish.ns) (forward : Bool) :
    (tr.seek forward).Within := within_setCursor h _

lemma within_setDomain {start finish : Nanos} (h : start.ns ≤ finish.ns) (tr : Transport) :
    (tr.setDomain start finish).Within :=
  ⟨(clamp_within tr.cursor h).1, (clamp_within tr.cursor h).2⟩

lemma within_togglePlay (h : tr.Within) : tr.togglePlay.Within := by
  have hle := h.start_le_finish
  unfold togglePlay
  split
  · exact ⟨h.start_le, h.le_finish⟩
  · split
    · exact ⟨le_rfl, hle⟩
    · exact ⟨h.start_le, h.le_finish⟩

/-- Where a playing cursor stands after `dt`. -/
def advanced (tr : Transport) (dt : Nanos) : Nanos :=
  let next := Nanos.sat (tr.cursor.ns +
    (Nanos.sat (dt.ns * (ratios tr.speedIdx).1 / (ratios tr.speedIdx).2)).ns)
  if next.ns ≤ tr.finish.ns then next else tr.finish

lemma tick_playing (hp : tr.playing = true) (dt : Nanos) :
    tr.tick dt =
      { tr with
        cursor := tr.advanced dt
        playing := !decide (tr.finish.ns ≤ (tr.advanced dt).ns) } := by
  have htick : tr.tick dt =
      if tr.finish.ns ≤ (tr.advanced dt).ns then
        { tr with cursor := tr.advanced dt, playing := false }
      else { tr with cursor := tr.advanced dt } := by
    unfold tick
    rw [if_neg (by simp [hp])]
    rfl
  rw [htick]
  split
  · next h => rw [decide_eq_true h, Bool.not_true]
  · next h => rw [decide_eq_false h, Bool.not_false, ← hp]

lemma tick_paused (hp : tr.playing = false) (dt : Nanos) : tr.tick dt = tr := by
  simp [tick, hp]

lemma advanced_within (h : tr.Within) (dt : Nanos) :
    tr.start.ns ≤ (tr.advanced dt).ns ∧ (tr.advanced dt).ns ≤ tr.finish.ns := by
  unfold advanced
  simp only
  split
  · next hle => exact ⟨h.start_le.trans (Nanos.le_sat_add tr.cursor _), hle⟩
  · exact ⟨h.start_le_finish, le_rfl⟩

lemma within_tick (h : tr.Within) (dt : Nanos) : (tr.tick dt).Within := by
  cases hp : tr.playing with
  | false => rwa [tick_paused hp]
  | true =>
      rw [tick_playing hp]
      exact ⟨(advanced_within h dt).1, (advanced_within h dt).2⟩

/-- Playing stops at the end only. -/
lemma cursor_of_tick_stops (h : tr.Within) (hp : tr.playing = true) {dt : Nanos}
    (hs : (tr.tick dt).playing = false) : (tr.tick dt).cursor = (tr.tick dt).finish := by
  rw [tick_playing hp] at hs ⊢
  have hle : tr.finish.ns ≤ (tr.advanced dt).ns := by simpa using hs
  ext
  exact le_antisymm (advanced_within h dt).2 hle

end Transport

/-! ### The app -/

namespace App

variable {lower : String → String}

/-- What holds of the domain, the cursor and the timeline at all times. -/
structure Safe (app : App) : Prop where
  within : app.transport.Within
  pinned : app.isLive = true → app.follow = true →
    app.transport.cursor = app.transport.finish
  paused : app.isLive = true → app.transport.playing = false
  follows : app.follow = true → app.isLive = true
  proper : app.timeline.Proper

/-- `app'` shows the timeline of `app` at the same cursor, in the same mode of following. -/
structure SameView (app app' : App) : Prop where
  transport : app'.transport = app.transport
  timeline : app'.timeline = app.timeline
  isLive : app'.isLive = app.isLive
  follow : app'.follow = app.follow

lemma Safe.view {app app' : App} (h : app.Safe) (hv : SameView app app') : app'.Safe := by
  obtain ⟨h1, h2, h3, h4⟩ := hv
  obtain ⟨g1, g2, g3, g4, g5⟩ := h
  constructor <;> simp only [h1, h2, h3, h4] <;> assumption

lemma view_reconcile (app : App) : SameView app (app.reconcileSelection lower) := by
  unfold reconcileSelection
  simp only
  split <;> exact ⟨rfl, rfl, rfl, rfl⟩

lemma view_moveBy (app : App) (step : Step) : SameView app (app.moveBy lower step) := by
  unfold moveBy
  simp only
  split <;> exact ⟨rfl, rfl, rfl, rfl⟩

lemma Safe.reconcile {app : App} (h : app.Safe) : (app.reconcileSelection lower).Safe :=
  h.view (view_reconcile app)

/-- Moving the transport of an app that does not follow. -/
lemma Safe.move {app : App} (h : app.Safe) (hf : app.follow = false) {tr : Transport}
    (hw : tr.Within) (hp : app.isLive = true → tr.playing = false) :
    Safe { app with transport := tr } :=
  ⟨hw, fun _ hfol => absurd (hf.symm.trans hfol) (by simp), hp, h.follows, h.proper⟩

/-- Nothing follows in an app that is frozen, or that replays. -/
lemma follow_freezeIfLive {app : App} (h : app.Safe) : app.freezeIfLive.follow = false := by
  unfold freezeIfLive
  split
  · rfl
  · next hl =>
      by_contra hf
      exact hl (h.follows (by simpa using hf))

lemma Safe.freeze {app : App} (h : app.Safe) : app.freezeIfLive.Safe := by
  have hf := follow_freezeIfLive h
  unfold freezeIfLive at hf ⊢
  split
  · exact ⟨h.within, fun _ hfol => absurd hfol (by simp), h.paused, by simp, h.proper⟩
  · exact h

lemma Safe.seek {app : App} (h : app.Safe) (forward : Bool) :
    (app.freezeIfLive.seek lower forward).Safe := by
  have hz := h.freeze
  refine Safe.reconcile (hz.move (follow_freezeIfLive h) ?_ fun hl => ?_)
  · exact Transport.within_seek hz.within.start_le_finish forward
  · exact hz.paused hl

/-- A step to an event time, if there is one. -/
lemma Safe.step {app : App} (h : app.Safe) (o : Option Nanos) :
    Safe (match o with
      | some t => reconcileSelection lower
          { app.freezeIfLive with transport := app.freezeIfLive.transport.setCursor t }
      | none => app.freezeIfLive) := by
  have hz := h.freeze
  cases o with
  | none => exact hz
  | some t =>
      refine Safe.reconcile (hz.move (follow_freezeIfLive h) ?_ fun hl => ?_)
      · exact Transport.within_setCursor hz.within.start_le_finish t
      · exact hz.paused hl

lemma Safe.space {app : App} (h : app.Safe) :
    Safe (if app.isLive then app.toggleFollow else app.togglePlay lower) := by
  have hd := h.within.start_le_finish
  by_cases hl : app.isLive
  · simp only [hl, if_true]
    unfold toggleFollow
    simp only
    split
    · refine ⟨Transport.within_setCursor hd _, fun _ _ => ?_, h.paused, fun _ => hl, h.proper⟩
      -- Clamping the domain's end into the domain leaves it where it is.
      change app.transport.finish.clamp app.transport.start app.transport.finish = _
      unfold Nanos.clamp
      rw [if_neg (by omega), if_neg (lt_irrefl _)]
      rfl
    · next hf => exact ⟨h.within, fun _ hfol => absurd hfol hf, h.paused, fun _ => hl, h.proper⟩
  · simp only [hl]
    have hf : app.follow = false := by
      by_contra hf
      exact hl (h.follows (by simpa using hf))
    refine Safe.reconcile (h.move hf (Transport.within_togglePlay h.within) fun hl' => ?_)
    exact absurd hl' hl

lemma Safe.speed {app : App} (h : app.Safe) (i : Fin 6) :
    Safe { app with transport := { app.transport with speedIdx := i } } :=
  ⟨⟨h.within.start_le, h.within.le_finish⟩, h.pinned, h.paused, h.follows, h.proper⟩

lemma Safe.nav {app : App} (h : app.Safe) (code : KeyCode) :
    (handleNav lower app code).1.Safe := by
  unfold handleNav
  split
  · exact h
  · exact h.view ⟨rfl, rfl, rfl, rfl⟩
  · exact h.view ⟨rfl, rfl, rfl, rfl⟩
  · exact h.view ⟨rfl, rfl, rfl, rfl⟩
  · exact h.view (view_moveBy app .down)
  · exact h.view (view_moveBy app .down)
  · exact h.view (view_moveBy app .up)
  · exact h.view (view_moveBy app .up)
  · exact h.space
  · exact h.seek false
  · exact h.seek true
  · exact h.speed _
  · exact h.speed _
  · exact h.speed _
  · exact h.speed _
  · exact h.step _
  · exact h.step _
  · refine h.view ?_
    unfold openDetail
    split <;> exact ⟨rfl, rfl, rfl, rfl⟩
  · exact h.view ⟨rfl, rfl, rfl, rfl⟩
  · exact h.view ⟨rfl, rfl, rfl, rfl⟩
  · exact h

lemma Safe.filter {app : App} (h : app.Safe) (code : KeyCode) :
    (handleFilter lower app code).Safe := by
  unfold handleFilter
  split
  · exact h.view ⟨rfl, rfl, rfl, rfl⟩
  · exact Safe.reconcile (h.view ⟨rfl, rfl, rfl, rfl⟩)
  · exact Safe.reconcile (h.view ⟨rfl, rfl, rfl, rfl⟩)
  · exact Safe.reconcile (h.view ⟨rfl, rfl, rfl, rfl⟩)
  · exact h

lemma Safe.key {app : App} (h : app.Safe) (key : KeyEvent) : (handleKey lower app key).1.Safe := by
  unfold handleKey
  split
  · exact h
  · split
    · exact h.nav key.code
    · exact h.filter key.code

/-- The cursor after a tick, whether or not the selection is reconciled. -/
lemma tick_transport (app : App) (dt : Nanos) :
    (app.tick lower dt).transport = app.transport.tick dt := by
  unfold tick
  simp only
  split
  · exact (view_reconcile _).transport
  · rfl

lemma Safe.tick {app : App} (h : app.Safe) (dt : Nanos) : (app.tick lower dt).Safe := by
  have hmoved : Safe { app with transport := app.transport.tick dt } := by
    cases hp : app.transport.playing with
    | false => rwa [Transport.tick_paused hp]
    | true =>
        have hl : app.isLive = false := by
          by_contra hl
          exact absurd (hp.symm.trans (h.paused (by simpa using hl))) (by simp)
        have hf : app.follow = false := by
          by_contra hf
          exact absurd (hl.symm.trans (h.follows (by simpa using hf))) (by simp)
        exact h.move hf (Transport.within_tick h.within dt) fun hl' =>
          absurd (hl.symm.trans hl') (by simp)
  unfold App.tick
  simp only
  split
  · exact hmoved.reconcile
  · exact hmoved

/-- The transport after a fresh snapshot. -/
lemma retarget_transport (app : App) (timeline : Timeline) (horizon now : Nanos)
    (status : LiveStatus) :
    (app.retarget lower timeline horizon now status).transport =
      if app.follow then (app.transport.setDomain horizon now).setCursor now
      else app.transport.setDomain horizon now :=
  (view_reconcile _).transport

lemma Safe.retarget {app : App} (h : app.Safe) {timeline : Timeline} (ht : timeline.Proper)
    {horizon now : Nanos} (hle : horizon.ns ≤ now.ns) (status : LiveStatus) :
    (app.retarget lower timeline horizon now status).Safe := by
  have hd := Transport.within_setDomain hle app.transport
  unfold App.retarget
  refine Safe.reconcile ⟨?_, fun hl hf => ?_, fun hl => ?_, h.follows, ht⟩
  · change Transport.Within (if app.follow then _ else _)
    split
    · exact Transport.within_setCursor hle now
    · exact hd
  · have hf' : app.follow = true := hf
    simp only [hf', if_true]
    change now.clamp horizon now = now
    unfold Nanos.clamp
    rw [if_neg (by omega), if_neg (lt_irrefl _)]
  · have hp : app.transport.playing = false := h.paused hl
    change Transport.playing (if app.follow then _ else _) = false
    split <;> exact hp

end App

/-- A timeline that some tracker run gives, live or as a replay. -/
def Timeline.Tracked (tl : Timeline) : Prop :=
  ∃ cfg items, (Tracker.track cfg items).snapshot = tl ∨
    (Tracker.track cfg items).intoTimeline cfg = .ok tl

lemma Timeline.Tracked.proper {tl : Timeline} (h : tl.Tracked) : tl.Proper := by
  obtain ⟨cfg, items, rfl | h⟩ := h
  · exact proper_snapshot cfg items
  · exact proper_intoTimeline cfg items h

/-- A replayed timeline comes from a tracker run. -/
def Opening.Tracked : Opening → Prop
  | .replay timeline _ _ => timeline.Tracked
  | .live _ _ => True

/-- A frame shows a tracker's timeline, over a domain that is one. -/
def AppEvent.Framed : AppEvent → Prop
  | .retarget timeline horizon now _ => timeline.Tracked ∧ horizon.ns ≤ now.ns
  | _ => True

lemma proper_empty : (Timeline.withSeq []).Proper :=
  ⟨le_rfl, fun _ _ h => by simp [Timeline.xSpan, Timeline.find, Timeline.withSeq,
    Timeline.withSeqEnding] at h⟩

lemma App.safe_opening (lower : String → String) {o : Opening} (ho : o.Tracked) :
    (o.app lower).Safe := by
  cases o with
  | replay timeline names title =>
      have hp := ho.proper
      exact ⟨Transport.within_new hp.bounds, fun hl => absurd hl (by simp [Opening.app,
        App.newWithNames]), fun _ => rfl, fun hf => absurd hf (by simp [Opening.app,
        App.newWithNames]), hp⟩
  | live names title =>
      exact ⟨Transport.within_new proper_empty.bounds, fun _ _ => rfl, fun _ => rfl,
        fun _ => rfl, proper_empty⟩

lemma App.Safe.handle {lower : String → String} {app : App} (h : app.Safe) {e : AppEvent}
    (he : e.Framed) : (app.handle lower e).Safe := by
  cases e with
  | key key => exact h.key key
  | tick dt => exact h.tick dt
  | retarget timeline horizon now status => exact h.retarget he.1.proper he.2 status
  | name obs => exact h.view ⟨rfl, rfl, rfl, rfl⟩

/-! ### The safety of the cursor -/

/-- The cursor is in its domain, at its end while a live app follows, and the span a detail
graph is given is one. -/
def App.InDomain (app : App) : Prop :=
  (app.transport.start.ns ≤ app.transport.cursor.ns ∧
    app.transport.cursor.ns ≤ app.transport.finish.ns) ∧
  (app.isLive = true → app.follow = true → app.transport.cursor = app.transport.finish) ∧
  ∀ f, app.focus = some f → f.xSpan.1.ns ≤ f.xSpan.2.ns

lemma App.Safe.inDomain {app : App} (h : app.Safe) : app.InDomain := by
  refine ⟨⟨h.within.start_le, h.within.le_finish⟩, h.pinned, fun f hf => ?_⟩
  simp only [App.focus, Option.bind_eq_bind, Option.bind_eq_some_iff] at hf
  obtain ⟨id, -, c, -, span, hspan, hf⟩ := hf
  obtain rfl := Option.some.inj hf
  exact h.proper.xSpan id span hspan

/-- What a step may do to the cursor: a frame only clamps a frozen one into its domain, and a
tick stops playing at the end only. -/
def App.Gentle (lower : String → String) (app : App) (e : AppEvent) : Prop :=
  (∀ timeline horizon now status, e = .retarget timeline horizon now status →
    app.isLive = true → app.follow = false →
      (app.handle lower e).transport.cursor = app.transport.cursor.clamp horizon now) ∧
  ∀ dt, e = .tick dt → app.transport.playing = true →
    (app.handle lower e).transport.playing = false →
      (app.handle lower e).transport.cursor = (app.handle lower e).transport.finish

lemma App.Safe.gentle {lower : String → String} {app : App} (h : app.Safe) (e : AppEvent) :
    app.Gentle lower e := by
  constructor
  · rintro timeline horizon now status rfl - hf
    change (app.retarget lower timeline horizon now status).transport.cursor = _
    rw [App.retarget_transport, hf]
    rfl
  · rintro dt rfl hp hs
    change (app.tick lower dt).transport.playing = false at hs
    change (app.tick lower dt).transport.cursor = (app.tick lower dt).transport.finish
    rw [App.tick_transport] at hs ⊢
    exact Transport.cursor_of_tick_stops h.within hp hs

/-- **Cursor and domain.** Every range a tracker's timelines give is one. In every app over
such timelines the cursor stays in its domain, a following one at its end, and no frame or
tick moves it in any other way than it may. -/
theorem cursor_in_domain (lower : String → String) {o : Opening} (ho : o.Tracked)
    {events : List AppEvent} (he : ∀ e ∈ events, e.Framed) :
    (∀ tl : Timeline, tl.Tracked → tl.Proper) ∧
      Always (App.handle lower) (o.app lower) App.InDomain events ∧
      Steps (App.handle lower) (o.app lower) (App.Gentle lower) events := by
  have hsafe : ∀ p, p <+: events → (run (App.handle lower) (o.app lower) p).Safe := by
    intro p hp
    refine inv_of_steps (G := fun _ e => e.Framed) (App.safe_opening lower ho)
      (fun _ _ h he => h.handle he) fun q e hq => he e ?_
    exact (hq.trans hp).subset (by simp)
  refine ⟨fun _ h => h.proper, fun p hp => (hsafe p hp).inDomain, fun p e hp => ?_⟩
  exact (hsafe p ((List.prefix_append p [e]).trans hp)).gentle e

/-- A live session that freezes, steps back and follows again. -/
theorem cursor_in_domain_session :
    (∀ tl : Timeline, tl.Tracked → tl.Proper) ∧
      Always (App.handle String.toLower) (Opening.app String.toLower (.live {} ""))
        App.InDomain App.backAndFollow ∧
      Steps (App.handle String.toLower) (Opening.app String.toLower (.live {} ""))
        (App.Gentle String.toLower) App.backAndFollow := by
  refine cursor_in_domain String.toLower (o := .live {} "") trivial fun e he => ?_
  simp only [App.backAndFollow, List.mem_cons, List.not_mem_nil, or_false] at he
  obtain rfl | rfl | rfl := he
  · exact ⟨⟨_, _, Or.inl rfl⟩, by decide⟩
  · trivial
  · trivial

end TcpVisr
