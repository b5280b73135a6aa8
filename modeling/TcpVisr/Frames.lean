import TcpVisr.Selecting
import TcpVisr.Kept

/-!
The live loop: one tracker folds items in, and each frame hands its snapshot to the app.

The app caches what a row needs of a connection under its `ConnId` and refreshes ids it has
not seen only. The tracker may forget a pair altogether and open it again under the same
`ConnId`, so the cache is right exactly as long as nothing that came back came back changed.
-/

namespace TcpVisr

open Lib.Runs Recording Slots Plan Passes Lifecycle Index Steps Kept

/-- What reaches the live loop: a captured item, an observed name, or the end of a frame. -/
inductive LiveEvent
  | item (x : Item)
  | name (obs : NameObservation)
  | frame (horizon now : Nanos) (status : LiveStatus)

/-- The live loop. `lost` is a ghost that nothing reads: the connections of the last frame
that the tracker has dropped since. -/
structure Live where
  tracker : Tracker
  app : App
  lost : List ConnId

namespace Live

/-- The ids of the connections in the last frame. -/
def shownIds (s : Live) : List ConnId := s.app.timeline.connections.map Connection.id

section Step

variable (lower : String → String) (cfg : EngineConfig)

def new (names : NameTable) (title : String) : Live :=
  ⟨Tracker.new, App.newLive lower names title, []⟩

/-- `next_frame`, one event at a time. -/
def step (s : Live) : LiveEvent → Live
  | .item x =>
    { s with
      tracker := s.tracker.observe cfg x
      lost := s.lost ++ s.shownIds.filter fun id => ((s.tracker.observe cfg x).find id).isNone }
  | .name obs => { s with app := s.app.observeName obs }
  | .frame horizon now status =>
    { s with app := s.app.retarget lower s.tracker.snapshot horizon now status, lost := [] }

end Step

end Live

/-! ### The cache -/

/-- A cached projection is right for a connection: the host aside, which may be older. -/
structure ConnMeta.Matches (lower : String → String) (m : ConnMeta) (c : Connection) : Prop where
  peer : m.peer = c.responder
  service : m.service = serviceName c.responder.port
  originInferred : m.originInferred = c.originInferred
  searchPrefix : m.searchPrefix = App.searchPrefix lower c m.host

namespace App

variable {lower : String → String} {names : NameTable}

/-- The cache has the connections of the last snapshot, each as the snapshot has it. -/
structure Fresh (lower : String → String) (app : App) : Prop where
  keys : ∀ id, (app.metas id).isSome ↔ id ∈ app.timeline.connections.map Connection.id
  rows : ∀ c ∈ app.timeline.connections, ∀ m, app.metas c.id = some m → m.Matches lower c

lemma insertMetas_of_not_mem {metas : ConnId → Option ConnMeta} {cs : List Connection}
    {id : ConnId} (h : id ∉ cs.map Connection.id) :
    insertMetas lower names metas cs id = metas id := by
  induction cs generalizing metas with
  | nil => rfl
  | cons c cs ih =>
      rw [List.map_cons, List.mem_cons, not_or] at h
      refine (ih h.2).trans ?_
      exact Function.update_of_ne h.1 _ _

lemma insertMetas_of_mem {metas : ConnId → Option ConnMeta} {cs : List Connection}
    (hn : (cs.map Connection.id).Nodup) {c : Connection} (hc : c ∈ cs) :
    insertMetas lower names metas cs c.id = some (metaFor lower c names) := by
  induction cs generalizing metas with
  | nil => simp at hc
  | cons d cs ih =>
      rw [List.map_cons, List.nodup_cons] at hn
      rcases List.mem_cons.mp hc with rfl | hc
      · refine (insertMetas_of_not_mem hn.1).trans ?_
        exact Function.update_self _ _ _
      · exact ih hn.2 hc

lemma metas_reconcile (app : App) : (app.reconcileSelection lower).metas = app.metas := by
  unfold reconcileSelection
  simp only
  split <;> rfl

lemma timeline_reconcile (app : App) :
    (app.reconcileSelection lower).timeline = app.timeline := by
  unfold reconcileSelection
  simp only
  split <;> rfl

section Retarget

variable {app : App} {tl : Timeline} {horizon now : Nanos} {status : LiveStatus}

@[simp] lemma timeline_retarget :
    (app.retarget lower tl horizon now status).timeline = tl := by
  unfold retarget
  rw [timeline_reconcile]

/-- An id the snapshot lacks is forgotten. -/
lemma metas_retarget_of_not_mem {id : ConnId} (h : id ∉ tl.connections.map Connection.id) :
    (app.retarget lower tl horizon now status).metas id = none := by
  unfold retarget
  rw [metas_reconcile]
  refine (insertMetas_of_not_mem fun hm => h ?_).trans (if_neg h)
  obtain ⟨c, hc, hid⟩ := List.mem_map.mp hm
  exact hid ▸ List.mem_map_of_mem (List.mem_of_mem_filter hc)

/-- **What a frame caches.** A connection known to the cache keeps its entry; one that is not
gets its own. -/
theorem metas_retarget_of_mem (hn : (tl.connections.map Connection.id).Nodup) {c : Connection}
    (hc : c ∈ tl.connections) :
    (app.retarget lower tl horizon now status).metas c.id =
      some ((app.metas c.id).getD (metaFor lower c app.names)) := by
  have hid : c.id ∈ tl.connections.map Connection.id := List.mem_map_of_mem hc
  unfold retarget
  rw [metas_reconcile]
  change insertMetas lower app.names _ _ c.id = _
  cases hm : app.metas c.id with
  | none =>
      refine (insertMetas_of_mem (hn.sublist (List.filter_sublist.map _)) ?_).trans rfl
      exact List.mem_filter.mpr ⟨hc, by simp [hm]⟩
  | some m =>
      refine (insertMetas_of_not_mem fun hmem => ?_).trans ((if_pos hid).trans hm)
      obtain ⟨d, hd, hdc⟩ := List.mem_map.mp hmem
      have hnone := (List.mem_filter.mp hd).2
      simp [hdc, hid, hm] at hnone

end Retarget

end App

/-! ### Orientation -/

/-- Two connections that a row shows alike: to the same peer, and as sure of it. -/
def Alike (c d : Connection) : Prop :=
  c.responder = d.responder ∧ c.originInferred = d.originInferred

/-- The origin of a connection is what its pair has beside the responder. -/
lemma origin_eq {a b r : Endpoint} (h : EndpointPair.new a r = EndpointPair.new b r) : a = b := by
  rcases EndpointPair.endpoints_of_new_eq h with ⟨h1, -⟩ | ⟨h1, h2⟩
  · exact h1
  · exact h1.trans h2

/-- A projection that is right for one connection of an id is right for another exactly if
the two are alike. -/
lemma ConnMeta.Matches.iff_alike {lower : String → String} {m : ConnMeta} {c d : Connection}
    (h : m.Matches lower d) (hp : EndpointPair.new c.origin c.responder =
      EndpointPair.new d.origin d.responder) : m.Matches lower c ↔ Alike c d := by
  constructor
  · intro hc
    exact ⟨hc.peer.symm.trans h.peer, hc.originInferred.symm.trans h.originInferred⟩
  · rintro ⟨hr, hi⟩
    have ho : c.origin = d.origin := origin_eq (hr ▸ hp)
    refine ⟨h.peer.trans hr.symm, by rw [h.service, hr], h.originInferred.trans hi.symm, ?_⟩
    rw [h.searchPrefix]
    unfold App.searchPrefix
    rw [ho, hr]

section Tracker

variable {cfg : EngineConfig} {t : Tracker}

lemma originInferred_accounted (c : ConnTrack) (seg : Segment) :
    (accounted c seg).originInferred = c.originInferred := by
  obtain ⟨_, _, _, _, _, _, _, h⟩ := accounted_frame c seg
  rw [h]

/-- **Orientation is kept.** A connection that stays tracked keeps its responder and whether
its origin was inferred. -/
theorem alike_observe (hi : Indexed t.life) (hb : t.collectedSamples = retained t.conns)
    {x : Item} {c c' : ConnTrack} (hc : c ∈ t.conns) (hc' : c' ∈ (t.observe cfg x).conns)
    (hid : c'.id = c.id) : Alike c'.view c.view := by
  cases stays_of_mem hi hb hc hc' hid with
  | same hd _ _ =>
      exact ⟨eq_of_core ConnTrack.responder hd, eq_of_core ConnTrack.originInferred hd⟩
  | @joined seg _ _ =>
      have hcore := (recorded_join cfg (t.slot c) seg).core
      exact ⟨(eq_of_core ConnTrack.responder hcore).trans (accounted_responder c seg),
        (eq_of_core ConnTrack.originInferred hcore).trans (originInferred_accounted c seg)⟩

end Tracker

/-! ### The loop -/

namespace Live

variable {lower : String → String} {cfg : EngineConfig} {s : Live}

/-- What holds in every state of the loop: a connection of the last frame that has been
tracked ever since still looks as it did there. -/
structure Good (cfg : EngineConfig) (s : Live) : Prop where
  run : ∃ items, s.tracker = Tracker.track cfg items
  paired : ∀ d ∈ s.app.timeline.connections, EndpointPair.new d.origin d.responder = d.id.pair
  stayed : ∀ d ∈ s.app.timeline.connections, d.id ∉ s.lost →
    ∃ c ∈ s.tracker.conns, c.id = d.id ∧ Alike c.view d

/-- A frame is safe if no connection of the last one was lost since and has come back with
another responder or another certainty about its origin. -/
def NoneTurned (s : Live) : LiveEvent → Prop
  | .frame _ _ _ => ∀ d ∈ s.app.timeline.connections, ∀ c ∈ s.tracker.conns,
      c.id = d.id → d.id ∈ s.lost → Alike c.view d
  | _ => True

lemma connections_snapshot (t : Tracker) :
    t.snapshot.connections = t.conns.map ConnTrack.view := by
  simp [Tracker.snapshot, Timeline.withSeqEnding, Timeline.connections, Timeline.entry,
    List.map_map, Function.comp_def, ConnTrack.connSeries]

lemma good_new (names : NameTable) (title : String) : Good cfg (Live.new lower names title) :=
  ⟨⟨[], rfl⟩, by simp [Live.new, App.newLive, App.newWithNames, Timeline.connections,
    Timeline.withSeq, Timeline.withSeqEnding], by simp [Live.new, App.newLive, App.newWithNames,
    Timeline.connections, Timeline.withSeq, Timeline.withSeqEnding]⟩

lemma good_item (h : Good cfg s) (x : Item) : Good cfg (s.step lower cfg (.item x)) := by
  obtain ⟨⟨items, ht⟩, hp, hs⟩ := h
  have hi := indexed_track cfg items
  have hb := (counted_track cfg items).balance
  rw [← ht] at hi hb
  refine ⟨⟨items ++ [x], by rw [Tracker.track_snoc, ← ht]; rfl⟩, hp, fun d hd hl => ?_⟩
  obtain ⟨hl, hkept⟩ := not_or.mp (mt List.mem_append.mpr hl)
  obtain ⟨c, hc, hid, halike⟩ := hs d hd hl
  have hfind : ((s.tracker.observe cfg x).find d.id).isSome := by
    by_contra hnone
    exact hkept (List.mem_filter.mpr ⟨List.mem_map_of_mem hd, by simpa using hnone⟩)
  obtain ⟨c', hc'⟩ := Option.isSome_iff_exists.mp hfind
  obtain ⟨hmem, hid'⟩ := find_some hc'
  have h' := alike_observe hi hb hc hmem (hid'.trans hid.symm)
  exact ⟨c', hmem, hid', h'.1.trans halike.1, h'.2.trans halike.2⟩

lemma good_frame (h : Good cfg s) (horizon now : Nanos) (status : LiveStatus) :
    Good cfg (s.step lower cfg (.frame horizon now status)) := by
  obtain ⟨⟨items, ht⟩, -, -⟩ := h
  have hconn : (s.step lower cfg (.frame horizon now status)).app.timeline.connections =
      s.tracker.conns.map ConnTrack.view := by
    change (s.app.retarget lower s.tracker.snapshot horizon now status).timeline.connections = _
    rw [App.timeline_retarget, connections_snapshot]
  refine ⟨⟨items, ht⟩, fun d hd => ?_, fun d hd _ => ?_⟩ <;> rw [hconn] at hd <;>
    obtain ⟨c, hc, rfl⟩ := List.mem_map.mp hd
  · exact (sound_track cfg items c (ht ▸ hc)).pair
  · exact ⟨c, hc, rfl, rfl, rfl⟩

lemma good_step (h : Good cfg s) (e : LiveEvent) : Good cfg (s.step lower cfg e) := by
  cases e with
  | item x => exact good_item h x
  | name obs => exact ⟨h.run, h.paired, h.stayed⟩
  | frame horizon now status => exact good_frame h horizon now status

lemma matches_metaFor (c : Connection) (names : NameTable) :
    (App.metaFor lower c names).Matches lower c := ⟨rfl, rfl, rfl, rfl⟩

section Frame

variable {tl : Timeline} {horizon now : Nanos} {status : LiveStatus} {app : App}

/-- The entry a frame leaves for one of its connections is right exactly if the connection is
alike to every one of the last frame with its id. -/
lemma entry_iff (hf : app.Fresh lower) (hn : (tl.connections.map Connection.id).Nodup)
    {c : Connection} (hc : c ∈ tl.connections)
    (hp : ∀ d ∈ app.timeline.connections, d.id = c.id →
      EndpointPair.new c.origin c.responder = EndpointPair.new d.origin d.responder) :
    (∀ m, (app.retarget lower tl horizon now status).metas c.id = some m → m.Matches lower c) ↔
      ∀ d ∈ app.timeline.connections, d.id = c.id → Alike c d := by
  rw [App.metas_retarget_of_mem hn hc]
  simp only [Option.some.injEq, forall_eq']
  cases hm : app.metas c.id with
  | none =>
      refine iff_of_true (matches_metaFor c app.names) fun d hd hid => ?_
      have := (hf.keys d.id).mpr (List.mem_map_of_mem hd)
      rw [hid, hm] at this
      exact absurd this (by simp)
  | some m =>
      constructor
      · intro h d hd hid
        exact ((hf.rows d hd m (hid ▸ hm)).iff_alike (hp d hd hid)).mp h
      · intro h
        obtain ⟨d, hd, hid⟩ := List.mem_map.mp ((hf.keys c.id).mp (by rw [hm]; rfl))
        exact ((hf.rows d hd m (hid ▸ hm)).iff_alike (hp d hd hid)).mpr (h d hd hid)

lemma keys_retarget (hn : (tl.connections.map Connection.id).Nodup) (id : ConnId) :
    ((app.retarget lower tl horizon now status).metas id).isSome ↔
      id ∈ tl.connections.map Connection.id := by
  by_cases h : id ∈ tl.connections.map Connection.id
  · obtain ⟨c, hc, rfl⟩ := List.mem_map.mp h
    rw [App.metas_retarget_of_mem hn hc]
    exact iff_of_true rfl h
  · rw [App.metas_retarget_of_not_mem h]
    exact iff_of_false (by simp) h

end Frame

/-- **One frame.** It leaves the cache right exactly if nothing that came back had turned. -/
theorem fresh_frame_iff (hg : Good cfg s) (hf : s.app.Fresh lower) (horizon now : Nanos)
    (status : LiveStatus) :
    (s.step lower cfg (.frame horizon now status)).app.Fresh lower ↔
      s.NoneTurned (.frame horizon now status) := by
  obtain ⟨⟨items, ht⟩, hpair, hstay⟩ := hg
  have hi := indexed_track cfg items
  have hs := sound_track cfg items
  rw [← ht] at hi hs
  have hn : (s.tracker.snapshot.connections.map Connection.id).Nodup := by
    rw [connections_snapshot, List.map_map]
    exact nodup_ids hi
  have hentry : ∀ c ∈ s.tracker.conns,
      (∀ m, (s.app.retarget lower s.tracker.snapshot horizon now status).metas c.id = some m →
        m.Matches lower c.view) ↔
      ∀ d ∈ s.app.timeline.connections, d.id = c.id → Alike c.view d := by
    intro c hc
    refine entry_iff hf hn (c := c.view) ?_ fun d hd hid => ?_
    · rw [connections_snapshot]
      exact List.mem_map_of_mem hc
    · have hpid : d.id.pair = c.id.pair := congrArg ConnId.pair hid
      exact (hs c hc).pair.trans (hpid.symm.trans (hpair d hd).symm)
  constructor
  · intro h d hd c hc hid _
    refine (hentry c hc).mp (h.rows c.view ?_) d hd hid.symm
    change c.view ∈ (s.app.retarget lower _ _ _ _).timeline.connections
    rw [App.timeline_retarget, connections_snapshot]
    exact List.mem_map_of_mem hc
  · intro h
    refine ⟨fun id => ?_, fun c' hc' => ?_⟩
    · change ((s.app.retarget lower _ _ _ _).metas id).isSome ↔
        id ∈ (s.app.retarget lower _ _ _ _).timeline.connections.map Connection.id
      rw [App.timeline_retarget]
      exact keys_retarget hn id
    · change c' ∈ (s.app.retarget lower _ _ _ _).timeline.connections at hc'
      rw [App.timeline_retarget, connections_snapshot] at hc'
      obtain ⟨c, hc, rfl⟩ := List.mem_map.mp hc'
      refine (hentry c hc).mpr fun d hd hid => ?_
      by_cases hl : d.id ∈ s.lost
      · exact h d hd c hc hid.symm hl
      · -- Tracked ever since the last frame: it looks as it did there.
        obtain ⟨c₁, hc₁, hid₁, halike⟩ := hstay d hd hl
        obtain rfl := eq_of_id hi hc₁ hc (hid₁.trans hid)
        exact halike

lemma fresh_step_iff (hg : Good cfg s) (hf : s.app.Fresh lower) (e : LiveEvent) :
    (s.step lower cfg e).app.Fresh lower ↔ s.NoneTurned e := by
  cases e with
  | item x => exact iff_of_true hf trivial
  | name obs => exact iff_of_true ⟨hf.keys, hf.rows⟩ trivial
  | frame horizon now status => exact fresh_frame_iff hg hf horizon now status

lemma fresh_new (names : NameTable) (title : String) :
    (Live.new lower names title).app.Fresh lower := by
  constructor <;> simp [Live.new, App.newLive, App.newWithNames, Timeline.connections,
    Timeline.withSeq, Timeline.withSeqEnding, App.insertMetas]

end Live

/-- **Row metadata over a run.** In every run of the live loop the cache agrees with the last
snapshot after every frame exactly if no frame finds a connection of the last one that was
dropped since and has come back, under the same `ConnId`, with another responder or another
certainty about its origin. -/
theorem always_fresh_iff (lower : String → String) (cfg : EngineConfig) (names : NameTable)
    (title : String) (events : List LiveEvent) :
    Always (Live.step lower cfg) (Live.new lower names title) (fun s => s.app.Fresh lower)
        events ↔
      Steps (Live.step lower cfg) (Live.new lower names title) Live.NoneTurned events :=
  always_iff_steps (I := Live.Good cfg)
    (fun p => inv_run (Live.good_new names title) (fun _ e h => Live.good_step h e) p)
    (Live.fresh_new names title) (fun _ e hg hf => Live.fresh_step_iff hg hf e) events

/-! ### A stale row -/

/-- A pair whose first connection resets and is evicted, and whose other side then opens the
next one, all between two frames. -/
def turnedAround : List LiveEvent :=
  [.item (.segment (.between 1 2 0 0x04 5)), .frame (Nanos.sat 0) (Nanos.sat 0) {},
    .item (.tick (Nanos.sat 100)), .item (.segment (.between 2 1 100 0x10 7 4)),
    .frame (Nanos.sat 90) (Nanos.sat 100) {}]

/-- The row still shows the responder of the first connection as the peer. -/
theorem row_stale :
    ¬ Always (Live.step String.toLower { retention := .evict (Nanos.sat 10) 100 })
      (Live.new String.toLower {} "") (fun s => s.app.Fresh String.toLower) turnedAround := by
  intro h
  have hrows := (h _ List.prefix_rfl).rows
  have hpeer := fun c hc m hm => (hrows c hc m hm).peer
  revert hpeer
  decide +kernel

end TcpVisr
