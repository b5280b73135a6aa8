import TcpVisr.Steps

/-!
Reading a tracker through a timeline: what the active set and the resolution at a cursor say
in terms of the tracked connections.
-/

namespace TcpVisr.Queries

open Lib.AsOf

/-- `opened_at <= t <= effective_end`, on the tracked connection. -/
def activeTrack (finish t : Nanos) (c : ConnTrack) : Bool :=
  decide (c.openedAt.ns ≤ t.ns) &&
    decide (t.ns ≤ (if c.state.terminal then c.lastAt else finish).ns)

/-- What a connection's snapshots say as of `t`. -/
def resolved (t : Nanos) (c : ConnTrack) : Option AsOf :=
  (asOf (fun s : StateSample => s.t.ns) t.ns (sortByTime StateSample.t c.kept.states)).map
    fun s => ⟨c.id, s.state, s.bytesO2r, s.bytesR2o⟩

variable {cs : List ConnTrack} {finish t : Nanos}

lemma activeEntries_tracked (cs : List ConnTrack) (finish t : Nanos) :
    (Timeline.withSeqEnding (cs.map ConnTrack.connSeries) finish).activeEntries t =
      (cs.filter (activeTrack finish t)).map fun c => Timeline.entry finish c.connSeries := by
  unfold Timeline.activeEntries Timeline.withSeqEnding
  simp only [List.map_map]
  exact List.filter_map

/-- The active set. -/
lemma activeAt_tracked (cs : List ConnTrack) (finish t : Nanos) :
    (Timeline.withSeqEnding (cs.map ConnTrack.connSeries) finish).activeAt t =
      (cs.filter (activeTrack finish t)).map ConnTrack.id := by
  unfold Timeline.activeAt
  rw [activeEntries_tracked, List.map_map]
  rfl

/-- The resolution at a cursor. -/
lemma resolveAt_tracked (cs : List ConnTrack) (finish t : Nanos) :
    (Timeline.withSeqEnding (cs.map ConnTrack.connSeries) finish).resolveAt t =
      (cs.filter (activeTrack finish t)).filterMap (resolved t) := by
  unfold Timeline.resolveAt
  rw [activeEntries_tracked, List.filterMap_map]
  refine List.filterMap_congr fun c _ => ?_
  simp only [Function.comp_apply, Timeline.entry, sampleAt_sorted, resolved]
  rfl

/-- The same on a finished replay. -/
lemma resolveAt_replayed (cs : List ConnTrack) (t : Nanos) :
    (Timeline.withSeq (cs.map ConnTrack.connSeries)).resolveAt t =
      (cs.filter (activeTrack (Timeline.withSeq (cs.map ConnTrack.connSeries)).finish t)).filterMap
        (resolved t) :=
  resolveAt_tracked cs _ t

/-- Where every active connection resolves, the resolution lists the active set. -/
lemma map_filterMap_resolved {l : List ConnTrack} (h : ∀ c ∈ l, (resolved t c).isSome) :
    (l.filterMap (resolved t)).map AsOf.id = l.map ConnTrack.id := by
  induction l with
  | nil => rfl
  | cons c l ih =>
      obtain ⟨a, ha⟩ := Option.isSome_iff_exists.mp (h c (by simp))
      have hid : a.id = c.id := by
        obtain ⟨s, -, rfl⟩ := Option.map_eq_some_iff.mp ha
        rfl
      rw [List.filterMap_cons_some ha, List.map_cons, List.map_cons, hid,
        ih fun d hd => h d (by simp [hd])]

lemma le_maxTime {l : List Nanos} {x : Nanos} (hx : x ∈ l) : x.ns ≤ (maxTime l).ns := by
  have hfold : ∀ (l : List Nanos) (m : Nanos),
      m.ns ≤ (l.foldl max m).ns ∧ ∀ x ∈ l, x.ns ≤ (l.foldl max m).ns := by
    intro l
    induction l with
    | nil => intro m; simp
    | cons y l ih =>
        intro m
        obtain ⟨h1, h2⟩ := ih (max m y)
        rw [Nanos.ns_max] at h1
        refine ⟨by rw [List.foldl_cons]; omega, fun x hx => ?_⟩
        rcases List.mem_cons.mp hx with rfl | hx
        · rw [List.foldl_cons]; omega
        · exact h2 x hx
  exact (hfold l _).2 x hx

end TcpVisr.Queries
