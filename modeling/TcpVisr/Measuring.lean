import TcpVisr.Collection
import TcpVisr.Commands
import TcpVisr.Ledger
import TcpVisr.Traffic

/-!
What `metrics` prints.

The command reads its file twice: once to find the connection at an index of the list that
`conns` prints, and once more to collect the samples of that connection alone. What it comes
to is the derivation folded over the segments of that one connection, as though there were
nothing else in the capture and no tracker.
-/

namespace TcpVisr

open Lib.Runs Recording Slots Plan Passes Lifecycle Index Steps Appending Kept Ceiling Collection

/-! ### The derivation by itself -/

/-- One more segment of a connection that `origin` opened. -/
def measured (cfg : EngineConfig) (origin : Endpoint) (acc : MetricState × List MetricSample)
    (seg : Segment) : MetricState × List MetricSample :=
  let dir := if seg.flow.source = origin then .originToResponder else .responderToOrigin
  let o := acc.1.observe seg dir cfg
  (o.1, acc.2 ++ [o.2])

/-- The samples of a connection that `origin` opened, from its segments in order. -/
def measure (cfg : EngineConfig) (origin : Endpoint) (l : List Segment) :
    MetricState × List MetricSample :=
  run (measured cfg origin) (.new, []) l

/-! ### Replays and their ledgers -/

section Replays

variable {cfg cfg' : EngineConfig} {t u : Tracker} {seg : Segment}

/-- Which instance a segment joins is a matter of the lifecycle. -/
lemma target_congr (hl : t.life = u.life)
    (hs : ∀ c seg, shouldSplit cfg c seg = shouldSplit cfg' c seg) :
    (target cfg t seg).map ConnTrack.id = (target cfg' u seg).map ConnTrack.id := by
  have hids (i : ℕ) : (t.conns[i]?).map ConnTrack.id = (u.conns[i]?).map ConnTrack.id := by
    have hcore := congrArg (fun l : Life => (l.conns[i]?).map ConnTrack.id) hl
    simp only [Tracker.life, List.getElem?_map, Option.map_map] at hcore
    exact hcore
  have hjoins : t.joins cfg seg = u.joins cfg' seg := by
    rw [← joins_life, ← joins_life, hl]
    simp only [Life.joins, hs]
  unfold target
  rw [hjoins]
  cases u.joins cfg' seg with
  | none => rfl
  | some i => exact hids i

lemma nextId_congr (hl : t.life = u.life) (p : EndpointPair) : t.nextId p = u.nextId p := by
  unfold Tracker.nextId
  rw [← life_nextInstance, hl, life_nextInstance]

/-- Who gets a segment, and what they had before. -/
lemma entries_observe (g : Ledger) (seg : Segment) :
    (g.observe cfg (.segment seg)).entries =
      match (target cfg g.tracker seg).map ConnTrack.id with
      | some id => Function.update g.entries id (g.entries id ++ [seg])
      | none => Function.update g.entries (g.tracker.nextId seg.pair) [seg] := by
  simp only [Ledger.observe]
  cases target cfg g.tracker seg with
  | none => simp
  | some c => simp

lemma entries_tick (g : Ledger) (at_ : Nanos) : (g.observe cfg (.tick at_)).entries = g.entries :=
  rfl

lemma ledger_snoc (p : List Item) (x : Item) :
    Ledger.ledger cfg (p ++ [x]) = (Ledger.ledger cfg p).observe cfg x := run_snoc _ _ p x

/-- The ledger does not see what is collected. -/
lemma entries_congr (hw : cfg.retention.window = none) (hw' : cfg'.retention.window = none)
    (hd : cfg.deadAfter = cfg'.deadAfter) (hr : cfg.resetThreshold = cfg'.resetThreshold)
    (items : List Item) :
    (Ledger.ledger cfg items).entries = (Ledger.ledger cfg' items).entries := by
  induction items using List.reverseRecOn with
  | nil => simp only [Ledger.ledger, run_nil]
  | append_singleton p x ih =>
      have hl : (Ledger.ledger cfg p).tracker.life = (Ledger.ledger cfg' p).tracker.life := by
        rw [Ledger.tracker_ledger, Ledger.tracker_ledger]
        exact life_congr cfg cfg' hw hw' hd hr p
      rw [ledger_snoc, ledger_snoc]
      cases x with
      | tick at_ => rw [entries_tick, entries_tick, ih]
      | segment seg =>
          rw [entries_observe, entries_observe, ih, nextId_congr hl,
            target_congr hl (shouldSplit_congr hd hr)]

/-- A segment that joins an instance. -/
lemma forall_appended_join {R : ConnTrack → List Segment → Prop}
    {entries : ConnId → List Segment} (hi : Indexed u.life)
    (hjoin : ∀ c l seg, R c l → R (joined cfg seg c) (l ++ [seg]))
    (h : ∀ c ∈ u.conns, R c (entries c.id)) {i : ℕ} {c : ConnTrack}
    (hj : u.joins cfg seg = some i) (hc : u.conns[i]? = some c) :
    ∀ d ∈ appended cfg u (.segment seg),
      R d (Function.update entries c.id (entries c.id ++ [seg]) d.id) := by
  rw [appended_join hj]
  refine forall_mem_modify.mpr ⟨fun d hd => ?_, fun j d hd hji => ?_⟩
  · obtain rfl := Option.some.inj (hc.symm.trans hd)
    have hid : (joined cfg seg c).id = c.id := accounted_id c seg
    rw [hid, Function.update_self]
    exact hjoin c _ seg (h c (List.mem_of_getElem? hc))
  · have hne : d.id ≠ c.id := fun heq => hji (id_inj hi hd hc heq)
    rw [Function.update_of_ne hne]
    exact h d (List.mem_of_getElem? hd)

/-- A segment that opens one. -/
lemma forall_appended_create {R : ConnTrack → List Segment → Prop}
    {entries : ConnId → List Segment} (hi : Indexed u.life)
    (hfound : ∀ id seg, R (founded cfg seg (freshTrack id seg)) [seg])
    (h : ∀ c ∈ u.conns, R c (entries c.id)) (hj : u.joins cfg seg = none) :
    ∀ d ∈ appended cfg u (.segment seg),
      R d (Function.update entries (u.nextId seg.pair) [seg] d.id) := by
  rw [appended_create hj, List.forall_mem_append, List.forall_mem_singleton]
  refine ⟨fun d hd => ?_, ?_⟩
  · rw [Function.update_of_ne (nextId_ne hi hd seg.pair).symm]
    exact h d hd
  · have hid : (founded cfg seg (freshTrack (u.nextId seg.pair) seg)).id =
        u.nextId seg.pair := id_freshTrack _ _
    rw [hid, Function.update_self]
    exact hfound _ seg

/-- **The rule for replays.** What holds of a fresh instance and its one segment, and is
carried over each segment that joins, holds of every connection of a replay. -/
theorem forall_replay (hw : cfg.retention.window = none)
    {R : ConnTrack → List Segment → Prop}
    (hfound : ∀ id seg, R (founded cfg seg (freshTrack id seg)) [seg])
    (hjoin : ∀ c l seg, R c l → R (joined cfg seg c) (l ++ [seg])) (items : List Item) :
    ∀ c ∈ (replay cfg items).conns, R c ((Ledger.ledger cfg items).entries c.id) := by
  induction items using List.reverseRecOn with
  | nil => simp [replay, Tracker.new]
  | append_singleton p x ih =>
      have hl : (replay cfg p).life = (Ledger.ledger cfg p).tracker.life := by
        rw [life_replay hw, Ledger.tracker_ledger]
      have hi : Indexed (replay cfg p).life := by
        rw [life_replay hw]
        exact indexed_track cfg p
      rw [ledger_snoc, replay_snoc, conns_replayed]
      cases x with
      | tick at_ =>
          rw [appended_tick hw]
          exact ih
      | segment seg =>
          rw [entries_observe, ← target_congr hl fun _ _ => rfl, ← nextId_congr hl]
          generalize Ledger.entries (Ledger.ledger cfg p) = entries at ih
          generalize replay cfg p = u at ih hi
          cases hj : u.joins cfg seg with
          | some i =>
              obtain ⟨c, hc⟩ := joins_conns hj
              rw [target_of_joins hj hc]
              exact forall_appended_join hi hjoin ih hj hc
          | none =>
              have htgt : target cfg u seg = none := by simp [target, hj]
              rw [htgt]
              exact forall_appended_create hi hfound ih hj

end Replays

/-! ### Samples alone -/

/-- No timeline is collected. -/
structure Plain (cfg : EngineConfig) : Prop where
  state : cfg.collectStateTimeline = false
  seq : cfg.collectSeqTimeline = false
  inflight : cfg.collectInflightTimeline = false
  rtt : cfg.collectRttTimeline = false
  throughput : cfg.collectThroughputTimeline = false

/-- A connection, next to its segments: where samples are collected it keeps those of the
derivation by itself, and nothing else. -/
structure Measured (cfg : EngineConfig) (c : ConnTrack) (l : List Segment) : Prop where
  segments : c.segments = l.length
  collected : cfg.shouldCollect c.id = true →
    c.derived.metrics = (measure cfg c.origin l).1 ∧
      c.kept = { series := (measure cfg c.origin l).2 }
  other : cfg.shouldCollect c.id = false → c.kept = {}

section Measured

variable {cfg : EngineConfig} {c : ConnTrack} {l : List Segment} {plan : List Sample}

@[simp] lemma measure_snoc (origin : Endpoint) (l : List Segment) (seg : Segment) :
    measure cfg origin (l ++ [seg]) = measured cfg origin (measure cfg origin l) seg :=
  run_snoc _ _ l seg

lemma length_measure (origin : Endpoint) (l : List Segment) :
    (measure cfg origin l).2.length = l.length := by
  induction l using List.reverseRecOn with
  | nil => rfl
  | append_singleton l seg ih => simp [measured, ih]

lemma derivePlan_plain (h : Plain cfg) (id : ConnId) (d : Derivation) (seg : Segment)
    (dir : Direction) : derivePlan cfg id d seg dir =
      if cfg.shouldCollect id then
        ({ d with metrics := (d.metrics.observe seg dir cfg).1 },
          [.metric (d.metrics.observe seg dir cfg).2])
      else (d, []) := by
  obtain ⟨-, hseq, hin, hrtt, htp⟩ := h
  unfold derivePlan metricPlan seqPlan inflightPlan rttPlan throughputPlan
  cases hc : cfg.shouldCollect id <;> simp [hseq, hin, hrtt, htp]

lemma joinPlan_plain (h : Plain cfg) (c : ConnTrack) (seg : Segment) :
    joinPlan cfg c seg =
      derivePlan cfg c.id c.derived seg (c.directionOf seg.flow.source) := by
  simp [joinPlan, statePlan, h.state]

lemma foundPlan_plain (h : Plain cfg) (c : ConnTrack) (seg : Segment) :
    foundPlan cfg c seg =
      derivePlan cfg c.id c.derived seg (c.directionOf seg.flow.source) := by
  simp [foundPlan, statePlan, h.state]

/-- One more segment of a connection whose derivation is that of the segments before. -/
lemma measured_snoc (h : Plain cfg) {c' : ConnTrack} {seg : Segment}
    (hp : derivePlan cfg c.id c.derived seg (c.directionOf seg.flow.source) =
      (c'.derived, plan))
    (hid : c'.id = c.id) (horigin : c'.origin = c.origin)
    (hsegs : c'.segments = l.length + 1) (hkept : c'.kept = pushAll c.kept plan)
    (hc : cfg.shouldCollect c.id = true → c.derived.metrics = (measure cfg c.origin l).1 ∧
      c.kept = { series := (measure cfg c.origin l).2 })
    (ho : cfg.shouldCollect c.id = false → c.kept = {}) : Measured cfg c' (l ++ [seg]) := by
  rw [derivePlan_plain h] at hp
  refine ⟨by simpa using hsegs, fun hcol => ?_, fun hcol => ?_⟩
  · rw [hid] at hcol
    obtain ⟨hm, hk⟩ := hc hcol
    rw [if_pos hcol] at hp
    obtain ⟨hd, rfl⟩ := Prod.mk.inj hp
    rw [hkept, hk, ← hd, horigin, measure_snoc, measured, ← hm]
    exact ⟨rfl, rfl⟩
  · rw [hid] at hcol
    rw [if_neg (by simp [hcol])] at hp
    obtain ⟨-, rfl⟩ := Prod.mk.inj hp
    rw [hkept, ho hcol]
    rfl

lemma measured_founded (h : Plain cfg) (id : ConnId) (seg : Segment) :
    Measured cfg (founded cfg seg (freshTrack id seg)) [seg] := by
  have hd : (freshTrack id seg).derived = {} := by
    obtain ⟨_, _, _, _, _, _, hf⟩ := freshTrack_frame id seg
    rw [hf]
    rfl
  refine measured_snoc (l := []) (c := freshTrack id seg) h ?_ rfl rfl
    (Traffic.segments_freshTrack id seg) rfl (fun _ => ?_) fun _ => kept_freshTrack id seg
  · rw [← foundPlan_plain h]
    rfl
  · rw [hd, kept_freshTrack]
    exact ⟨rfl, rfl⟩

lemma measured_joined (h : Plain cfg) (hc : Measured cfg c l) (seg : Segment) :
    Measured cfg (joined cfg seg c) (l ++ [seg]) := by
  have hsegs : (joined cfg seg c).segments = l.length + 1 := by
    rw [← hc.segments]
    exact Traffic.segments_accounted c seg
  have hkept : (joined cfg seg c).kept = pushAll c.kept (joinPlan cfg c seg).2 := by
    rw [joined, append_kept, accounted_kept]
  refine measured_snoc (c := c) h ?_ (accounted_id c seg) (accounted_origin c seg) hsegs hkept
    hc.collected hc.other
  rw [← joinPlan_plain h]
  rfl

/-- What each connection of a replay keeps. -/
lemma measured_replay (h : Plain cfg) (hw : cfg.retention.window = none) (items : List Item) :
    ∀ c ∈ (replay cfg items).conns, Measured cfg c ((Ledger.ledger cfg items).entries c.id) :=
  forall_replay hw (fun id seg => measured_founded h id seg)
    (fun _ _ seg hc => measured_joined h hc seg) items

/-- All that a replay retains, where one connection is collected. -/
lemma retained_only (h : Plain cfg) (hw : cfg.retention.window = none) {items : List Item}
    (honly : ∀ id, cfg.shouldCollect id = decide (c.id = id)) (hc : c ∈ (replay cfg items).conns) :
    retained (replay cfg items).conns = c.segments := by
  classical
  have hm := measured_replay h hw items
  have hnodup : ((replay cfg items).conns.map ConnTrack.id).Nodup := by
    have hi : Indexed (replay cfg items).life := by
      rw [life_replay hw]
      exact indexed_track cfg items
    exact nodup_ids hi
  unfold retained
  rw [List.sum_map_eq_nsmul_single c]
  · have hcol := ((hm c hc).collected (by simp [honly])).2
    rw [List.count_eq_one_of_mem hnodup.of_map hc, hcol, one_smul, (hm c hc).segments]
    simp [Retained.count, length_measure]
  · intro d hne hd
    have hid : d.id ≠ c.id := fun heq => hne (List.inj_on_of_nodup_map hnodup hd hc heq)
    rw [(hm d hd).other (by simp [honly, Ne.symm hid])]
    rfl

end Measured

/-! ### The command -/

section Command

variable (lib : Etherparse) (path : String) (file : Except String (Except String Container))

/-- `run_metrics`, up to the serialization of its result. Both passes read the same file. -/
def runMetricsFile (conn throughputWindowMs reorderWindowMs maxSamples : ℕ) :
    Except (IngestError ⊕ MetricsFailure) ConnectionMetrics :=
  if throughputWindowMs = 0 then .error (.inr .zeroWindow)
  else if maxSamples = 0 then .error (.inr .zeroCeiling)
  else
    match parseFileVisitNamed lib path file with
    | (_, .error e) => .error (.inl e)
    | (r, .ok _) =>
      (runMetrics r.items conn throughputWindowMs reorderWindowMs maxSamples).mapError .inr

variable {lib path file} {parse : ReplayParse} {conn window reorder ceiling : ℕ}

lemma runMetricsFile_of_parse (h : parseFile lib path file = .ok parse) (hw : 0 < window)
    (hm : 0 < ceiling) : runMetricsFile lib path file conn window reorder ceiling =
      (runMetrics parse.items conn window reorder ceiling).mapError .inr := by
  unfold parseFile at h
  unfold runMetricsFile
  rw [if_neg hw.ne', if_neg hm.ne']
  generalize parseFileVisitNamed lib path file = v at h ⊢
  obtain ⟨r, e | ⟨link, skipped⟩⟩ := v
  · simp at h
  · obtain rfl := Except.ok.inj h
    rfl

/-- The first pass lists what `conns` lists. -/
lemma runMetrics_of_pos {items : List Item} (hw : 0 < window) (hm : 0 < ceiling) :
    runMetrics items conn window reorder ceiling =
      match (Tracker.track {} items).intoConnections[conn]? with
      | none => .error (.outOfRange conn (Tracker.track {} items).intoConnections.length)
      | some target =>
        let cfg := collecting (passConfig window reorder ceiling) (.only target.id)
        match (Tracker.track cfg items).intoMetrics cfg with
        | .error e => .error (.ceiling e)
        | .ok metrics =>
          match select metrics target.id with
          | none => .error .vanished
          | some selected => .ok selected := by
  have hbase : (Tracker.track (passConfig window reorder ceiling) items).intoConnections =
      (Tracker.track {} items).intoConnections :=
    intoConnections_congr
      (life_congr (passConfig window reorder ceiling) {} rfl rfl rfl rfl items)
  unfold runMetrics
  rw [if_neg hw.ne', if_neg hm.ne']
  dsimp only
  generalize (Tracker.track (passConfig window reorder ceiling) items).intoConnections = l
    at hbase ⊢
  subst hbase
  rfl

/-- The second pass, for a connection that the first has found. -/
lemma second_pass (window reorder ceiling : ℕ) {items : List Item} {c : Connection}
    (hc : c ∈ (Tracker.track {} items).intoConnections) :
    let base := passConfig window reorder ceiling
    let cfg := collecting base (.only c.id)
    let samples := (measure base c.origin ((Ledger.ledger {} items).entries c.id)).2
    samples.length = c.segments ∧
    (ceiling < c.segments → (Tracker.track cfg items).intoMetrics cfg =
      .error (.sampleCeiling (ceiling + 1) ceiling)) ∧
    (c.segments ≤ ceiling → ∃ ms, (Tracker.track cfg items).intoMetrics cfg = .ok ms ∧
      select ms c.id = some ⟨c, samples⟩) := by
  intro base cfg samples
  have hw : cfg.retention.window = none := rfl
  have hr : cfg.retention = .failFast ceiling := rfl
  have hplain : Plain cfg := ⟨rfl, rfl, rfl, rfl, rfl⟩
  have hlife : (replay cfg items).life = (Tracker.track {} items).life :=
    (life_replay hw items).trans (life_congr cfg {} hw rfl rfl rfl items)
  rw [← intoConnections_congr hlife] at hc
  obtain ⟨d, hd, rfl⟩ := mem_intoConnections hc
  have hretained := retained_only hplain hw (fun id => rfl) hd
  have hent : (Ledger.ledger cfg items).entries = (Ledger.ledger {} items).entries :=
    @entries_congr cfg {} hw rfl rfl rfl items
  have hm := measured_replay hplain hw items d hd
  rw [hent] at hm
  have hsamples : d.kept.series = samples := by
    rw [(hm.collected (by rw [shouldCollect_only]; exact decide_eq_true rfl)).2]
    rfl
  have hsegs : retained (replay cfg items).conns = d.view.segments := hretained
  refine ⟨(length_measure _ _).trans hm.segments.symm, fun hlt => ?_, fun hle => ?_⟩
  · cases stands_track cfg hr items with
    | whole _ _ hn => exact absurd (hsegs ▸ hn) (not_le.mpr hlt)
    | spilled ho hcount _ => exact (error_of_spilled hr ho hcount).1
  · cases stands_track cfg hr items with
    | spilled _ _ hn => exact absurd (hsegs ▸ hn) (not_lt.mpr hle)
    | whole ho hconns _ =>
        obtain ⟨ms, hms⟩ := @ok_of_not_overflowed cfg _ ho
        have hsel := select_of_mem (indexed_track cfg items) (metrics_of_ok hms).2 (hconns ▸ hd)
        exact ⟨ms, hms, hsamples ▸ hsel⟩

/-- **What `metrics` prints.** On a file that parses, the index is that of the list that
`conns` prints; the command fails only past its end, or if the connection has more segments
than the ceiling allows, whatever else the capture holds. What it prints otherwise is the
connection as listed and one sample for each of its segments: the derivation folded over
these alone. -/
theorem metrics_prints (h : parseFile lib path file = .ok parse) (conn : ℕ) {window : ℕ}
    (reorder : ℕ) {ceiling : ℕ} (hw : 0 < window) (hm : 0 < ceiling) :
    ∃ conns, listConns lib path file = .ok (conns, parse.skipped) ∧
      let result := runMetricsFile lib path file conn window reorder ceiling
      (conns.length ≤ conn → result = .error (.inr (.outOfRange conn conns.length))) ∧
      ∀ c, conns[conn]? = some c →
        let own := (Ledger.ledger {} parse.items).entries c.id
        let samples := (measure (passConfig window reorder ceiling) c.origin own).2
        samples.length = c.segments ∧
        (ceiling < c.segments →
          result = .error (.inr (.ceiling (.sampleCeiling (ceiling + 1) ceiling)))) ∧
        (c.segments ≤ ceiling → result = .ok ⟨c, samples⟩) := by
  refine ⟨_, listConns_of_parse h, ?_⟩
  dsimp only
  rw [runMetricsFile_of_parse h hw hm, runMetrics_of_pos hw hm]
  refine ⟨fun hout => ?_, fun c hc => ?_⟩
  · rw [List.getElem?_eq_none hout]
    rfl
  · obtain ⟨hlen, hover, hfits⟩ := second_pass window reorder ceiling
      (List.mem_of_getElem? hc)
    rw [hc]
    refine ⟨hlen, fun hlt => ?_, fun hle => ?_⟩
    · simp only [hover hlt]
      rfl
    · obtain ⟨ms, hms, hsel⟩ := hfits hle
      simp only [hms, hsel]
      rfl

/-- Of the two packets' one connection, with a ceiling of ten. -/
theorem metrics_prints_twoPackets :
    ∃ c samples, samples.length = c.segments ∧
      runMetricsFile headerSlicer "a.pcapng" twoPacketFile 0 100 3 10 = .ok ⟨c, samples⟩ := by
  obtain ⟨parse, hparse, -⟩ := parse_twoPacketFile
  obtain ⟨conns, hconns, -, hmetrics⟩ :=
    metrics_prints hparse 0 3 (show 0 < 100 by decide) (show 0 < 10 by decide)
  have hok : (listConns headerSlicer "a.pcapng" twoPacketFile).toOption.any fun p =>
      p.1[0]?.any fun c => decide (c.segments ≤ 10) := by decide +kernel
  rw [hconns] at hok
  obtain ⟨c, hc, hle⟩ := (Option.any_eq_true _ _).mp (show conns[0]?.any _ = true from hok)
  obtain ⟨hlen, -, hprints⟩ := hmetrics c hc
  exact ⟨c, _, hlen, hprints (of_decide_eq_true hle)⟩

end Command

end TcpVisr
