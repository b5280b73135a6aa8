import TcpVisr.Ceiling

/-!
Collecting a series changes no lifecycle and no other series.

Which instances a fail-fast run tracks is decided by the items, `dead_after` and
`reset_threshold`. What it collects of one instance is decided by what is collected of that
instance, so the series of one connection can be taken from a run that collects no other; the
`metrics` command resolves its connection in one run and reads its series from another.
-/

namespace TcpVisr.Collection

open Lib.Runs Recording Slots Plan Passes Lifecycle Index Steps Appending Forgetting Ceiling

/-- The configuration with other instances collected. -/
def collecting (cfg : EngineConfig) (sc : SeriesCollection) : EngineConfig :=
  { cfg with seriesCollection := sc }

/-- The entry of the connection with `id`. -/
def select (ms : List ConnectionMetrics) (id : ConnId) : Option ConnectionMetrics :=
  ms.find? fun m => m.conn.id = id

/-- Whether a sample goes to the `series` of metric samples. -/
def isMetric : Sample → Bool
  | .metric _ => true
  | _ => false

lemma window_collecting {cfg : EngineConfig} (hw : cfg.retention.window = none)
    (sc : SeriesCollection) : (collecting cfg sc).retention.window = none := hw

variable {cfg : EngineConfig} {t u v : Tracker} {c d : ConnTrack} {seg : Segment} {id : ConnId}

/-! ### What is not collected -/

lemma series_pushAll {xs : List Sample} (hx : ∀ x ∈ xs, isMetric x = false) (k : Retained) :
    (pushAll k xs).series = k.series := by
  induction xs generalizing k with
  | nil => rfl
  | cons x xs ih =>
      have hpush : (k.push x).series = k.series := by
        have := hx x (by simp)
        cases x with
        | metric x => simp [isMetric] at this
        | _ => rfl
      rw [pushAll_cons, ih fun y hy => hx y (by simp [hy]), hpush]

/-- Only `record_sample` asks for metric samples. -/
lemma isMetric_derivePlan (hc : cfg.shouldCollect id = false) (v : Derivation) (seg : Segment)
    (dir : Direction) : ∀ x ∈ (derivePlan cfg id v seg dir).2, isMetric x = false := by
  unfold derivePlan
  split
  · intro x hx
    simp only [metricPlan, hc, Bool.false_eq_true, if_false, List.nil_append,
      List.mem_append] at hx
    rcases hx with ((hx | hx) | hx) | hx
    · unfold seqPlan at hx
      split at hx
      · obtain ⟨_, -, rfl⟩ := List.mem_map.mp hx
        rfl
      · simp at hx
    · unfold inflightPlan at hx
      split at hx
      · obtain ⟨_, -, hx⟩ := List.mem_filterMap.mp hx
        obtain ⟨_, -, rfl⟩ := Option.map_eq_some_iff.mp hx
        rfl
      · simp at hx
    · unfold rttPlan at hx
      split at hx
      · split at hx
        · simp at hx
        · rw [List.mem_singleton.mp hx]; rfl
      · simp at hx
    · unfold throughputPlan at hx
      split at hx
      · obtain ⟨_, -, hx⟩ := List.mem_filterMap.mp hx
        obtain ⟨_, -, rfl⟩ := Option.map_eq_some_iff.mp hx
        rfl
      · simp at hx
  · simp

lemma isMetric_statePlan (c : ConnTrack) (t : Nanos) :
    ∀ x ∈ statePlan cfg c t, isMetric x = false := by
  unfold statePlan
  split
  · simp [isMetric]
  · simp

lemma series_joined (hc : cfg.shouldCollect c.id = false) (seg : Segment) :
    (joined cfg seg c).kept.series = c.kept.series := by
  have hx : ∀ x ∈ (joinPlan cfg c seg).2, isMetric x = false := by
    intro x hx
    rcases List.mem_append.mp hx with hx | hx
    · exact isMetric_statePlan _ _ x hx
    · exact isMetric_derivePlan hc _ _ _ x hx
  rw [joined, append_kept, series_pushAll hx, accounted_kept]

lemma series_founded (hc : cfg.shouldCollect c.id = false) (seg : Segment) :
    (founded cfg seg c).kept.series = c.kept.series := by
  have hx : ∀ x ∈ (foundPlan cfg c seg).2, isMetric x = false := by
    intro x hx
    rcases List.mem_append.mp hx with hx | hx
    · exact isMetric_derivePlan hc _ _ _ x hx
    · exact isMetric_statePlan _ _ x hx
  rw [founded, append_kept, series_pushAll hx]

/-! ### What is collected -/

/-- The plan of a segment depends on what is collected of its own connection only. -/
lemma derivePlan_collecting {a b : SeriesCollection}
    (h : (collecting cfg a).shouldCollect id = (collecting cfg b).shouldCollect id)
    (v : Derivation) (seg : Segment) (dir : Direction) :
    derivePlan (collecting cfg a) id v seg dir = derivePlan (collecting cfg b) id v seg dir := by
  unfold derivePlan metricPlan
  rw [h]
  rfl

lemma joined_collecting {a b : SeriesCollection}
    (h : (collecting cfg a).shouldCollect c.id = (collecting cfg b).shouldCollect c.id)
    (seg : Segment) : joined (collecting cfg a) seg c = joined (collecting cfg b) seg c := by
  unfold joined joinPlan
  rw [derivePlan_collecting h]
  rfl

lemma founded_collecting {a b : SeriesCollection}
    (h : (collecting cfg a).shouldCollect c.id = (collecting cfg b).shouldCollect c.id)
    (seg : Segment) : founded (collecting cfg a) seg c = founded (collecting cfg b) seg c := by
  unfold founded foundPlan
  rw [derivePlan_collecting h]
  rfl

/-! ### Collecting one connection, and collecting all -/

/-- How a connection of a run that collects `id` only stands to that of a run that collects
all. -/
structure Agrees (id : ConnId) (c d : ConnTrack) : Prop where
  core : core c = core d
  target : c.id = id → c = d
  other : c.id ≠ id → c.kept.series = []

lemma shouldCollect_only (id : ConnId) (cfg : EngineConfig) (id' : ConnId) :
    (collecting cfg (.only id)).shouldCollect id' = decide (id = id') := rfl

lemma agrees_joined (h : Agrees id c d) (seg : Segment) :
    Agrees id (joined (collecting cfg (.only id)) seg c) (joined (collecting cfg .all) seg d) := by
  have hid : (joined (collecting cfg (.only id)) seg c).id = c.id := accounted_id c seg
  refine ⟨?_, fun heq => ?_, fun hne => ?_⟩
  · rw [core_joined, core_joined, h.core]
  · rw [hid] at heq
    obtain rfl := h.target heq
    exact joined_collecting (by simp [shouldCollect_only, heq]; rfl) seg
  · rw [hid] at hne
    rw [series_joined (by simp [shouldCollect_only, Ne.symm hne]), h.other hne]

lemma agrees_founded (id id' : ConnId) (seg : Segment) :
    Agrees id (founded (collecting cfg (.only id)) seg (freshTrack id' seg))
      (founded (collecting cfg .all) seg (freshTrack id' seg)) := by
  have hid : (founded (collecting cfg (.only id)) seg (freshTrack id' seg)).id = id' :=
    id_freshTrack id' seg
  refine ⟨rfl, fun heq => ?_, fun hne => ?_⟩
  · rw [hid] at heq
    exact founded_collecting (by rw [id_freshTrack]; simp [shouldCollect_only, heq]; rfl) seg
  · rw [hid] at hne
    rw [series_founded (by rw [id_freshTrack]; simp [shouldCollect_only, Ne.symm hne]),
      kept_freshTrack]

lemma forall₂_modify {α β : Type} {R : α → β → Prop} {l : List α} {l' : List β}
    (h : List.Forall₂ R l l') {f : α → α} {g : β → β} (hfg : ∀ a b, R a b → R (f a) (g b))
    (i : ℕ) : List.Forall₂ R (l.modify i f) (l'.modify i g) := by
  induction h generalizing i with
  | nil => simp
  | cons hab htl ih =>
      cases i with
      | zero => simpa using ⟨hfg _ _ hab, htl⟩
      | succ i => simpa using ⟨hab, ih i⟩

lemma agrees_appended (hw : cfg.retention.window = none) (hl : u.life = v.life)
    (h : List.Forall₂ (Agrees id) u.conns v.conns) (x : Item) :
    List.Forall₂ (Agrees id) (appended (collecting cfg (.only id)) u x)
      (appended (collecting cfg .all) v x) := by
  cases x with
  | segment seg =>
      have hjoins : u.joins (collecting cfg (.only id)) seg =
          v.joins (collecting cfg .all) seg := by
        rw [← joins_life, hl, joins_life]
        rfl
      have hnext : u.nextId seg.pair = v.nextId seg.pair := by
        unfold Tracker.nextId
        rw [← life_nextInstance, hl, life_nextInstance]
      cases hj : v.joins (collecting cfg .all) seg with
      | some i =>
          rw [appended_join (hjoins.trans hj), appended_join hj]
          exact forall₂_modify h (fun _ _ hab => agrees_joined hab seg) i
      | none =>
          rw [appended_create (hjoins.trans hj), appended_create hj, hnext]
          exact List.rel_append h (.cons (agrees_founded id _ seg) .nil)
  | tick at_ =>
      rw [appended_tick (window_collecting hw _), appended_tick (window_collecting hw _)]
      exact h

/-- The lifecycle does not see what is collected. -/
lemma life_collecting (hw : cfg.retention.window = none) (sc : SeriesCollection)
    (items : List Item) :
    (Tracker.track (collecting cfg sc) items).life = (Tracker.track cfg items).life :=
  life_congr (collecting cfg sc) cfg hw hw rfl rfl items

/-- **Collecting one** gives what collecting all gives of it, and nothing of the others. -/
theorem agrees_replay (hw : cfg.retention.window = none) (id : ConnId) (items : List Item) :
    List.Forall₂ (Agrees id) (replay (collecting cfg (.only id)) items).conns
      (replay (collecting cfg .all) items).conns := by
  induction items using List.reverseRecOn with
  | nil => exact .nil
  | append_singleton p x ih =>
      have hl : (replay (collecting cfg (.only id)) p).life =
          (replay (collecting cfg .all) p).life := by
        rw [life_replay (window_collecting hw _), life_replay (window_collecting hw _),
          life_collecting hw, life_collecting hw]
      rw [replay_snoc, replay_snoc]
      exact agrees_appended hw hl ih x

/-! ### Reading one connection out of a run -/

lemma metrics_of_ok {ms : List ConnectionMetrics} (h : t.intoMetrics cfg = .ok ms) :
    t.overflowed = false ∧ ms.Perm (t.conns.map fun c => ⟨c.view, c.kept.series⟩) := by
  unfold Tracker.intoMetrics at h
  split at h
  · simp at h
  · next ho =>
      rw [← Except.ok.inj h]
      exact ⟨by simpa using ho, List.perm_insertionSort _ _⟩

lemma ok_of_not_overflowed (h : t.overflowed = false) : ∃ ms, t.intoMetrics cfg = .ok ms :=
  ⟨_, if_neg (by simp [h])⟩

/-- An identity finds its own connection. -/
lemma select_of_mem (hi : Indexed t.life) {ms : List ConnectionMetrics}
    (hp : ms.Perm (t.conns.map fun c => ⟨c.view, c.kept.series⟩)) (hc : c ∈ t.conns) :
    select ms c.id = some ⟨c.view, c.kept.series⟩ := by
  have hmem : (⟨c.view, c.kept.series⟩ : ConnectionMetrics) ∈ ms :=
    hp.mem_iff.mpr (List.mem_map_of_mem hc)
  cases hf : select ms c.id with
  | none =>
      have := List.find?_eq_none.mp hf _ hmem
      simp [ConnTrack.view] at this
  | some m =>
      have hid : m.conn.id = c.id := by simpa using List.find?_some hf
      obtain ⟨d, hd, rfl⟩ := List.mem_map.mp (hp.mem_iff.mp (List.mem_of_find?_eq_some hf))
      rw [eq_of_id hi hd hc hid]

lemma mem_intoConnections {v : Connection} (h : v ∈ t.intoConnections) :
    ∃ c ∈ t.conns, c.view = v := by
  rw [Tracker.intoConnections, List.mem_insertionSort] at h
  exact List.mem_map.mp h

/-- What a run that collects one connection shows, next to a run that collects all. -/
lemma only_next_to_all {m : ℕ} (hr : cfg.retention = .failFast m) {items : List Item}
    {ms ms' : List ConnectionMetrics}
    (h : (Tracker.track (collecting cfg (.only id)) items).intoMetrics
      (collecting cfg (.only id)) = .ok ms)
    (h' : (Tracker.track (collecting cfg .all) items).intoMetrics (collecting cfg .all) = .ok ms')
    (hid : ∃ c ∈ (Tracker.track (collecting cfg (.only id)) items).conns, c.id = id) :
    (∃ x, select ms id = some x ∧ select ms' id = some x) ∧
      ∀ x ∈ ms, x.conn.id ≠ id → x.series = [] := by
  have hw : cfg.retention.window = none := by rw [hr]; rfl
  obtain ⟨ho, hp⟩ := metrics_of_ok h
  obtain ⟨ho', hp'⟩ := metrics_of_ok h'
  have hall := agrees_replay hw id items
  rw [← conns_of_whole (collecting cfg (.only id)) hr ho,
    ← conns_of_whole (collecting cfg .all) hr ho'] at hall
  constructor
  · obtain ⟨c, hc, rfl⟩ := hid
    obtain ⟨d, hd, hagree⟩ := forall₂_mem_right (List.Forall₂.flip hall) hc
    obtain rfl : c = d := Agrees.target hagree rfl
    exact ⟨_, select_of_mem (indexed_track _ _) hp hc, select_of_mem (indexed_track _ _) hp' hd⟩
  · intro x hx hne
    obtain ⟨c, hc, rfl⟩ := List.mem_map.mp (hp.mem_iff.mp hx)
    obtain ⟨d, -, hagree⟩ := forall₂_mem_right (List.Forall₂.flip hall) hc
    exact Agrees.other hagree hne

/-- **Collection does not leak.** The connections of a fail-fast run are the same whatever is
collected, whatever the windows and the ceiling; and collecting one connection alone gives
the series that collecting all gives of it, and no other. -/
theorem collection_never_leaks {m : ℕ} (hr : cfg.retention = .failFast m) (items : List Item) :
    (∀ cfg' : EngineConfig, ∀ m', cfg'.retention = .failFast m' →
        cfg'.deadAfter = cfg.deadAfter → cfg'.resetThreshold = cfg.resetThreshold →
      (Tracker.track cfg' items).intoConnections = (Tracker.track cfg items).intoConnections) ∧
    ∀ id ∈ (Tracker.track cfg items).intoConnections.map Connection.id, ∀ ms ms',
      (Tracker.track (collecting cfg (.only id)) items).intoMetrics
        (collecting cfg (.only id)) = .ok ms →
      (Tracker.track (collecting cfg .all) items).intoMetrics (collecting cfg .all) = .ok ms' →
        (∃ x, select ms id = some x ∧ select ms' id = some x) ∧
          ∀ x ∈ ms, x.conn.id ≠ id → x.series = [] := by
  have hw : cfg.retention.window = none := by rw [hr]; rfl
  refine ⟨fun cfg' m' hr' hd hs => ?_, fun id hid ms ms' h h' => ?_⟩
  · exact intoConnections_congr (life_congr cfg' cfg (by rw [hr']; rfl) hw hd hs items)
  · rw [← intoConnections_congr (life_collecting hw (.only id) items)] at hid
    obtain ⟨v, hv, rfl⟩ := List.mem_map.mp hid
    obtain ⟨c, hc, rfl⟩ := mem_intoConnections hv
    exact only_next_to_all hr h h' ⟨c, hc, rfl⟩

/-- Two handshakes at once. -/
def twoFlows : List Item :=
  [.segment (.between 1 2 0 TcpFlags.SYN 100),
    .segment (.between 3 4 5 TcpFlags.SYN 700),
    .segment (.between 2 1 10 (TcpFlags.SYN ||| TcpFlags.ACK) 500 0 101)]

/-- The first of them. -/
def firstFlow : ConnId := ⟨.new ⟨.v4 1, 80⟩ ⟨.v4 2, 80⟩, 0⟩

theorem collection_never_leaks_twoFlows :
    (Tracker.track fullConfig twoFlows).intoConnections =
        (Tracker.track ({} : EngineConfig) twoFlows).intoConnections ∧
      ∃ ms ms', (Tracker.track (collecting {} (.only firstFlow)) twoFlows).intoMetrics
          (collecting {} (.only firstFlow)) = .ok ms ∧
        (Tracker.track (collecting {} .all) twoFlows).intoMetrics (collecting {} .all) = .ok ms' ∧
        (∃ x, select ms firstFlow = some x ∧ select ms' firstFlow = some x) ∧
          ∀ x ∈ ms, x.conn.id ≠ firstFlow → x.series = [] := by
  have h := collection_never_leaks
    (show ({} : EngineConfig).retention = .failFast 10000000 from rfl) twoFlows
  have hid : firstFlow ∈
      (Tracker.track ({} : EngineConfig) twoFlows).intoConnections.map Connection.id := by
    decide +kernel
  obtain ⟨ms, hms⟩ := ok_of_not_overflowed (show (Tracker.track (collecting {} (.only firstFlow))
    twoFlows).overflowed = false by decide +kernel)
  obtain ⟨ms', hms'⟩ := ok_of_not_overflowed (show (Tracker.track (collecting {} .all)
    twoFlows).overflowed = false by decide +kernel)
  exact ⟨h.1 fullConfig 10000000 rfl rfl rfl, ms, ms', hms, hms', h.2 _ hid ms ms' hms hms'⟩

/-! ### The `metrics` command -/

/-- The failures of `run_metrics`, once its file is read. -/
inductive MetricsFailure
  | zeroWindow
  | zeroCeiling
  | outOfRange (conn count : ℕ)
  | ceiling (e : MetricError)
  | vanished
  deriving DecidableEq

/-- `Nanos(ms.saturating_mul(1_000_000))`. -/
def nanosOfMs (ms : ℕ) : Nanos := Nanos.sat (ms * 1000000)

/-- The configuration of the first pass: lifecycle only. -/
def passConfig (throughputWindowMs reorderWindowMs maxSamples : ℕ) : EngineConfig where
  throughputWindow := nanosOfMs throughputWindowMs
  reorderWindow := nanosOfMs reorderWindowMs
  retention := .failFast maxSamples

/-- `run_metrics` on the items of its file, up to the serialization of its result. -/
def runMetrics (items : List Item) (conn throughputWindowMs reorderWindowMs maxSamples : ℕ) :
    Except MetricsFailure ConnectionMetrics :=
  if throughputWindowMs = 0 then .error .zeroWindow
  else if maxSamples = 0 then .error .zeroCeiling
  else
    let base := passConfig throughputWindowMs reorderWindowMs maxSamples
    let conns := (Tracker.track base items).intoConnections
    match conns[conn]? with
    | none => .error (.outOfRange conn conns.length)
    | some target =>
      let cfg := collecting base (.only target.id)
      match (Tracker.track cfg items).intoMetrics cfg with
      | .error e => .error (.ceiling e)
      | .ok metrics =>
        match select metrics target.id with
        | none => .error .vanished
        | some selected => .ok selected

/-- **The two passes agree.** The connection resolved by the first pass does not vanish in the
second, and what is returned is the entry a run that collects all would show at that index. -/
theorem runMetrics_resolves (items : List Item)
    (conn throughputWindowMs reorderWindowMs maxSamples : ℕ) :
    let base := passConfig throughputWindowMs reorderWindowMs maxSamples
    let result := runMetrics items conn throughputWindowMs reorderWindowMs maxSamples
    result ≠ .error .vanished ∧ ∀ x, result = .ok x →
      (Tracker.track base items).intoConnections[conn]? = some x.conn ∧
        ∀ ms', (Tracker.track (collecting base .all) items).intoMetrics
          (collecting base .all) = .ok ms' → select ms' x.conn.id = some x := by
  intro base result
  have hw : base.retention.window = none := rfl
  have key : ∀ target, (Tracker.track base items).intoConnections[conn]? = some target →
      ∀ ms, (Tracker.track (collecting base (.only target.id)) items).intoMetrics
        (collecting base (.only target.id)) = .ok ms →
      ∃ x, select ms target.id = some x ∧ x.conn = target ∧
        ∃ c ∈ (Tracker.track (collecting base (.only target.id)) items).conns,
          c.id = target.id := by
    intro target htarget ms hms
    have hmem := List.mem_of_getElem? htarget
    rw [← intoConnections_congr (life_collecting hw (.only target.id) items)] at hmem
    obtain ⟨c, hc, hview⟩ := mem_intoConnections hmem
    have hid : c.id = target.id := by rw [← hview]; rfl
    have hsel := select_of_mem (indexed_track _ _) (metrics_of_ok hms).2 hc
    exact ⟨_, hid ▸ hsel, hview, c, hc, hid⟩
  have hdef : result = runMetrics items conn throughputWindowMs reorderWindowMs maxSamples := rfl
  unfold runMetrics at hdef
  split at hdef
  · simp [hdef]
  · split at hdef
    · simp [hdef]
    · dsimp only at hdef
      split at hdef
      · simp [hdef]
      · next target htarget =>
          split at hdef
          · simp [hdef]
          · next ms hms =>
              obtain ⟨x, hx, hconn, hid⟩ := key target htarget ms hms
              rw [hx] at hdef
              refine ⟨by simp [hdef], fun y hy => ?_⟩
              obtain rfl : x = y := by simpa [hdef] using hy
              refine ⟨by rw [hconn]; exact htarget, fun ms' hms' => ?_⟩
              obtain ⟨⟨z, hz, hz'⟩, -⟩ := only_next_to_all (m := maxSamples) rfl hms hms' hid
              rw [hconn, hz', ← hz, hx]

end TcpVisr.Collection
