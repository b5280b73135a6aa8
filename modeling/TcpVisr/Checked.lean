import TcpVisr.Ceiling

/-!
The tracker with its sample counter checked.

The source subtracts from the counter with saturation, which would hide a counter that has
lost track. Here are the same functions with every subtraction checked: they fail where the
source would saturate. They never do, so the counter is exact at every single step inside an
`observe`, not only between two items.
-/

namespace TcpVisr.Checked

open Lib.Runs Recording Slots Plan Passes Lifecycle Index Steps Ceiling

/-- `a.checked_sub(b)`, for `a.saturating_sub(b)`. -/
def checkedSub (a b : ℕ) : Option ℕ := if b ≤ a then some (a - b) else none

def evictFront {α : Type} (t : α → Nanos) (horizon keepMin : ℕ) :
    List α → ℕ → Option (List α × ℕ)
  | [], count => some ([], count)
  | x :: xs, count =>
    if keepMin < xs.length + 1 ∧ (t x).ns < horizon then
      (checkedSub count 1).bind (evictFront t horizon keepMin xs)
    else some (x :: xs, count)

/-- The eviction pass over one connection's series. -/
def evictKept (horizon : ℕ) (k : Retained) (n : ℕ) : Option (Retained × ℕ) := do
  let (states, n) ← evictFront StateSample.t horizon 1 k.states n
  let (series, n) ← evictFront MetricSample.t horizon 0 k.series n
  let (seq, n) ← evictFront SeqSample.t horizon 0 k.seq n
  let (inflight, n) ← evictFront InFlightSample.t horizon 0 k.inflight n
  let (rtt, n) ← evictFront RttSample.t horizon 0 k.rtt n
  let (throughput, n) ← evictFront ThroughputSample.t horizon 0 k.throughput n
  return ({ states, series, seq, inflight, rtt, throughput }, n)

section Recording

variable (cfg : EngineConfig)

def evictOldestGlobal (s : Slot) : Option Slot := do
  let (kept, popped) := s.track.kept.popLongestFront
  let n ← if popped then checkedSub s.collectedSamples 1 else some s.collectedSamples
  return { s with track := { s.track with kept }, collectedSamples := n }

def admitSample (s : Slot) : Option (Slot × Bool) :=
  if cfg.retention.maxSamples ≤ s.collectedSamples then
    if cfg.retention.window.isSome then do
      let s ← evictOldestGlobal s
      return ({ s with collectedSamples := s.collectedSamples + 1 }, true)
    else some ({ s with overflowed := true }, false)
  else some ({ s with collectedSamples := s.collectedSamples + 1 }, true)

def store (s : Slot) (x : Sample) : Option Slot := do
  let (s, ok) ← admitSample cfg s
  return if ok then { s with track := { s.track with kept := s.track.kept.push x } } else s

def recordSample (s : Slot) (x : MetricSample) : Option Slot :=
  if !cfg.shouldCollect s.track.id then some s else store cfg s (.metric x)

def record (s : Slot) (x : Sample) : Option Slot := if s.overflowed then some s else store cfg s x

def collectSeqPoints (s : Slot) (seg : Segment) (dir : Direction) (sample : MetricSample) :
    Option Slot :=
  if s.overflowed || !cfg.collectSeqTimeline then some s
  else
    let (derived, points) := s.track.derived.pushSeqPoints seg dir sample
    points.foldlM (fun s p => record cfg s (.seq p)) { s with track := { s.track with derived } }

def collectInflightAt (s : Slot) (t : Nanos) : Option Slot :=
  if s.overflowed || !cfg.collectInflightTimeline then some s
  else Direction.both.foldlM
    (fun s d => match s.track.derived.metrics.inFlight d with
      | some bytes => record cfg s (.inflight ⟨t, d.sample, bytes⟩)
      | none => some s) s

def collectRttPoints (s : Slot) (sample : MetricSample) : Option Slot :=
  if s.overflowed || !cfg.collectRttTimeline then some s
  else match sample.rtt with
    | none => some s
    | some rtt =>
      let m := sample.dir.opposite
      let srtt := Slot.srttAfter (s.track.derived.srtt.get m.index) rtt
      let derived :=
        { s.track.derived with srtt := s.track.derived.srtt.set m.index (some srtt) }
      record cfg { s with track := { s.track with derived } } (.rtt ⟨sample.t, m, rtt, srtt⟩)

def collectThroughputAt (s : Slot) (t : Nanos) : Option Slot :=
  if s.overflowed || !cfg.collectThroughputTimeline then some s
  else Direction.both.foldlM
    (fun s d => match s.track.derived.metrics.throughputAt d t cfg with
      | some (throughput, goodput) =>
        record cfg s (.throughput ⟨t, d.sample, throughput, goodput⟩)
      | none => some s) s

def derive (s : Slot) (seg : Segment) (dir : Direction) : Option Slot :=
  if s.wantsDerivation cfg then
    let wantMetric := cfg.shouldCollect s.track.id
    let (m, sample) := s.track.derived.metrics.observe seg dir cfg
    let s := { s with track := { s.track with derived := { s.track.derived with metrics := m } } }
    (if wantMetric then recordSample cfg s sample else some s).bind fun s => do
      let s ← collectSeqPoints cfg s seg dir sample
      let s ← collectInflightAt cfg s seg.ts
      let s ← collectRttPoints cfg s sample
      collectThroughputAt cfg s seg.ts
  else some s

def noteState (s : Slot) (t : Nanos) : Option Slot :=
  if cfg.collectStateTimeline then record cfg s (.state (s.track.snapshot t)) else some s

def join (s : Slot) (seg : Segment) : Option Slot := do
  let dir := s.track.directionOf seg.flow.source
  let s := { s with track := (s.track.account seg dir).applyState seg dir }
  let s ← noteState cfg s seg.ts
  derive cfg s seg dir

def found (s : Slot) (seg : Segment) : Option Slot := do
  let dir := s.track.directionOf seg.flow.source
  let s ← derive cfg s seg dir
  noteState cfg s seg.ts

def decay (t : Nanos) (s : Slot) : Option Slot :=
  if cfg.deadAfter.ns < t.ns - s.track.lastAt.ns then some s
  else do
    let s ← collectThroughputAt cfg s t
    collectInflightAt cfg s t

end Recording

def evict (horizon : ℕ) (s : Slot) : Option Slot := do
  let (kept, n) ← evictKept horizon s.track.kept s.collectedSamples
  return { s with track := { s.track with kept }, collectedSamples := n }

def eachSlot (f : Slot → Option Slot) :
    List ConnTrack → ℕ → Bool → Option (List ConnTrack × ℕ × Bool)
  | [], n, o => some ([], n, o)
  | c :: cs, n, o => do
    let s ← f ⟨c, n, o⟩
    let (cs', n', o') ← eachSlot f cs s.collectedSamples s.overflowed
    return (s.track :: cs', n', o')

def forEach (t : Tracker) (f : Slot → Option Slot) : Option Tracker := do
  let (conns, n, o) ← eachSlot f t.conns t.collectedSamples t.overflowed
  return { t with conns, collectedSamples := n, overflowed := o }

section Observing

variable (cfg : EngineConfig)

def evictSamples (t : Tracker) : Option Tracker :=
  match cfg.retention.window with
  | none => some t
  | some window => forEach t (evict (t.horizon window))

def createInstance (t : Tracker) (seg : Segment) : Option Tracker := do
  let pair := seg.pair
  let id := t.nextId pair
  let s ← found cfg (t.slot (freshTrack id seg)) seg
  return { t with
    conns := t.conns ++ [s.track]
    live := Function.update t.live pair (some t.conns.length)
    nextInstance := Function.update t.nextInstance pair (some (id.inst + 1))
    collectedSamples := s.collectedSamples
    overflowed := s.overflowed }

def joinInstance (t : Tracker) (idx : ℕ) (seg : Segment) : Option Tracker :=
  match t.conns[idx]? with
  | none => some t
  | some track => do
    let s ← join cfg (t.slot track) seg
    return { t with
      conns := t.conns.set idx s.track
      collectedSamples := s.collectedSamples
      overflowed := s.overflowed }

def observeSegment (t : Tracker) (seg : Segment) : Option Tracker :=
  match t.joins cfg seg with
  | some idx => joinInstance cfg t idx seg
  | none => createInstance cfg t seg

def emitDecaySamples (t : Tracker) : Option Tracker :=
  if t.overflowed then some t else forEach t (decay cfg t.now)

def observeTick (t : Tracker) (at_ : Nanos) : Option Tracker :=
  if cfg.retention.window.isNone then some t
  else do
    let t := { t with now := max t.now at_ }
    let t ← emitDecaySamples cfg t
    let t ← evictSamples cfg t
    -- the bulk removal recounts, it does not subtract
    return t.evictDeadConnections cfg

def observe (t : Tracker) : Item → Option Tracker
  | .segment seg => do
    let t := { t with now := max t.now seg.ts }
    let t ← observeSegment cfg t seg
    evictSamples cfg t
  | .tick at_ => observeTick cfg t at_

/-- The tracker after `items`, unless a subtraction fails. -/
def track (items : List Item) : Option Tracker := items.foldlM (observe cfg) Tracker.new

end Observing

/-! ### Nothing saturates -/

section Exact

variable {cfg : EngineConfig} {s s' : Slot} {t : Tracker} {seg : Segment}

lemma checkedSub_of_le {a b : ℕ} (h : b ≤ a) : checkedSub a b = some (a - b) := if_pos h

/-- The count covers what this connection retains. -/
def Covered (s : Slot) : Prop := s.track.kept.count ≤ s.collectedSamples

/-- Recording moves the count with what is retained, so it stays covered. -/
lemma Covered.recorded {P : Sample → Prop} (h : Covered s) (hr : Recorded cfg P s s') :
    Covered s' := by
  have hb := hr.balance h
  unfold Covered at h ⊢
  omega

lemma Covered.rederive (h : Covered s) (d : Derivation) :
    Covered { s with track := { s.track with derived := d } } := h

lemma evictFront_some {α : Type} (t : α → Nanos) (horizon keepMin : ℕ) (l : List α) {n : ℕ}
    (h : l.length ≤ n) :
    evictFront t horizon keepMin l n = some (TcpVisr.evictFront t horizon keepMin l n) := by
  induction l generalizing n with
  | nil => rfl
  | cons x xs ih =>
      rw [List.length_cons] at h
      unfold evictFront TcpVisr.evictFront
      split
      · rw [checkedSub_of_le (by omega), Option.bind_some]
        exact ih (by omega)
      · rfl

/-- Ageing one series leaves the count to cover the `rest`. -/
lemma evictFront_exact {α : Type} (t : α → Nanos) (horizon keepMin : ℕ) (l : List α)
    {n rest : ℕ} (h : l.length + rest ≤ n) :
    evictFront t horizon keepMin l n = some (TcpVisr.evictFront t horizon keepMin l n) ∧
      rest ≤ (TcpVisr.evictFront t horizon keepMin l n).2 := by
  refine ⟨evictFront_some t horizon keepMin l (by omega), ?_⟩
  rw [evictFront_eq]
  dsimp only
  omega

lemma evictKept_some {horizon n : ℕ} {k : Retained} (h : k.count ≤ n) :
    evictKept horizon k n = some (k.evict horizon n) := by
  have h0 : k.states.length + (k.series.length + (k.seq.length + (k.inflight.length +
      (k.rtt.length + (k.throughput.length + 0))))) ≤ n := by
    unfold Retained.count at h
    omega
  obtain ⟨e1, h1⟩ := evictFront_exact StateSample.t horizon 1 k.states h0
  obtain ⟨e2, h2⟩ := evictFront_exact MetricSample.t horizon 0 k.series h1
  obtain ⟨e3, h3⟩ := evictFront_exact SeqSample.t horizon 0 k.seq h2
  obtain ⟨e4, h4⟩ := evictFront_exact InFlightSample.t horizon 0 k.inflight h3
  obtain ⟨e5, h5⟩ := evictFront_exact RttSample.t horizon 0 k.rtt h4
  obtain ⟨e6, -⟩ := evictFront_exact ThroughputSample.t horizon 0 k.throughput h5
  simp only [evictKept, e1, e2, e3, e4, e5, e6, Option.bind_eq_bind, Option.bind_some]
  rfl

lemma evictOldestGlobal_some (h : Covered s) : evictOldestGlobal s = some s.evictOldestGlobal := by
  unfold Covered at h
  unfold evictOldestGlobal Slot.evictOldestGlobal
  rcases pop_cases s.track.kept with ⟨hp, -⟩ | ⟨k, hp, -, hc, -⟩
  · simp [hp]
  · simp [hp, checkedSub_of_le (show 1 ≤ s.collectedSamples by omega)]

lemma admitSample_some (h : Covered s) : admitSample cfg s = some (s.admitSample cfg) := by
  unfold admitSample Slot.admitSample
  split
  · split
    · rw [evictOldestGlobal_some h]
      rfl
    · rfl
  · rfl

lemma store_some (h : Covered s) (x : Sample) : store cfg s x = some (s.store cfg x) := by
  unfold store
  rw [admitSample_some h]
  rfl

lemma record_some (h : Covered s) (x : Sample) : record cfg s x = some (s.record cfg x) := by
  unfold record Slot.record
  split
  · rfl
  · exact store_some h x

lemma recordSample_some (h : Covered s) (x : MetricSample) :
    recordSample cfg s x = some (s.recordSample cfg x) := by
  unfold recordSample Slot.recordSample
  split
  · rfl
  · exact store_some h _

lemma covered_record (h : Covered s) (x : Sample) : Covered (s.record cfg x) :=
  h.recorded (recorded_record (P := fun _ => True) trivial s)

/-- A checked pass over a list does what the unchecked one does, when every step does. -/
lemma foldlM_some {β : Type} {f : Slot → β → Option Slot} {g : Slot → β → Slot}
    (hfg : ∀ s b, Covered s → f s b = some (g s b) ∧ Covered (g s b)) (l : List β)
    (h : Covered s) : l.foldlM f s = some (l.foldl g s) := by
  induction l generalizing s with
  | nil => rfl
  | cons b l ih =>
      obtain ⟨heq, hc⟩ := hfg s b h
      rw [List.foldlM_cons, heq, List.foldl_cons]
      exact ih hc

lemma collectSeqPoints_some (h : Covered s) (dir : Direction) (sample : MetricSample) :
    collectSeqPoints cfg s seg dir sample = some (s.collectSeqPoints cfg seg dir sample) := by
  unfold collectSeqPoints Slot.collectSeqPoints
  split
  · rfl
  · exact foldlM_some (fun s p hs => ⟨record_some hs _, covered_record hs _⟩) _ h

lemma Covered.collectSeqPoints (h : Covered s) (cfg : EngineConfig) (seg : Segment)
    (dir : Direction) (sample : MetricSample) : Covered (s.collectSeqPoints cfg seg dir sample) :=
  h.recorded (recorded_collectSeqPoints s seg dir sample)

lemma collectInflightAt_some (h : Covered s) (t : Nanos) :
    collectInflightAt cfg s t = some (s.collectInflightAt cfg t) := by
  unfold collectInflightAt Slot.collectInflightAt
  split
  · rfl
  · refine foldlM_some (fun s d hs => ?_) _ h
    cases s.track.derived.metrics.inFlight d with
    | none => exact ⟨rfl, hs⟩
    | some bytes => exact ⟨record_some hs _, covered_record hs _⟩

lemma Covered.collectInflightAt (h : Covered s) (cfg : EngineConfig) (t : Nanos) :
    Covered (s.collectInflightAt cfg t) :=
  h.recorded (recorded_collectInflightAt s t)

lemma collectThroughputAt_some (h : Covered s) (t : Nanos) :
    collectThroughputAt cfg s t = some (s.collectThroughputAt cfg t) := by
  unfold collectThroughputAt Slot.collectThroughputAt
  split
  · rfl
  · refine foldlM_some (fun s d hs => ?_) _ h
    cases s.track.derived.metrics.throughputAt d t cfg with
    | none => exact ⟨rfl, hs⟩
    | some rates => exact ⟨record_some hs _, covered_record hs _⟩

lemma collectRttPoints_some (h : Covered s) (sample : MetricSample) :
    collectRttPoints cfg s sample = some (s.collectRttPoints cfg sample) := by
  unfold collectRttPoints Slot.collectRttPoints
  split
  · rfl
  · cases sample.rtt with
    | none => rfl
    | some rtt => exact record_some (h.rederive _) _

lemma Covered.collectRttPoints (h : Covered s) (cfg : EngineConfig) (sample : MetricSample) :
    Covered (s.collectRttPoints cfg sample) :=
  h.recorded (recorded_collectRttPoints s sample)

lemma noteState_some (h : Covered s) (t : Nanos) :
    noteState cfg s t = some (s.noteState cfg t) := by
  unfold noteState Slot.noteState
  split
  · exact record_some h _
  · rfl

/-- The fresh sample, recorded if it is wanted. -/
lemma recordWanted_some (cfg : EngineConfig) (h : Covered s) (want : Bool)
    (sample : MetricSample) :
    (if want then recordSample cfg s sample else some s) =
        some (if want then s.recordSample cfg sample else s) ∧
      Covered (if want then s.recordSample cfg sample else s) := by
  cases want with
  | false => exact ⟨rfl, h⟩
  | true => exact ⟨recordSample_some h sample, h.recorded (recorded_recordSample _ _)⟩

/-- The points of the four series, one series after the other. -/
lemma collectAll_some (h : Covered s) (dir : Direction) (sample : MetricSample) :
    (do
      let s ← collectSeqPoints cfg s seg dir sample
      let s ← collectInflightAt cfg s seg.ts
      let s ← collectRttPoints cfg s sample
      collectThroughputAt cfg s seg.ts) =
      some ((((s.collectSeqPoints cfg seg dir sample).collectInflightAt cfg seg.ts).collectRttPoints
        cfg sample).collectThroughputAt cfg seg.ts) := by
  have hseq := h.collectSeqPoints cfg seg dir sample
  have hinflight := hseq.collectInflightAt cfg seg.ts
  have hrtt := hinflight.collectRttPoints cfg sample
  simp only [collectSeqPoints_some h, Option.bind_eq_bind, Option.bind_some,
    collectInflightAt_some hseq, collectRttPoints_some hinflight, collectThroughputAt_some hrtt]

/-- What is derived of a segment. -/
lemma derive_some (h : Covered s) (dir : Direction) :
    derive cfg s seg dir = some (s.derive cfg seg dir) := by
  unfold derive Slot.derive
  split
  · obtain ⟨heq, hc⟩ := recordWanted_some cfg (h.rederive
      { s.track.derived with metrics := (s.track.derived.metrics.observe seg dir cfg).1 })
      (cfg.shouldCollect s.track.id) (s.track.derived.metrics.observe seg dir cfg).2
    dsimp only
    rw [heq, Option.bind_some]
    exact collectAll_some hc dir _
  · rfl

lemma join_some (h : Covered s) : join cfg s seg = some (s.join cfg seg) := by
  have h₁ : Covered { s with track := accounted s.track seg } := by
    unfold Covered
    rw [accounted_kept]
    exact h
  have h₂ := h₁.recorded (recorded_noteState cfg _ seg.ts)
  change (noteState cfg { s with track := accounted s.track seg } seg.ts).bind _ = _
  rw [noteState_some h₁, Option.bind_some, derive_some h₂]
  rfl

lemma found_some (h : Covered s) : found cfg s seg = some (s.found cfg seg) := by
  change (derive cfg s seg (s.track.directionOf seg.flow.source)).bind _ = _
  rw [derive_some h]
  exact noteState_some (h.recorded (recorded_derive cfg s seg _)) seg.ts

lemma decay_some (h : Covered s) (t : Nanos) : decay cfg t s = some (s.decay cfg t) := by
  unfold decay Slot.decay
  split
  · rfl
  · rw [collectThroughputAt_some h]
    exact collectInflightAt_some (h.recorded (recorded_collectThroughputAt s t)) t

/-! ### The passes -/

lemma evict_some (h : Covered s) (horizon : ℕ) : evict horizon s = some (s.evict horizon) := by
  unfold evict
  rw [evictKept_some h]
  rfl

/-- A pass whose every call leaves the count to cover all connections still to come. -/
lemma eachSlot_some {f : Slot → Option Slot} {g : Slot → Slot}
    (hfg : ∀ s, Covered s → f s = some (g s))
    (hg : ∀ s, s.collectedSamples - s.track.kept.count ≤ (g s).collectedSamples)
    (cs : List ConnTrack) {n : ℕ} (o : Bool) (h : retained cs ≤ n) :
    eachSlot f cs n o = some (Tracker.eachSlot g cs n o) := by
  induction cs generalizing n o with
  | nil => rfl
  | cons c cs ih =>
      rw [retained_cons] at h
      have hc : Covered ⟨c, n, o⟩ := by
        unfold Covered
        dsimp only
        omega
      have hle := hg ⟨c, n, o⟩
      dsimp only at hle
      rw [eachSlot, hfg _ hc, Tracker.eachSlot]
      simp only [Option.bind_eq_bind, Option.bind_some]
      rw [ih _ (by omega)]
      rfl

lemma forEach_some {f : Slot → Option Slot} {g : Slot → Slot}
    (hfg : ∀ s, Covered s → f s = some (g s))
    (hg : ∀ s, s.collectedSamples - s.track.kept.count ≤ (g s).collectedSamples)
    (h : t.collectedSamples = retained t.conns) : forEach t f = some (t.forEach g) := by
  unfold forEach
  rw [eachSlot_some hfg hg _ _ h.ge]
  rfl

lemma evictSamples_some (h : t.collectedSamples = retained t.conns) :
    evictSamples cfg t = some (t.evictSamples cfg) := by
  unfold evictSamples Tracker.evictSamples
  cases cfg.retention.window with
  | none => rfl
  | some w =>
      refine forEach_some (fun s hs => evict_some hs _) (fun s => ?_) h
      rw [Slot.evict, evict_eq]
      dsimp only
      omega

lemma emitDecaySamples_some (h : t.collectedSamples = retained t.conns) :
    emitDecaySamples cfg t = some (t.emitDecaySamples cfg) := by
  unfold emitDecaySamples Tracker.emitDecaySamples
  split
  · rfl
  · refine forEach_some (fun s hs => decay_some hs _) (fun s => ?_) h
    exact (Nat.sub_le _ _).trans (recorded_decay cfg _ s).mono

lemma observeSegment_some (h : t.collectedSamples = retained t.conns) (seg : Segment) :
    observeSegment cfg t seg = some (t.observeSegment cfg seg) := by
  unfold observeSegment Tracker.observeSegment
  cases hj : t.joins cfg seg with
  | none =>
      have hc : Covered (t.slot (freshTrack (t.nextId seg.pair) seg)) := by
        unfold Covered
        rw [Tracker.slot, kept_freshTrack]
        exact Nat.zero_le _
      simp only [createInstance, found_some hc]
      rfl
  | some i =>
      obtain ⟨c, hc⟩ := joins_conns hj
      have hcov : Covered (t.slot c) := (count_le_retained (List.mem_of_getElem? hc)).trans h.ge
      simp only [joinInstance, Tracker.joinInstance, hc, join_some hcov]
      rfl

/-- **One item**: no subtraction fails. -/
lemma observe_some (h : t.collectedSamples = retained t.conns) (x : Item) :
    observe cfg t x = some (t.observe cfg x) := by
  have hb := balance_recording cfg h x
  cases x with
  | segment seg =>
      change (observeSegment cfg (clocked t (.segment seg)) seg).bind (evictSamples cfg) = _
      rw [observeSegment_some (t := clocked t (.segment seg)) h, Option.bind_some]
      exact evictSamples_some hb
  | tick at_ =>
      cases hw : cfg.retention.window with
      | none => simp [observe, observeTick, Tracker.observe, Tracker.observeTick, hw]
      | some w =>
          have hrec : recording cfg t (.tick at_) =
              (clocked t (.tick at_)).emitDecaySamples cfg := by
            simp [recording, hw]
          rw [hrec] at hb
          rw [observe_tick_evict hw, observe, observeTick, if_neg (by simp [hw])]
          change (emitDecaySamples cfg (clocked t (.tick at_))).bind _ = _
          rw [emitDecaySamples_some (t := clocked t (.tick at_)) h, Option.bind_some,
            evictSamples_some hb]
          rfl

lemma track_some (cfg : EngineConfig) (items : List Item) :
    track cfg items = some (Tracker.track cfg items) := by
  induction items using List.reverseRecOn with
  | nil => rfl
  | append_singleton p x ih =>
      unfold track at ih ⊢
      rw [List.foldlM_append, ih, Tracker.track_snoc]
      simp [observe_some (counted_track cfg p).balance]

/-- A tracker that did not overflow yields its metrics and its timeline. -/
lemma yields_of_not_overflowed (ho : t.overflowed = false) :
    (∃ ms, t.intoMetrics cfg = .ok ms) ∧ ∃ tl, t.intoTimeline cfg = .ok tl := by
  simp [Tracker.intoMetrics, Tracker.intoTimeline, ho]

end Exact

/-- **Sample accounting.** After every run the counter is what the six series of all tracked
connections hold, and no subtraction from it has ever saturated. Under fail-fast it stays
within the ceiling; under eviction nothing overflows, so metrics and timeline are always to
be had. -/
theorem counter_exact (cfg : EngineConfig) (items : List Item) :
    (Tracker.track cfg items).collectedSamples =
        ((Tracker.track cfg items).conns.map fun c => c.kept.count).sum ∧
      Checked.track cfg items = some (Tracker.track cfg items) ∧
      match cfg.retention with
      | .failFast maxSamples => (Tracker.track cfg items).collectedSamples ≤ maxSamples
      | .evict _ _ => (Tracker.track cfg items).overflowed = false ∧
        (∃ ms, (Tracker.track cfg items).intoMetrics cfg = .ok ms) ∧
          ∃ tl, (Tracker.track cfg items).intoTimeline cfg = .ok tl := by
  have hn := counted_track cfg items
  refine ⟨hn.balance, track_some cfg items, ?_⟩
  cases hr : cfg.retention with
  | failFast m =>
      have hw : cfg.retention.window = none := by rw [hr]; rfl
      have hcap := (capped_track hw items).within
      rwa [hr] at hcap
  | evict w m =>
      have ho := hn.evict (by rw [hr]; rfl)
      exact ⟨ho, yields_of_not_overflowed ho⟩

end TcpVisr.Checked
