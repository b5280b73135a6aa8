import TcpVisr.Index

/-!
One step of the tracker, with everything it retains.

Each kind of item has one equation for the state it leads to; from these come the counting
invariant and, for a single connection, where it came from.
-/

namespace TcpVisr.Steps

open Recording Slots Plan Passes Lifecycle Index

variable {cfg : EngineConfig} {t : Tracker} {seg : Segment}

/-- The horizon the eviction pass ages to: zero when nothing is aged. -/
def horizonAt (cfg : EngineConfig) (now : Nanos) : ℕ :=
  match cfg.retention.window with
  | none => 0
  | some w => now.ns - w.ns

lemma horizonAt_some {w : Nanos} (hw : cfg.retention.window = some w) (now : Nanos) :
    horizonAt cfg now = now.ns - w.ns := by
  simp [horizonAt, hw]

/-- The count is what is retained, and nothing overflows under eviction. -/
structure Counted (cfg : EngineConfig) (t : Tracker) : Prop where
  balance : t.collectedSamples = retained t.conns
  evict : cfg.retention.window.isSome → t.overflowed = false

/-- A tracker whose series are aged to the horizon, and recounted. -/
def agedTracker (cfg : EngineConfig) (t : Tracker) : Tracker :=
  { t with
    conns := t.conns.map (aged (horizonAt cfg t.now))
    collectedSamples := retained (t.conns.map (aged (horizonAt cfg t.now))) }

lemma evictSamples_eq (hb : t.collectedSamples = retained t.conns) :
    t.evictSamples cfg = agedTracker cfg t := by
  unfold Tracker.evictSamples agedTracker horizonAt
  cases cfg.retention.window with
  | none =>
      have : t.conns.map (aged 0) = t.conns := by simp [funext aged_zero]
      simp only [this, ← hb]
  | some w =>
      have hle := retained_aged_le (t.horizon w) t.conns
      dsimp only [Tracker.forEach]
      rw [eachSlot_evict]
      simp only [Tracker.horizon, Tracker.mk.injEq, true_and, and_true] at hle ⊢
      omega

lemma retained_set {cs : List ConnTrack} {i : ℕ} {c : ConnTrack} (hc : cs[i]? = some c)
    (c' : ConnTrack) : retained (cs.set i c') + c.kept.count = retained cs + c'.kept.count := by
  induction cs generalizing i with
  | nil => simp at hc
  | cons d cs ih =>
      cases i with
      | zero =>
          obtain rfl : d = c := by simpa using hc
          simp only [List.set_cons_zero, retained_cons]
          omega
      | succ i =>
          have := ih (by simpa using hc)
          simp only [List.set_cons_succ, retained_cons]
          omega

lemma count_le_retained {cs : List ConnTrack} {c : ConnTrack} (hc : c ∈ cs) :
    c.kept.count ≤ retained cs :=
  List.single_le_sum (by simp) _ (List.mem_map_of_mem hc)

/-! ### Recording, and what follows it -/

/-- The first half of `observe`: everything up to the eviction passes. -/
def recording (cfg : EngineConfig) (t : Tracker) : Item → Tracker
  | .segment seg => (clocked t (.segment seg)).observeSegment cfg seg
  | .tick at_ =>
    if cfg.retention.window.isNone then t else (clocked t (.tick at_)).emitDecaySamples cfg

/-- A segment joins the connection at index `i`. -/
lemma recording_join {i : ℕ} {c : ConnTrack} (hj : t.joins cfg seg = some i)
    (hc : t.conns[i]? = some c) :
    recording cfg t (.segment seg) =
      { t with
        conns := t.conns.set i ((t.slot c).join cfg seg).track
        collectedSamples := ((t.slot c).join cfg seg).collectedSamples
        overflowed := ((t.slot c).join cfg seg).overflowed
        now := max t.now seg.ts } := by
  have hj' : (clocked t (.segment seg)).joins cfg seg = some i := hj
  have hc' : (clocked t (.segment seg)).conns[i]? = some c := hc
  simp only [recording, Tracker.observeSegment, hj', Tracker.joinInstance, hc']
  rfl

/-- A segment opens a new instance. -/
lemma recording_create (hj : t.joins cfg seg = none) :
    recording cfg t (.segment seg) =
      { t with
        conns := t.conns ++
          [((t.slot (freshTrack (t.nextId seg.pair) seg)).found cfg seg).track]
        live := Function.update t.live seg.pair (some t.conns.length)
        nextInstance := Function.update t.nextInstance seg.pair
          (some ((t.nextId seg.pair).inst + 1))
        collectedSamples :=
          ((t.slot (freshTrack (t.nextId seg.pair) seg)).found cfg seg).collectedSamples
        overflowed := ((t.slot (freshTrack (t.nextId seg.pair) seg)).found cfg seg).overflowed
        now := max t.now seg.ts } := by
  have hj' : (clocked t (.segment seg)).joins cfg seg = none := hj
  simp only [recording, Tracker.observeSegment, hj']
  rfl

/-- The connections once a tick has recorded its decay samples. -/
def decayed (cfg : EngineConfig) (t : Tracker) (now : Nanos) : List ConnTrack × ℕ × Bool :=
  if t.overflowed then (t.conns, t.collectedSamples, t.overflowed)
  else Tracker.eachSlot (Slot.decay cfg now) t.conns t.collectedSamples t.overflowed

/-- A tick under eviction. -/
lemma recording_tick (hw : cfg.retention.window.isSome) (at_ : Nanos) :
    recording cfg t (.tick at_) =
      { t with
        conns := (decayed cfg t (max t.now at_)).1
        collectedSamples := (decayed cfg t (max t.now at_)).2.1
        overflowed := (decayed cfg t (max t.now at_)).2.2
        now := max t.now at_ } := by
  have hw' : cfg.retention.window.isNone = false := by
    rw [← Option.not_isSome, hw]
    rfl
  simp only [recording, hw']
  unfold Tracker.emitDecaySamples decayed
  by_cases ho : t.overflowed = true
  · simp only [clocked, ho, if_true]
    rfl
  · simp only [clocked, ho, Tracker.forEach]
    rfl

lemma decayed_cases (cfg : EngineConfig) (t : Tracker) (now : Nanos) :
    ∃ cs n o, decayed cfg t now = (cs, n, o) ∧ List.Forall₂ (Fed (Detail now)) t.conns cs ∧
      (retained t.conns ≤ t.collectedSamples →
        n + retained t.conns = t.collectedSamples + retained cs) ∧
      (cfg.retention.window.isSome → o = t.overflowed) := by
  unfold decayed
  split
  · exact ⟨_, _, _, rfl, List.forall₂_same.mpr fun _ _ => ⟨rfl, .refl⟩, fun _ => rfl, fun _ => rfl⟩
  · obtain ⟨cs, n, o, heq, hall, hbal, -, hflag⟩ :=
      eachSlot_recorded (recorded_decay cfg now) t.conns t.collectedSamples t.overflowed
    exact ⟨cs, n, o, heq, hall, hbal, hflag⟩

/-- Recording keeps the count exact. -/
lemma balance_recording (cfg : EngineConfig) (hb : t.collectedSamples = retained t.conns)
    (x : Item) :
    (recording cfg t x).collectedSamples = retained (recording cfg t x).conns := by
  cases x with
  | segment seg =>
      cases hj : t.joins cfg seg with
      | some i =>
          obtain ⟨c, hc⟩ := joins_conns hj
          rw [recording_join hj hc]
          have hle := count_le_retained (List.mem_of_getElem? hc)
          have h := (recorded_join cfg (t.slot c) seg).balance
          simp only [Tracker.slot, accounted_kept] at h
          have hs := retained_set hc ((t.slot c).join cfg seg).track
          simp only [Tracker.slot] at hs h ⊢
          have := h (by omega)
          omega
      | none =>
          rw [recording_create hj]
          have h := (recorded_found cfg
            (t.slot (freshTrack (t.nextId seg.pair) seg)) seg).balance
          simp only [Tracker.slot, kept_freshTrack] at h
          have h0 : (({} : Retained)).count = 0 := rfl
          have h1 := h (by omega)
          simp only [Tracker.slot, retained_append, retained_cons, retained_nil] at h1 ⊢
          omega
  | tick at_ =>
      cases hw : cfg.retention.window with
      | none => simpa [recording, hw] using hb
      | some w =>
          rw [recording_tick (by simp [hw])]
          obtain ⟨cs, n, o, hd, -, hbal, -⟩ := decayed_cases cfg t (max t.now at_)
          have := hbal hb.ge
          rw [hd]
          simp only
          omega

/-- A segment is recorded, then every series is aged. -/
lemma observe_segment_eq (hb : t.collectedSamples = retained t.conns) :
    t.observe cfg (.segment seg) = agedTracker cfg (recording cfg t (.segment seg)) :=
  evictSamples_eq (balance_recording cfg hb (.segment seg))

/-- After a tick under eviction dead connections go as well. -/
lemma observe_tick_eq (hb : t.collectedSamples = retained t.conns)
    (hw : cfg.retention.window.isSome) (at_ : Nanos) :
    t.observe cfg (.tick at_) =
      (agedTracker cfg (recording cfg t (.tick at_))).evictDeadConnections cfg := by
  obtain ⟨w, hw'⟩ := Option.isSome_iff_exists.mp hw
  have hrec : recording cfg t (.tick at_) = (clocked t (.tick at_)).emitDecaySamples cfg := by
    simp [recording, hw']
  rw [observe_tick_evict hw', ← hrec, evictSamples_eq (balance_recording cfg hb (.tick at_))]

lemma observe_join_eq (hb : t.collectedSamples = retained t.conns) {i : ℕ} {c : ConnTrack}
    (hj : t.joins cfg seg = some i) (hc : t.conns[i]? = some c) :
    t.observe cfg (.segment seg) = agedTracker cfg
      { t with
        conns := t.conns.set i ((t.slot c).join cfg seg).track
        collectedSamples := ((t.slot c).join cfg seg).collectedSamples
        overflowed := ((t.slot c).join cfg seg).overflowed
        now := max t.now seg.ts } := by
  rw [observe_segment_eq hb, recording_join hj hc]

lemma observe_create_eq (hb : t.collectedSamples = retained t.conns)
    (hj : t.joins cfg seg = none) :
    t.observe cfg (.segment seg) = agedTracker cfg
      { t with
        conns := t.conns ++
          [((t.slot (freshTrack (t.nextId seg.pair) seg)).found cfg seg).track]
        live := Function.update t.live seg.pair (some t.conns.length)
        nextInstance := Function.update t.nextInstance seg.pair
          (some ((t.nextId seg.pair).inst + 1))
        collectedSamples :=
          ((t.slot (freshTrack (t.nextId seg.pair) seg)).found cfg seg).collectedSamples
        overflowed := ((t.slot (freshTrack (t.nextId seg.pair) seg)).found cfg seg).overflowed
        now := max t.now seg.ts } := by
  rw [observe_segment_eq hb, recording_create hj]

lemma conns_evictDeadConnections {w : Nanos} (hw : cfg.retention.window = some w) (t : Tracker) :
    (t.evictDeadConnections cfg).conns =
      t.conns.filter fun c => !c.evictable cfg (horizonAt cfg t.now) t.now := by
  rw [horizonAt_some hw]
  by_cases hlen : (t.conns.filter fun c => !c.evictable cfg (t.now.ns - w.ns) t.now).length =
      t.conns.length
  · simp only [Tracker.evictDeadConnections, hw, Tracker.horizon, hlen, if_true]
    exact (List.filter_sublist.eq_of_length hlen).symm
  · simp only [Tracker.evictDeadConnections, hw, Tracker.horizon, hlen, if_false]

lemma counted_evictDeadConnections (h : Counted cfg t) :
    Counted cfg (t.evictDeadConnections cfg) := by
  unfold Tracker.evictDeadConnections
  split
  · exact h
  · dsimp only
    split
    · exact h
    · exact ⟨rfl, h.evict⟩

lemma counted_agedTracker (h : cfg.retention.window.isSome → t.overflowed = false) :
    Counted cfg (agedTracker cfg t) := ⟨rfl, h⟩

lemma counted_observe (h : Counted cfg t) (x : Item) : Counted cfg (t.observe cfg x) := by
  cases x with
  | segment seg =>
      cases hj : t.joins cfg seg with
      | some i =>
          obtain ⟨c, hc⟩ := joins_conns hj
          rw [observe_join_eq h.balance hj hc]
          exact counted_agedTracker fun hw =>
            ((recorded_join cfg (t.slot c) seg).evict hw).trans (h.evict hw)
      | none =>
          rw [observe_create_eq h.balance hj]
          exact counted_agedTracker fun hw =>
            ((recorded_found _ _ seg).evict hw).trans (h.evict hw)
  | tick at_ =>
      cases hw : cfg.retention.window with
      | none => rw [observe_tick_failFast hw]; exact h
      | some w =>
          rw [observe_tick_eq h.balance (by simp [hw]), recording_tick (by simp [hw])]
          obtain ⟨cs, n, o, hd, -, -, hflag⟩ := decayed_cases cfg t (max t.now at_)
          rw [hd]
          exact counted_evictDeadConnections
            (counted_agedTracker fun hs => (hflag hs).trans (h.evict hs))

/-- **Accounting.** After every run the count is exactly what is retained. -/
theorem counted_track (cfg : EngineConfig) (items : List Item) :
    Counted cfg (Tracker.track cfg items) :=
  Lib.Runs.inv_run (P := Counted cfg) ⟨rfl, fun _ => rfl⟩ (fun _ x h => counted_observe h x) items

/-! ### Where a connection comes from -/

/-- The step that made a tracked connection of the next state what it is. -/
inductive Came (cfg : EngineConfig) (t : Tracker) : Item → ConnTrack → Prop
  | apart {seg : Segment} {j : ℕ} {c : ConnTrack} (hc : t.conns[j]? = some c)
      (hj : t.joins cfg seg ≠ some j) :
      Came cfg t (.segment seg) (aged (horizonAt cfg (max t.now seg.ts)) c)
  | joined {seg : Segment} {i : ℕ} {c : ConnTrack} (hj : t.joins cfg seg = some i)
      (hc : t.conns[i]? = some c) :
      Came cfg t (.segment seg)
        (aged (horizonAt cfg (max t.now seg.ts)) ((t.slot c).join cfg seg).track)
  | opened {seg : Segment} (hj : t.joins cfg seg = none) :
      Came cfg t (.segment seg) (aged (horizonAt cfg (max t.now seg.ts))
        ((t.slot (freshTrack (t.nextId seg.pair) seg)).found cfg seg).track)
  | inert {at_ : Nanos} {c : ConnTrack} (hw : cfg.retention.window = none) (hc : c ∈ t.conns) :
      Came cfg t (.tick at_) c
  | ticked {at_ : Nanos} {c c' : ConnTrack} (hw : cfg.retention.window.isSome)
      (hc : c ∈ t.conns) (hf : Fed (Detail (max t.now at_)) c c')
      (hl : c.evictable cfg (horizonAt cfg (max t.now at_)) (max t.now at_) = false) :
      Came cfg t (.tick at_) (aged (horizonAt cfg (max t.now at_)) c')

/-- Every tracked connection after a step came from somewhere. -/
theorem came_of_mem (hb : t.collectedSamples = retained t.conns) (x : Item) :
    ∀ c ∈ (t.observe cfg x).conns, Came cfg t x c := by
  intro c' hc'
  cases x with
  | segment seg =>
      cases hj : t.joins cfg seg with
      | some i =>
          obtain ⟨c, hc⟩ := joins_conns hj
          rw [observe_join_eq hb hj hc] at hc'
          obtain ⟨d, hd, rfl⟩ := List.mem_map.mp hc'
          obtain ⟨j, hdj⟩ := List.mem_iff_getElem?.mp hd
          by_cases hij : i = j
          · subst hij
            rw [List.getElem?_set_self (List.getElem?_eq_some_iff.mp hc).1] at hdj
            obtain rfl := Option.some.inj hdj
            exact .joined hj hc
          · rw [List.getElem?_set_ne hij] at hdj
            exact .apart hdj (by rw [hj]; simpa using hij)
      | none =>
          rw [observe_create_eq hb hj] at hc'
          obtain ⟨d, hd, rfl⟩ := List.mem_map.mp hc'
          rcases List.mem_append.mp hd with hd | hd
          · obtain ⟨j, hdj⟩ := List.mem_iff_getElem?.mp hd
            exact .apart hdj (by rw [hj]; simp)
          · rw [List.mem_singleton.mp hd]
            exact .opened hj
  | tick at_ =>
      cases hw : cfg.retention.window with
      | none =>
          rw [observe_tick_failFast hw] at hc'
          exact .inert hw hc'
      | some w =>
          rw [observe_tick_eq hb (by simp [hw]), conns_evictDeadConnections hw,
            recording_tick (by simp [hw])] at hc'
          obtain ⟨cs, n, o, hd, hall, -⟩ := decayed_cases cfg t (max t.now at_)
          rw [hd] at hc'
          obtain ⟨hc', hlive⟩ := List.mem_filter.mp hc'
          obtain ⟨d, hd, rfl⟩ := List.mem_map.mp hc'
          obtain ⟨c, hc, hf⟩ := Lib.Runs.forall₂_mem_right hall hd
          refine .ticked (by simp [hw]) hc hf ?_
          change (core c).evictable cfg (horizonAt cfg (max t.now at_)) (max t.now at_) = false
          rw [← hf.core]
          exact (Bool.not_eq_true' _).mp hlive

end TcpVisr.Steps
