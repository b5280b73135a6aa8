import TcpVisr.Passes

/-!
The lifecycle of connections as a machine of its own.

Which instances exist, what state they are in and which one a segment joins depends on the
segments and the clock only, never on what is recorded. The lifecycle part of a tracker is
the run of this smaller machine, and the facts about identities are proved of it.
-/

namespace TcpVisr

open Slots Plan

/-- The lifecycle part of a tracker. Its connections carry no derivation and no series. -/
structure Life where
  conns : List ConnTrack
  live : EndpointPair → Option ℕ
  nextInstance : EndpointPair → Option ℕ
  now : Nanos

namespace Life

def new : Life where
  conns := []
  live := fun _ => none
  nextInstance := fun _ => none
  now := Nanos.sat 0

variable (cfg : EngineConfig)

/-- The live instance of its pair, when `seg` joins it. -/
def joins (l : Life) (seg : Segment) : Option ℕ :=
  match l.live seg.pair with
  | none => none
  | some idx =>
    match l.conns[idx]? with
    | none => none
    | some c => if shouldSplit cfg c seg then none else some idx

/-- The instance that `seg` opens. -/
def opened (l : Life) (seg : Segment) : ConnTrack :=
  freshTrack ⟨seg.pair, (l.nextInstance seg.pair).getD 0⟩ seg

/-- Whole-connection eviction at horizon `h`. -/
def evictDead (l : Life) (h : ℕ) : Life :=
  let conns := l.conns.filter fun c => !c.evictable cfg h l.now
  if conns.length = l.conns.length then l
  else
    { l with
      conns
      live := Tracker.rebuildLive conns
      nextInstance := fun pair =>
        if conns.any fun c => c.id.pair = pair then l.nextInstance pair else none }

def observe (l : Life) : Item → Life
  | .segment seg =>
    match l.joins cfg seg with
    | some idx =>
      { l with
        conns := l.conns.modify idx fun c => accounted c seg
        now := max l.now seg.ts }
    | none =>
      { conns := l.conns ++ [l.opened seg]
        live := Function.update l.live seg.pair (some l.conns.length)
        nextInstance := Function.update l.nextInstance seg.pair
          (some ((l.nextInstance seg.pair).getD 0 + 1))
        now := max l.now seg.ts }
  | .tick at_ =>
    match cfg.retention.window with
    | none => l
    | some window =>
      evictDead cfg { l with now := max l.now at_ } ((max l.now at_).ns - window.ns)

variable {cfg} {l : Life} {seg : Segment}

lemma observe_join {idx : ℕ} (h : l.joins cfg seg = some idx) :
    l.observe cfg (.segment seg) =
      { l with
        conns := l.conns.modify idx fun c => accounted c seg
        now := max l.now seg.ts } := by
  simp only [observe, h]

lemma observe_open (h : l.joins cfg seg = none) :
    l.observe cfg (.segment seg) =
      { conns := l.conns ++ [l.opened seg]
        live := Function.update l.live seg.pair (some l.conns.length)
        nextInstance := Function.update l.nextInstance seg.pair
          (some ((l.nextInstance seg.pair).getD 0 + 1))
        now := max l.now seg.ts } := by
  simp only [observe, h]

lemma observe_tick_failFast (hw : cfg.retention.window = none) (at_ : Nanos) :
    l.observe cfg (.tick at_) = l := by
  simp only [observe, hw]

lemma observe_tick_evict {w : Nanos} (hw : cfg.retention.window = some w) (at_ : Nanos) :
    l.observe cfg (.tick at_) =
      evictDead cfg { l with now := max l.now at_ } ((max l.now at_).ns - w.ns) := by
  simp only [observe, hw]

end Life

/-- The lifecycle part of a tracker. -/
def Tracker.life (t : Tracker) : Life := ⟨t.conns.map core, t.live, t.nextInstance, t.now⟩

namespace Lifecycle

open Passes

variable {cfg : EngineConfig} {t : Tracker} {c : ConnTrack} {seg : Segment}

@[simp] lemma life_now (t : Tracker) : t.life.now = t.now := rfl
@[simp] lemma life_live (t : Tracker) : t.life.live = t.live := rfl
@[simp] lemma life_nextInstance (t : Tracker) : t.life.nextInstance = t.nextInstance := rfl

lemma core_account (c : ConnTrack) (seg : Segment) (dir : Direction) :
    core (c.account seg dir) = (core c).account seg dir := by
  cases dir <;> rfl

lemma core_markFin (c : ConnTrack) (dir : Direction) :
    core (c.markFin dir) = (core c).markFin dir := by
  cases dir <;> rfl

lemma core_applyState (c : ConnTrack) (seg : Segment) (dir : Direction) :
    core (c.applyState seg dir) = (core c).applyState seg dir := by
  unfold ConnTrack.applyState
  by_cases hr : seg.flags.rst = true
  · rw [if_pos hr, if_pos hr]; rfl
  · have hs : (core c).state = c.state := rfl
    rw [if_neg hr, if_neg hr, hs]
    by_cases hc : c.state = .reset
    · rw [if_pos hc, if_pos hc]
    · rw [if_neg hc, if_neg hc]
      by_cases hf : seg.flags.fin = true
      · rw [if_pos hf, if_pos hf, ← core_markFin]; rfl
      · rw [if_neg hf, if_neg hf]; rfl

lemma core_accounted (c : ConnTrack) (seg : Segment) :
    core (accounted c seg) = accounted (core c) seg := by
  unfold accounted
  rw [core_applyState, core_account]
  rfl

lemma core_freshTrack (id : ConnId) (seg : Segment) :
    core (freshTrack id seg) = freshTrack id seg := by
  unfold freshTrack
  dsimp only
  split
  · rw [core_markFin, core_account]; rfl
  · rw [core_account]; rfl

lemma joins_life (t : Tracker) (seg : Segment) : t.life.joins cfg seg = t.joins cfg seg := by
  unfold Life.joins Tracker.joins
  cases hl : t.live seg.pair with
  | none => simp only [life_live, hl]
  | some idx =>
      simp only [hl, Tracker.life, List.getElem?_map]
      cases t.conns[idx]? <;> rfl

lemma joins_some {l : Life} {idx : ℕ} (h : l.joins cfg seg = some idx) :
    l.live seg.pair = some idx ∧ ∃ c, l.conns[idx]? = some c ∧ shouldSplit cfg c seg = false := by
  unfold Life.joins at h
  split at h
  · simp at h
  · next i hi =>
      split at h
      · simp at h
      · next c hc =>
          split at h
          · simp at h
          · next hs =>
              obtain rfl := Option.some.inj h
              exact ⟨hi, c, hc, by simpa using hs⟩

lemma joins_conns {idx : ℕ} (h : t.joins cfg seg = some idx) : ∃ c, t.conns[idx]? = some c := by
  obtain ⟨-, c₀, hc₀, -⟩ := joins_some ((joins_life t seg).trans h)
  simp only [Tracker.life, List.getElem?_map] at hc₀
  obtain ⟨c, hc, -⟩ := Option.map_eq_some_iff.mp hc₀
  exact ⟨c, hc⟩

lemma map_core_evict (h : ℕ) (cs : List ConnTrack) : (cs.map (aged h)).map core = cs.map core := by
  simp [List.map_map, Function.comp_def]

lemma life_evictSamples (t : Tracker) : (t.evictSamples cfg).life = t.life := by
  unfold Tracker.evictSamples
  split
  · rfl
  · unfold Tracker.forEach
    rw [eachSlot_evict]
    simp only [Tracker.life, map_core_evict]

lemma life_emitDecaySamples (t : Tracker) : (t.emitDecaySamples cfg).life = t.life := by
  unfold Tracker.emitDecaySamples
  split
  · rfl
  · obtain ⟨cs', n', o', heq, hall, -⟩ :=
      eachSlot_recorded (recorded_decay cfg t.now) t.conns t.collectedSamples
        t.overflowed
    unfold Tracker.forEach
    rw [heq]
    simp only [Tracker.life, map_core_of_fed hall]

lemma rebuildLive_core (cs : List ConnTrack) :
    Tracker.rebuildLive (cs.map core) = Tracker.rebuildLive cs := by
  unfold Tracker.rebuildLive
  rw [List.zipIdx_map, List.foldl_map]
  rfl

lemma life_evictDeadConnections (t : Tracker) {w : Nanos} (hw : cfg.retention.window = some w) :
    (t.evictDeadConnections cfg).life = t.life.evictDead cfg (t.now.ns - w.ns) := by
  have hfil : (t.conns.map core).filter (fun c => !c.evictable cfg (t.now.ns - w.ns) t.now) =
      (t.conns.filter fun c => !c.evictable cfg (t.now.ns - w.ns) t.now).map core :=
    List.filter_map
  unfold Tracker.evictDeadConnections Life.evictDead
  simp only [hw, Tracker.horizon, Tracker.life, hfil, List.length_map]
  by_cases hlen : (t.conns.filter fun c => !c.evictable cfg (t.now.ns - w.ns) t.now).length =
      t.conns.length
  · simp only [hlen, if_true]
  · simp only [hlen, if_false, rebuildLive_core, List.any_map]
    rfl

lemma life_joinInstance (t : Tracker) (idx : ℕ) (seg : Segment) :
    (t.joinInstance cfg idx seg).life =
      { t.life with conns := t.life.conns.modify idx fun c => accounted c seg } := by
  unfold Tracker.joinInstance
  cases hc : t.conns[idx]? with
  | none =>
      have : t.life.conns.modify idx (fun c => accounted c seg) = t.life.conns := by
        rw [List.modify_eq_set_getElem?]
        simp [Tracker.life, hc]
      rw [this]
  | some c =>
      have hcore := (recorded_join cfg (t.slot c) seg).core
      have : (t.conns.set idx ((t.slot c).join cfg seg).track).map core =
          (t.conns.map core).modify idx fun c => accounted c seg := by
        rw [List.modify_eq_set_getElem?, List.map_set, hcore, List.getElem?_map, hc]
        simp [core_accounted, Tracker.slot]
      simp only [Tracker.life, this]

lemma life_createInstance (t : Tracker) (seg : Segment) :
    (t.createInstance cfg seg).life =
      { t.life with
        conns := t.life.conns ++ [t.life.opened seg]
        live := Function.update t.live seg.pair (some t.conns.length)
        nextInstance := Function.update t.nextInstance seg.pair
          (some ((t.nextInstance seg.pair).getD 0 + 1)) } := by
  have hcore : core ((t.slot (freshTrack (t.nextId seg.pair) seg)).found cfg seg).track =
      t.life.opened seg :=
    (recorded_found _ _ seg).core.trans (core_freshTrack _ seg)
  unfold Tracker.createInstance
  simp only [Tracker.life, List.map_append, List.map_singleton, hcore]
  rfl

/-! ### The steps, one equation each -/

/-- The tracker at the time of an item. -/
def clocked (t : Tracker) (x : Item) : Tracker := { t with now := max t.now x.ts }

lemma observe_join {idx : ℕ} (h : t.joins cfg seg = some idx) :
    t.observe cfg (.segment seg) =
      ((clocked t (.segment seg)).joinInstance cfg idx seg).evictSamples cfg := by
  have hj : (clocked t (.segment seg)).joins cfg seg = some idx := h
  unfold Tracker.observe Tracker.observeSegment
  change Tracker.evictSamples cfg (match (clocked t (.segment seg)).joins cfg seg with
    | some idx => (clocked t (.segment seg)).joinInstance cfg idx seg
    | none => (clocked t (.segment seg)).createInstance cfg seg) = _
  rw [hj]

lemma observe_create (h : t.joins cfg seg = none) :
    t.observe cfg (.segment seg) =
      ((clocked t (.segment seg)).createInstance cfg seg).evictSamples cfg := by
  have hj : (clocked t (.segment seg)).joins cfg seg = none := h
  unfold Tracker.observe Tracker.observeSegment
  change Tracker.evictSamples cfg (match (clocked t (.segment seg)).joins cfg seg with
    | some idx => (clocked t (.segment seg)).joinInstance cfg idx seg
    | none => (clocked t (.segment seg)).createInstance cfg seg) = _
  rw [hj]

lemma observe_tick_failFast (hw : cfg.retention.window = none) (at_ : Nanos) :
    t.observe cfg (.tick at_) = t := by
  simp [Tracker.observe, Tracker.observeTick, hw]

lemma observe_tick_evict {w : Nanos} (hw : cfg.retention.window = some w) (at_ : Nanos) :
    t.observe cfg (.tick at_) =
      (((clocked t (.tick at_)).emitDecaySamples cfg).evictSamples cfg).evictDeadConnections
        cfg := by
  simp only [Tracker.observe, Tracker.observeTick, hw, Option.isNone_some, Bool.false_eq_true,
    if_false]
  rfl

lemma life_clocked (t : Tracker) (x : Item) :
    (clocked t x).life = { t.life with now := max t.now x.ts } := rfl

lemma now_evictSamples (cfg : EngineConfig) (t : Tracker) : (t.evictSamples cfg).now = t.now :=
  congrArg Life.now (life_evictSamples t)

lemma now_emitDecaySamples (t : Tracker) : (t.emitDecaySamples cfg).now = t.now :=
  congrArg Life.now (life_emitDecaySamples t)

/-- **One step.** The lifecycle part of a tracker moves as the lifecycle machine does. -/
theorem life_observe (cfg : EngineConfig) (t : Tracker) (x : Item) :
    (t.observe cfg x).life = t.life.observe cfg x := by
  cases x with
  | segment seg =>
      cases hj : t.joins cfg seg with
      | some idx =>
          rw [observe_join hj, life_evictSamples, life_joinInstance, life_clocked,
            Life.observe_join (joins_life t seg ▸ hj)]
          rfl
      | none =>
          rw [observe_create hj, life_evictSamples, life_createInstance, life_clocked,
            Life.observe_open (joins_life t seg ▸ hj)]
          simp only [Tracker.life, List.length_map]
          rfl
  | tick at_ =>
      cases hw : cfg.retention.window with
      | none => rw [observe_tick_failFast hw, Life.observe_tick_failFast hw]
      | some w =>
          rw [observe_tick_evict hw, life_evictDeadConnections _ hw, life_evictSamples,
            life_emitDecaySamples, now_evictSamples, now_emitDecaySamples,
            Life.observe_tick_evict hw]
          rfl

/-- **Refinement.** The lifecycle part of a run is the run of the lifecycle machine. -/
theorem life_track (items : List Item) :
    (Tracker.track cfg items).life = Lib.Runs.run (Life.observe cfg) Life.new items := by
  induction items using List.reverseRecOn with
  | nil => rfl
  | append_singleton p x ih =>
      rw [Tracker.track_snoc, Lib.Runs.run_snoc, life_observe, ih]

end Lifecycle

end TcpVisr
