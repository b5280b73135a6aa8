import TcpVisr.Steps

/-!
Recording below the ceiling.

As long as everything fits, admission has no say: a segment appends its plan to the connection
it belongs to, and a tick appends the decay samples of every connection. What is appended
depends on neither the retention policy nor the series retained so far.
-/

namespace TcpVisr.Appending

open Recording Slots Plan Passes Lifecycle Index Steps

/-- The connection with a plan carried out: what is derived, and the samples appended. -/
def append (c : ConnTrack) (p : Derivation × List Sample) : ConnTrack :=
  { c with derived := p.1, kept := pushAll c.kept p.2 }

/-- The connection a segment has joined. -/
def joined (cfg : EngineConfig) (seg : Segment) (c : ConnTrack) : ConnTrack :=
  append (accounted c seg) (joinPlan cfg c seg)

/-- The instance a segment has opened. -/
def founded (cfg : EngineConfig) (seg : Segment) (c : ConnTrack) : ConnTrack :=
  append c (foundPlan cfg c seg)

/-- The connection a tick has reached. -/
def ticked (cfg : EngineConfig) (now : Nanos) (c : ConnTrack) : ConnTrack :=
  append c (c.derived, decayPlan cfg now c)

/-- The connections once an item is recorded in full. -/
def appended (cfg : EngineConfig) (t : Tracker) : Item → List ConnTrack
  | .segment seg =>
    match t.joins cfg seg with
    | some i => t.conns.modify i (joined cfg seg)
    | none => t.conns ++ [founded cfg seg (freshTrack (t.nextId seg.pair) seg)]
  | .tick at_ =>
    if cfg.retention.window.isNone then t.conns else t.conns.map (ticked cfg (max t.now at_))

variable {cfg : EngineConfig} {s : Slot} {t : Tracker} {seg : Segment}

@[simp] lemma count_pushAll (k : Retained) (xs : List Sample) :
    (pushAll k xs).count = k.count + xs.length := by
  induction xs generalizing k with
  | nil => rfl
  | cons x xs ih =>
      rw [pushAll_cons, ih, count_push, List.length_cons]
      omega

@[simp] lemma append_kept (c : ConnTrack) (p : Derivation × List Sample) :
    (append c p).kept = pushAll c.kept p.2 := rfl

/-! ### One connection -/

lemma join_of_fits (ho : s.overflowed = false)
    (hn : s.collectedSamples + (joinPlan cfg s.track seg).2.length ≤ cfg.retention.maxSamples) :
    s.join cfg seg = ⟨joined cfg seg s.track,
      s.collectedSamples + (joinPlan cfg s.track seg).2.length, false⟩ := by
  have hr := recordAll_of_fits (s := { s with track := accounted s.track seg }) ho hn
  rw [join_eq (Or.inr (by rw [hr]; exact ho)), recordAll_rederive, hr]
  simp [rederive, retrack, put, joined, append, ho]

lemma found_of_fits (ho : s.overflowed = false)
    (hn : s.collectedSamples + (foundPlan cfg s.track seg).2.length ≤ cfg.retention.maxSamples) :
    s.found cfg seg =
      ⟨founded cfg seg s.track, s.collectedSamples + (foundPlan cfg s.track seg).2.length,
        false⟩ := by
  have hr := recordAll_of_fits (s := s) ho hn
  rw [found_eq ho (Or.inr (by rw [hr]; exact ho)), recordAll_rederive, hr]
  simp [rederive, retrack, put, founded, append, ho]

lemma decay_of_fits {now : Nanos} (ho : s.overflowed = false)
    (hn : s.collectedSamples + (decayPlan cfg now s.track).length ≤ cfg.retention.maxSamples) :
    s.decay cfg now =
      ⟨ticked cfg now s.track, s.collectedSamples + (decayPlan cfg now s.track).length, false⟩ := by
  rw [decay_eq, recordAll_of_fits ho hn]
  simp [put, ticked, append, ho]

/-- Under eviction a segment that does not fit ends at the ceiling or above. -/
lemma le_collected_join (hw : cfg.retention.window.isSome) (ho : s.overflowed = false)
    (seg : Segment) :
    min cfg.retention.maxSamples
        (s.collectedSamples + (joinPlan cfg s.track seg).2.length) ≤
      (s.join cfg seg).collectedSamples := by
  rw [join_eq (Or.inl (((recorded_join cfg s seg).evict hw).trans ho)), recordAll_rederive]
  exact le_collected_recordAll (s := { s with track := accounted s.track seg }) _ ho

lemma le_collected_found (hw : cfg.retention.window.isSome) (ho : s.overflowed = false)
    (seg : Segment) :
    min cfg.retention.maxSamples
        (s.collectedSamples + (foundPlan cfg s.track seg).2.length) ≤
      (s.found cfg seg).collectedSamples := by
  rw [found_eq ho (Or.inl (((recorded_found cfg s seg).evict hw).trans ho)), recordAll_rederive]
  exact le_collected_recordAll _ ho

/-! ### All connections -/

lemma retained_modify {cs : List ConnTrack} {i : ℕ} {c : ConnTrack} (hc : cs[i]? = some c)
    (f : ConnTrack → ConnTrack) :
    retained (cs.modify i f) + c.kept.count = retained cs + (f c).kept.count := by
  rw [List.modify_eq_set_getElem?, hc]
  exact retained_set hc (f c)

lemma count_ticked (cfg : EngineConfig) (now : Nanos) (c : ConnTrack) :
    (ticked cfg now c).kept.count = c.kept.count + (decayPlan cfg now c).length :=
  count_pushAll _ _

lemma retained_le_ticked (cfg : EngineConfig) (now : Nanos) (cs : List ConnTrack) :
    retained cs ≤ retained (cs.map (ticked cfg now)) := by
  induction cs with
  | nil => simp
  | cons c cs ih =>
      rw [List.map_cons, retained_cons, retained_cons, count_ticked]
      omega

lemma eachSlot_of_fits (now : Nanos) (cs : List ConnTrack) (n : ℕ)
    (hn : n + retained (cs.map (ticked cfg now)) ≤ cfg.retention.maxSamples + retained cs) :
    Tracker.eachSlot (Slot.decay cfg now) cs n false =
      (cs.map (ticked cfg now), n + retained (cs.map (ticked cfg now)) - retained cs, false) := by
  induction cs generalizing n with
  | nil => simp [Tracker.eachSlot]
  | cons c cs ih =>
      have hle := retained_le_ticked cfg now cs
      have hk := count_ticked cfg now c
      simp only [List.map_cons, retained_cons] at hn ⊢
      rw [Tracker.eachSlot, decay_of_fits (s := ⟨c, n, false⟩) rfl (by dsimp only; omega)]
      dsimp only
      rw [ih _ (by omega)]
      simp only [Prod.mk.injEq, true_and, and_true]
      omega

/-- Under eviction decay samples that do not fit end at the ceiling or above. -/
lemma le_eachSlot_decay (hw : cfg.retention.window.isSome) (now : Nanos) (cs : List ConnTrack)
    (n : ℕ) :
    min cfg.retention.maxSamples (n + retained (cs.map (ticked cfg now)) - retained cs) ≤
      (Tracker.eachSlot (Slot.decay cfg now) cs n false).2.1 := by
  induction cs generalizing n with
  | nil => simp [Tracker.eachSlot]
  | cons c cs ih =>
      have hle := retained_le_ticked cfg now cs
      have hk := count_ticked cfg now c
      obtain ⟨s', hs'⟩ : ∃ s', Slot.decay cfg now ⟨c, n, false⟩ = s' := ⟨_, rfl⟩
      have ho : s'.overflowed = false := hs' ▸ (recorded_decay cfg now ⟨c, n, false⟩).evict hw
      have h1 : min cfg.retention.maxSamples (n + (decayPlan cfg now c).length) ≤
          s'.collectedSamples := by
        rw [← hs', decay_eq]
        exact le_collected_recordAll (s := ⟨c, n, false⟩) _ rfl
      have h2 := ih s'.collectedSamples
      rw [Tracker.eachSlot, hs', List.map_cons, retained_cons, retained_cons]
      dsimp only
      rw [ho]
      exact le_trans (by omega) h2

/-! ### One step -/

lemma retained_appended_join {i : ℕ} {c : ConnTrack} (hj : t.joins cfg seg = some i)
    (hc : t.conns[i]? = some c) :
    retained (appended cfg t (.segment seg)) =
      retained t.conns + (joinPlan cfg c seg).2.length := by
  have h := retained_modify hc (joined cfg seg)
  simp only [joined, append_kept, accounted_kept, count_pushAll] at h
  simp only [appended, hj]
  omega

lemma retained_appended_create (hj : t.joins cfg seg = none) :
    retained (appended cfg t (.segment seg)) = retained t.conns +
      (foundPlan cfg (freshTrack (t.nextId seg.pair) seg) seg).2.length := by
  have h0 : (({} : Retained)).count = 0 := rfl
  simp [appended, hj, founded, h0]

/-- **Below the ceiling, a step appends.** When everything an item asks for fits, the first
half of the step records it in full. -/
theorem recording_of_fits (hb : t.collectedSamples = retained t.conns)
    (ho : t.overflowed = false) {x : Item}
    (hn : retained (appended cfg t x) ≤ cfg.retention.maxSamples) :
    (recording cfg t x).conns = appended cfg t x ∧ (recording cfg t x).overflowed = false := by
  cases x with
  | segment seg =>
      cases hj : t.joins cfg seg with
      | some i =>
          obtain ⟨c, hc⟩ := joins_conns hj
          rw [retained_appended_join hj hc] at hn
          rw [recording_join hj hc, join_of_fits (s := t.slot c) ho (by
            simp only [Tracker.slot]; omega)]
          refine ⟨?_, rfl⟩
          simp only [appended, hj, List.modify_eq_set_getElem?, hc]
          rfl
      | none =>
          rw [retained_appended_create hj] at hn
          rw [recording_create hj, found_of_fits
            (s := t.slot (freshTrack (t.nextId seg.pair) seg)) ho (by
              simp only [Tracker.slot]; omega)]
          refine ⟨?_, rfl⟩
          simp only [appended, hj]
          rfl
  | tick at_ =>
      cases hw : cfg.retention.window with
      | none => simp [recording, appended, hw, ho]
      | some w =>
          simp only [appended, hw, Option.isNone_some, Bool.false_eq_true, if_false] at hn ⊢
          rw [recording_tick (by simp [hw])]
          have hfit : t.collectedSamples + retained (t.conns.map (ticked cfg (max t.now at_))) ≤
              cfg.retention.maxSamples + retained t.conns := by omega
          have h := eachSlot_of_fits (max t.now at_) t.conns t.collectedSamples hfit
          simp only [decayed, ho, h, Bool.false_eq_true, if_false, and_self]

/-- Under eviction, everything fits when the first half of the step ends below the ceiling. -/
theorem fits_of_room (hw : cfg.retention.window.isSome) (h : Counted cfg t) {x : Item}
    (hr : (recording cfg t x).collectedSamples < cfg.retention.maxSamples) :
    retained (appended cfg t x) ≤ cfg.retention.maxSamples := by
  have hb := h.balance
  have ho := h.evict hw
  cases x with
  | segment seg =>
      cases hj : t.joins cfg seg with
      | some i =>
          obtain ⟨c, hc⟩ := joins_conns hj
          have hle := le_collected_join (s := t.slot c) hw ho seg
          rw [recording_join hj hc] at hr
          rw [retained_appended_join hj hc]
          simp only [Tracker.slot] at hle hr
          omega
      | none =>
          have hle := le_collected_found (s := t.slot (freshTrack (t.nextId seg.pair) seg))
            hw ho seg
          rw [recording_create hj] at hr
          rw [retained_appended_create hj]
          simp only [Tracker.slot] at hle hr
          omega
  | tick at_ =>
      have hw' : cfg.retention.window.isNone = false := by
        rw [← Option.not_isSome, hw]
        rfl
      have hle := le_eachSlot_decay hw (max t.now at_) t.conns t.collectedSamples
      rw [recording_tick hw] at hr
      simp only [decayed, ho, Bool.false_eq_true, if_false] at hr
      simp only [appended, hw', Bool.false_eq_true, if_false]
      omega

end TcpVisr.Appending
