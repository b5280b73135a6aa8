import TcpVisr.Kept

/-!
The memory backstop.

At the ceiling a connection pays for a sample with one of its own, and all it cannot pay with
is its last snapshot. The total stays at the ceiling as long as no connection has to record
there that has nothing else.
-/

namespace TcpVisr.Backstop

open Lib.Runs Recording Slots Plan Passes Lifecycle Index Steps Kept

/-- A connection that is asked to record `xs` with `n` samples collected overall can: it is
asked for nothing, there is room, or it has a sample to spare. -/
def Pays (cfg : EngineConfig) (n : ℕ) (xs : List Sample) (k : Retained) : Prop :=
  xs = [] ∨ n < cfg.retention.maxSamples ∨ 0 < spare k

/-- Each connection in turn can record its decay samples. -/
def AllPay (cfg : EngineConfig) (now : Nanos) : ℕ → List ConnTrack → Prop
  | _, [] => True
  | n, c :: cs => Pays cfg n (decayPlan cfg now c) c.kept ∧
      AllPay cfg now (min cfg.retention.maxSamples (n + (decayPlan cfg now c).length)) cs

/-- What a segment asks its connection to record, and what the connection retains. -/
def asked (cfg : EngineConfig) (t : Tracker) (seg : Segment) : List Sample × Retained :=
  match target cfg t seg with
  | some c => ((joinPlan cfg c seg).2, c.kept)
  | none => ((foundPlan cfg (freshTrack (t.nextId seg.pair) seg) seg).2, {})

/-- Whoever an item asks to record can. -/
def Affords (cfg : EngineConfig) (t : Tracker) : Item → Prop
  | .segment seg => Pays cfg t.collectedSamples (asked cfg t seg).1 (asked cfg t seg).2
  | .tick at_ => AllPay cfg (max t.now at_) t.collectedSamples t.conns

instance (cfg : EngineConfig) (n : ℕ) (xs : List Sample) (k : Retained) :
    Decidable (Pays cfg n xs k) :=
  inferInstanceAs (Decidable (_ ∨ _))

instance (cfg : EngineConfig) (now : Nanos) : ∀ n cs, Decidable (AllPay cfg now n cs)
  | _, [] => inferInstanceAs (Decidable True)
  | n, c :: cs =>
    have := instDecidableAllPay cfg now
      (min cfg.retention.maxSamples (n + (decayPlan cfg now c).length)) cs
    inferInstanceAs (Decidable (_ ∧ _))

instance (cfg : EngineConfig) (t : Tracker) : ∀ x, Decidable (Affords cfg t x)
  | .segment _ => inferInstanceAs (Decidable (Pays _ _ _ _))
  | .tick _ => inferInstanceAs (Decidable (AllPay _ _ _ _))

variable {cfg : EngineConfig} {s : Slot} {t : Tracker} {seg : Segment}

/-! ### One connection -/

/-- A sample that is paid for leaves the total at the ceiling at most. -/
lemma collected_store (hw : cfg.retention.window.isSome) (hm : 0 < cfg.retention.maxSamples)
    (hn : s.collectedSamples ≤ cfg.retention.maxSamples)
    (hp : s.collectedSamples < cfg.retention.maxSamples ∨ 0 < spare s.track.kept) (x : Sample) :
    (s.store cfg x).collectedSamples =
      min cfg.retention.maxSamples (s.collectedSamples + 1) := by
  have h := store_cases cfg s x
  generalize s.store cfg x = s' at h
  cases h with
  | room hn' => rw [put_collected]; omega
  | swap => rw [put_collected]; omega
  | spill hn' _ hs => omega
  | refuse _ hw' => simp [hw'] at hw

/-- A recorded sample leaves one to pay with, unless it is a first snapshot. -/
lemma spare_store_pos (hw : cfg.retention.window.isSome) {x : Sample}
    (hx : isState x = true → s.track.kept.states ≠ []) :
    0 < spare (s.store cfg x).track.kept := by
  have hx' : ∀ k : Retained, (s.track.kept.states ≠ [] → k.states ≠ []) →
      ∀ y, x = .state y → k.states ≠ [] := fun k hk y hy => hk (hx (by rw [hy]; rfl))
  have h := store_cases cfg s x
  generalize s.store cfg x = s' at h
  cases h with
  | room => rw [put_kept, spare_push _ _ (hx' _ id)]; omega
  | @swap k _ _ hd _ _ =>
      rw [put_kept, spare_push _ _ (hx' k (ne_nil_of_drops hd))]
      omega
  | spill => rw [put_kept, spare_push _ _ (hx' _ id)]; omega
  | refuse _ hw' => simp [hw'] at hw

/-- Samples that are paid for: the total stops at the ceiling. -/
lemma recordAll_paid (xs : List Sample) (hw : cfg.retention.window.isSome)
    (hm : 0 < cfg.retention.maxSamples) (ho : s.overflowed = false)
    (hn : s.collectedSamples ≤ cfg.retention.maxSamples)
    (hx : ∀ x ∈ xs, isState x = true → s.track.kept.states ≠ [])
    (hp : Pays cfg s.collectedSamples xs s.track.kept) :
    (recordAll cfg xs s).collectedSamples =
        min cfg.retention.maxSamples (s.collectedSamples + xs.length) ∧
      (xs ≠ [] → 0 < spare (recordAll cfg xs s).track.kept) := by
  induction xs generalizing s with
  | nil => exact ⟨by simpa using hn, by simp⟩
  | cons x xs ih =>
      have hr : s.record cfg x = s.store cfg x := by simp [Slot.record, ho]
      have hc := collected_store hw hm hn (hp.resolve_left (by simp)) x
      have hpos := spare_store_pos (s := s) hw (hx x (by simp))
      have hrec := recorded_store cfg (P := fun _ => True) (x := x) trivial s
      rw [recordAll_cons, hr]
      generalize s.store cfg x = s' at hc hpos hrec ⊢
      have ih' := ih ((hrec.evict hw).trans ho) (by omega)
        (fun y hy hs => ne_nil_of_grows hrec.grows (hx y (by simp [hy]) hs)) (Or.inr (Or.inr hpos))
      refine ⟨?_, fun _ => ?_⟩
      · rw [ih'.1, List.length_cons]
        omega
      · by_cases hnil : xs = []
        · rw [hnil]
          exact hpos
        · exact ih'.2 hnil

lemma isState_of_mem_joinPlan {c : ConnTrack} {x : Sample} (hx : x ∈ (joinPlan cfg c seg).2)
    (hs : isState x = true) : cfg.collectStateTimeline = true := by
  rcases List.mem_append.mp hx with hx | hx
  · unfold statePlan at hx
    split at hx
    · assumption
    · simp at hx
  · rw [(detail_derivePlan x hx).2] at hs
    simp at hs

lemma collected_join (hw : cfg.retention.window.isSome) (hm : 0 < cfg.retention.maxSamples)
    (ho : s.overflowed = false) (hn : s.collectedSamples ≤ cfg.retention.maxSamples)
    (hs : cfg.collectStateTimeline = true → s.track.kept.states ≠ [])
    (hp : Pays cfg s.collectedSamples (joinPlan cfg s.track seg).2 s.track.kept) :
    (s.join cfg seg).collectedSamples ≤ cfg.retention.maxSamples := by
  rw [join_eq (Or.inl (((recorded_join cfg s seg).evict hw).trans ho)), recordAll_rederive,
    rederive_collected]
  have h := recordAll_paid (s := { s with track := accounted s.track seg })
    (joinPlan cfg s.track seg).2 hw hm ho hn
    (fun x hx hst => by
      rw [accounted_kept]
      exact hs (isState_of_mem_joinPlan hx hst))
    (by rw [accounted_kept]; exact hp)
  rw [h.1]
  exact min_le_left _ _

/-- A new instance pays with what its first segment has derived, or there is room. -/
lemma collected_found (hw : cfg.retention.window.isSome) (hm : 0 < cfg.retention.maxSamples)
    (ho : s.overflowed = false) (hn : s.collectedSamples ≤ cfg.retention.maxSamples)
    (hp : Pays cfg s.collectedSamples (foundPlan cfg s.track seg).2 {}) :
    (s.found cfg seg).collectedSamples ≤ cfg.retention.maxSamples := by
  rw [found_eq ho (Or.inl (((recorded_found cfg s seg).evict hw).trans ho)), recordAll_rederive,
    rederive_collected]
  have h0 : spare ({} : Retained) = 0 := rfl
  obtain ⟨xs, hxs⟩ : ∃ xs, (derivePlan cfg s.track.id s.track.derived seg
    (s.track.directionOf seg.flow.source)).2 = xs := ⟨_, rfl⟩
  have hdetail : ∀ x ∈ xs, isState x = false := fun x hx => (detail_derivePlan x (hxs ▸ hx)).2
  simp only [foundPlan, hxs, Pays, h0] at hp ⊢
  rw [recordAll_append]
  have h := recordAll_paid xs hw hm ho hn
    (fun x hx hst => by rw [hdetail x hx] at hst; simp at hst) ?_
  · have ho' := ((recorded_any cfg xs s).evict hw).trans ho
    generalize recordAll cfg xs s = s' at h ho' ⊢
    unfold statePlan at hp ⊢
    split
    · next hc =>
        rw [recordAll_cons, recordAll_nil, Slot.record, if_neg (by simp [ho']),
          collected_store hw hm (by omega) ?_]
        · exact min_le_left _ _
        · by_cases hnil : xs = []
          · subst hnil
            simp only [hc, List.length_nil] at hp h
            simp at hp
            omega
          · exact Or.inr (h.2 hnil)
    · rw [recordAll_nil]
      omega
  · rcases hp with hp | hp | hp
    · exact Or.inl (List.append_eq_nil_iff.mp hp).1
    · exact Or.inr (Or.inl hp)
    · omega

/-! ### One step -/

lemma collected_eachSlot_decay (hw : cfg.retention.window.isSome)
    (hm : 0 < cfg.retention.maxSamples) {now : Nanos} (cs : List ConnTrack) (n : ℕ)
    (hn : n ≤ cfg.retention.maxSamples) (hp : AllPay cfg now n cs) :
    (Tracker.eachSlot (Slot.decay cfg now) cs n false).2.1 ≤ cfg.retention.maxSamples := by
  induction cs generalizing n with
  | nil => simpa [Tracker.eachSlot] using hn
  | cons c cs ih =>
      obtain ⟨hc, hcs⟩ := hp
      have h := (recordAll_paid (s := ⟨c, n, false⟩) _ hw hm rfl hn
        (fun x hx hst => by rw [(detail_decayPlan x hx).2] at hst; simp at hst) hc).1
      have ho := (recorded_decay cfg now ⟨c, n, false⟩).evict hw
      rw [← decay_eq now ⟨c, n, false⟩] at h
      rw [Tracker.eachSlot]
      dsimp only at h ho ⊢
      rw [ho, h]
      exact ih _ (min_le_left _ _) hcs

lemma retained_filter_le (p : ConnTrack → Bool) (cs : List ConnTrack) :
    retained (cs.filter p) ≤ retained cs :=
  (List.filter_sublist.map _).sum_le_sum fun _ _ => Nat.zero_le _

/-- The eviction passes never retain more than was recorded. -/
lemma retained_observe_le (hn : Counted cfg t) (x : Item) :
    retained (t.observe cfg x).conns ≤ (recording cfg t x).collectedSamples := by
  have hb := balance_recording cfg hn.balance x
  have ha := retained_aged_le (horizonAt cfg (recording cfg t x).now) (recording cfg t x).conns
  cases x with
  | segment seg =>
      rw [observe_segment_eq hn.balance, hb]
      exact ha
  | tick at_ =>
      cases hw : cfg.retention.window with
      | none =>
          rw [observe_tick_failFast hw, ← hn.balance]
          simp [recording, hw]
      | some w =>
          rw [observe_tick_eq hn.balance (by simp [hw]), conns_evictDeadConnections hw, hb]
          exact (retained_filter_le _ _).trans ha

/-- A step on which whoever has to record can ends at the ceiling at most. -/
lemma collected_recording (hw : cfg.retention.window.isSome) (hm : 0 < cfg.retention.maxSamples)
    (hn : Counted cfg t) (hle : t.collectedSamples ≤ cfg.retention.maxSamples)
    (hs : cfg.collectStateTimeline = true → ∀ c ∈ t.conns, c.kept.states ≠ []) {x : Item}
    (ha : Affords cfg t x) :
    (recording cfg t x).collectedSamples ≤ cfg.retention.maxSamples := by
  have ho := hn.evict hw
  cases x with
  | segment seg =>
      cases hj : t.joins cfg seg with
      | some i =>
          obtain ⟨c, hc⟩ := joins_conns hj
          simp only [Affords, asked, target_of_joins hj hc] at ha
          rw [recording_join hj hc]
          exact collected_join (s := t.slot c) hw hm ho hle
            (fun hcs => hs hcs c (List.mem_of_getElem? hc)) ha
      | none =>
          simp only [Affords, asked, target, hj, Option.bind_none] at ha
          rw [recording_create hj]
          exact collected_found (s := t.slot _) hw hm ho hle ha
  | tick at_ =>
      rw [recording_tick hw]
      simp only [decayed, ho, Bool.false_eq_true, if_false]
      exact collected_eachSlot_decay hw hm _ _ hle ha

/-! ### Runs -/

/-- **The backstop holds** in every run in which nobody has to record at the ceiling without a
sample to spare. -/
theorem backstop_holds (hw : cfg.retention.window.isSome) (hm : 1 ≤ cfg.retention.maxSamples)
    {items : List Item} (ha : Steps (Tracker.observe cfg) Tracker.new (Affords cfg) items) :
    Always (Tracker.observe cfg) Tracker.new
      (fun t => retained t.conns ≤ cfg.retention.maxSamples) items := by
  intro p hp
  induction p using List.reverseRecOn with
  | nil => simp [Tracker.new]
  | append_singleton p x ih =>
      have hle := ih ((List.prefix_append p [x]).trans hp)
      have hx := ha p x hp
      rw [run_snoc]
      change retained (Tracker.track cfg p).conns ≤ _ at hle
      change Affords cfg (Tracker.track cfg p) x at hx
      change retained ((Tracker.track cfg p).observe cfg x).conns ≤ _
      have hn := counted_track cfg p
      rw [← hn.balance] at hle
      exact (retained_observe_le hn x).trans (collected_recording hw hm hn hle
        (fun hcs c hc => (keepsLatest_track hw p c hc).exist hcs) hx)

/-- Two samples at most, and a window that drops none of them. -/
def scarceConfig : EngineConfig where
  retention := .evict (Nanos.sat 1000) 2
  collectStateTimeline := true

/-- Three segments of one connection. -/
def chatty : List Item :=
  [.segment (.between 1 2 0 TcpFlags.ACK 100 10), .segment (.between 1 2 1 TcpFlags.ACK 110 10),
    .segment (.between 1 2 2 TcpFlags.ACK 120 10)]

/-- Two segments of one connection, then the first one of another. -/
def newcomer : List Item :=
  [.segment (.between 1 2 0 TcpFlags.ACK 100 10), .segment (.between 1 2 1 TcpFlags.ACK 110 10),
    .segment (.between 3 4 2 TcpFlags.SYN 500)]

theorem backstop_holds_chatty :
    Always (Tracker.observe scarceConfig) Tracker.new
      (fun t => retained t.conns ≤ scarceConfig.retention.maxSamples) chatty :=
  backstop_holds rfl (by decide) (by decide +kernel)

/-- The newcomer records at the ceiling, and has nothing to pay with. -/
theorem backstop_exceeded :
    ¬ ∀ cfg : EngineConfig, cfg.retention.window.isSome → 1 ≤ cfg.retention.maxSamples →
      ∀ items : List Item,
        Always (Tracker.observe cfg) Tracker.new
          (fun t => t.conns.length ≤ cfg.retention.maxSamples) items →
        Always (Tracker.observe cfg) Tracker.new
          (fun t => retained t.conns ≤ cfg.retention.maxSamples) items := by
  intro h
  have hall := h scarceConfig rfl (by decide) newcomer (by decide +kernel)
  have hle := hall newcomer List.prefix_rfl
  have hgt : ¬ retained (run (Tracker.observe scarceConfig) Tracker.new newcomer).conns ≤
      scarceConfig.retention.maxSamples := by
    decide +kernel
  exact hgt hle

end TcpVisr.Backstop
