import TcpVisr.Isolation

/-!
Traffic is conserved.

However the segments of a pair are split into instances and however each instance is
oriented, every segment is counted once, and its payload once for the endpoint that sent it.
-/

namespace TcpVisr.Traffic

open Lib.Runs Recording Slots Plan Passes Lifecycle Index Steps Appending Ceiling Isolation

/-- The segments of pair `p`, in order. -/
def segmentsOf (p : EndpointPair) (items : List Item) : List Segment :=
  items.filterMap fun
    | .segment seg => if seg.pair = p then some seg else none
    | .tick _ => none

/-- The bytes booked for the endpoint `e`: those of the direction it sends in. -/
def bytesOf (e : Endpoint) (c : ConnTrack) : ℕ :=
  (if c.origin = e then c.bytesO2r else 0) + if c.responder = e then c.bytesR2o else 0

/-- The payload of a segment, if `e` sent it. -/
def payloadOf (e : Endpoint) (seg : Segment) : ℕ :=
  if seg.flow.source = e then seg.payloadLen.toNat else 0

variable {cfg : EngineConfig} {t : Tracker} {p : EndpointPair} {seg : Segment} {c : ConnTrack}
  {f : ConnTrack → ℕ} {w : Segment → ℕ}

/-! ### What one segment adds -/

lemma segments_accounted (c : ConnTrack) (seg : Segment) :
    (accounted c seg).segments = c.segments + 1 := by
  obtain ⟨_, _, _, _, _, _, _, h⟩ := accounted_frame c seg
  rw [h]

lemma segments_freshTrack (id : ConnId) (seg : Segment) : (freshTrack id seg).segments = 1 := by
  obtain ⟨_, _, _, _, _, _, h⟩ := freshTrack_frame id seg
  rw [h]

/-- `account` books the payload in the direction of the segment. -/
lemma bytesOf_account (e : Endpoint) (seg : Segment)
    (hs : seg.flow.source = c.origin ∨ seg.flow.source = c.responder) :
    bytesOf e (c.account seg (c.directionOf seg.flow.source)) = bytesOf e c + payloadOf e seg := by
  unfold bytesOf payloadOf ConnTrack.directionOf
  by_cases ho : seg.flow.source = c.origin
  · rw [if_pos ho, ho]
    by_cases h1 : c.origin = e <;> by_cases h2 : c.responder = e <;>
      simp only [ConnTrack.account, h1, h2, if_true, if_false]
    all_goals omega
  · have hr : seg.flow.source = c.responder := hs.resolve_left ho
    rw [if_neg ho, hr]
    by_cases h1 : c.origin = e <;> by_cases h2 : c.responder = e <;>
      simp only [ConnTrack.account, h1, h2, if_true, if_false]
    all_goals omega

lemma source_of_pair (h : EndpointPair.new c.origin c.responder = seg.pair) :
    seg.flow.source = c.origin ∨ seg.flow.source = c.responder := by
  rcases EndpointPair.endpoints_of_new_eq h with ⟨h1, -⟩ | ⟨-, h2⟩
  · exact Or.inl h1.symm
  · exact Or.inr h2.symm

lemma bytesOf_accounted (e : Endpoint) (h : EndpointPair.new c.origin c.responder = seg.pair) :
    bytesOf e (accounted c seg) = bytesOf e c + payloadOf e seg := by
  rw [← bytesOf_account e seg (source_of_pair h)]
  obtain ⟨_, _, _, heq⟩ := applyState_frame (c.account seg (c.directionOf seg.flow.source)) seg
    (c.directionOf seg.flow.source)
  rw [accounted, heq]
  rfl

lemma bytesOf_freshTrack (e : Endpoint) (id : ConnId) (seg : Segment) :
    bytesOf e (freshTrack id seg) = payloadOf e seg := by
  have h := bytesOf_account (c := blankTrack id seg) e seg (source_of_pair (pair_blankTrack id seg))
  have h0 : bytesOf e (blankTrack id seg) = 0 := by
    unfold bytesOf
    split_ifs <;> rfl
  rw [h0, Nat.zero_add] at h
  rw [← h]
  unfold freshTrack
  dsimp only
  split
  · cases (blankTrack id seg).directionOf seg.flow.source <;> rfl
  · rfl

/-! ### What a run adds up to -/

/-- A quantity of connections that a segment adds its weight to, whether it joins an instance
or opens one. -/
structure Booked (f : ConnTrack → ℕ) (w : Segment → ℕ) : Prop where
  core : ∀ c, f (core c) = f c
  join : ∀ c seg, EndpointPair.new c.origin c.responder = seg.pair →
    f (accounted c seg) = f c + w seg
  fresh : ∀ id seg, f (freshTrack id seg) = w seg

lemma booked_segments : Booked ConnTrack.segments fun _ => 1 :=
  ⟨fun _ => rfl, fun c seg _ => segments_accounted c seg, segments_freshTrack⟩

lemma booked_bytes (e : Endpoint) : Booked (bytesOf e) (payloadOf e) :=
  ⟨fun _ => rfl, fun _ _ h => bytesOf_accounted e h, bytesOf_freshTrack e⟩

/-- A segment adds its weight to the connections of its pair, once. -/
lemma sum_pairStep (hb : Booked f w) (id : ConnId) {cs : List ConnTrack}
    (hs : ∀ c ∈ cs, EndpointPair.new c.origin c.responder = seg.pair) :
    ((pairStep cfg id cs seg).map f).sum = (cs.map f).sum + w seg := by
  unfold pairStep
  split
  · have hf : f (founded cfg seg (freshTrack id seg)) = w seg := by
      rw [← hb.core, core_founded, hb.core, hb.fresh]
    rw [List.map_append, List.sum_append, List.map_singleton, List.sum_singleton, hf]
  · next ho =>
      rcases List.eq_nil_or_concat cs with rfl | ⟨cs, c, rfl⟩
      · simp [opens] at ho
      · have hf : f (joined cfg seg c) = f c + w seg := by
          rw [← hb.core, core_joined, hb.join (core c) seg (hs c (by simp)), hb.core]
        simp only [List.concat_eq_append, List.dropLast_concat, List.getLast?_concat,
          Option.toList_some, List.map_append, List.sum_append, List.map_singleton,
          List.sum_singleton, hf]
        omega

/-- The endpoints of the connections of a replay are those of their pair. -/
lemma pair_of_replay (hw : cfg.retention.window = none) {items : List Item}
    (hc : c ∈ connsOf p (replay cfg items).conns) :
    EndpointPair.new c.origin c.responder = p := by
  obtain ⟨hc, hp⟩ := List.mem_filter.mp hc
  have hmem : core c ∈ (Tracker.track cfg items).life.conns := by
    rw [← life_replay hw]
    exact List.mem_map_of_mem hc
  obtain ⟨d, hd, hcore⟩ := List.mem_map.mp hmem
  have h := (sound_track cfg items d hd).pair
  rw [← eq_of_core ConnTrack.origin hcore.symm, ← eq_of_core ConnTrack.responder hcore.symm,
    ← eq_of_core (fun c => c.id.pair) hcore.symm] at h
  rw [h]
  simpa using hp

/-- **The bookkeeping rule.** What is booked on the instances of a pair adds up to the weights
of its segments. -/
theorem sum_replay (hw : cfg.retention.window = none) (hb : Booked f w) (p : EndpointPair)
    (items : List Item) :
    ((connsOf p (replay cfg items).conns).map f).sum = ((segmentsOf p items).map w).sum := by
  induction items using List.reverseRecOn with
  | nil => rfl
  | append_singleton xs x ih =>
      have hi := indexed_replay hw xs
      rw [replay_snoc, conns_replayed, segmentsOf, List.filterMap_append, List.map_append,
        List.sum_append]
      cases x with
      | segment seg =>
          by_cases hp : seg.pair = p
          · subst hp
            rw [connsOf_appended hi, sum_pairStep hb _ fun c hc => pair_of_replay hw hc, ih]
            simp [segmentsOf]
          · rw [connsOf_appended_ne hi hp, ih]
            simp [segmentsOf, hp]
      | tick at_ =>
          rw [appended_tick hw, ih]
          simp [segmentsOf]

lemma sum_track (hw : cfg.retention.window = none) (hb : Booked f w) (p : EndpointPair)
    (items : List Item) :
    ((connsOf p (Tracker.track cfg items).conns).map f).sum =
      ((segmentsOf p items).map w).sum := by
  have hcore : ∀ t : Tracker, (connsOf p t.conns).map f = (connsOf p t.life.conns).map f := by
    intro t
    rw [connsOf, connsOf, Tracker.life, List.filter_map, List.map_map]
    exact List.map_congr_left fun c _ => (hb.core c).symm
  rw [hcore, ← life_replay hw, ← hcore, sum_replay hw hb]

lemma sum_filter {α : Type} (l : List α) (P : α → Bool) (g : α → ℕ) :
    ((l.filter P).map g).sum = (l.map fun a => if P a then g a else 0).sum := by
  induction l with
  | nil => rfl
  | cons a l ih => cases h : P a <;> simp [h, ih]

/-- **Conservation.** Over the instances of a pair, the segment counts add up to the segments of
the pair, and the bytes booked for an endpoint to the payload it sent. -/
theorem traffic_conserved {m : ℕ} (hr : cfg.retention = .failFast m) (items : List Item)
    (p : EndpointPair) :
    let cs := connsOf p (Tracker.track cfg items).conns
    (cs.map ConnTrack.segments).sum = (segmentsOf p items).length ∧
      ∀ e, ((cs.filter fun c => c.origin = e).map ConnTrack.bytesO2r).sum +
          ((cs.filter fun c => c.responder = e).map ConnTrack.bytesR2o).sum =
        (((segmentsOf p items).filter fun seg => seg.flow.source = e).map
          fun seg => seg.payloadLen.toNat).sum := by
  have hw : cfg.retention.window = none := by rw [hr]; rfl
  intro cs
  constructor
  · rw [sum_track hw booked_segments]
    simp
  · intro e
    have h := sum_track hw (booked_bytes e) p items
    rw [sum_filter, sum_filter, sum_filter, ← List.sum_map_add]
    simp only [decide_eq_true_eq]
    exact h

/-- A handshake with data, a reset to a fresh sequence number, and data the other way. -/
def resumed : List Item :=
  [.segment (.between 1 2 0 TcpFlags.SYN 0x60000000),
    .segment (.between 2 1 10 (TcpFlags.SYN ||| TcpFlags.ACK) 500 0 0x60000001),
    .segment (.between 1 2 20 TcpFlags.ACK 0x60000001 30 501),
    .segment (.between 1 2 30 TcpFlags.ACK 7 40 501),
    .segment (.between 2 1 40 TcpFlags.ACK 501 50 47)]

theorem traffic_conserved_resumed :
    let cs := connsOf ⟨⟨.v4 1, 80⟩, ⟨.v4 2, 80⟩⟩ (Tracker.track fullConfig resumed).conns
    cs.length = 2 ∧ (cs.map ConnTrack.segments).sum = 5 ∧
      ((cs.filter fun c => c.origin = ⟨.v4 1, 80⟩).map ConnTrack.bytesO2r).sum +
        ((cs.filter fun c => c.responder = ⟨.v4 1, 80⟩).map ConnTrack.bytesR2o).sum = 70 := by
  have h := traffic_conserved (show fullConfig.retention = .failFast 10000000 from rfl) resumed
    ⟨⟨.v4 1, 80⟩, ⟨.v4 2, 80⟩⟩
  exact ⟨by decide +kernel, h.1.trans (by decide +kernel),
    (h.2 ⟨.v4 1, 80⟩).trans (by decide +kernel)⟩

/-! ### The whole capture -/

/-- The segments of a run, in order. -/
def allSegments (items : List Item) : List Segment :=
  items.filterMap fun
    | .segment seg => some seg
    | .tick _ => none

/-- The weight a connection gains, the total gains. -/
lemma sum_modify {f : ConnTrack → ℕ} {g : ConnTrack → ConnTrack} {n : ℕ}
    (hg : ∀ c, f (g c) = f c + n) {cs : List ConnTrack} {i : ℕ} (hi : i < cs.length) :
    ((cs.modify i g).map f).sum = (cs.map f).sum + n := by
  induction cs generalizing i with
  | nil => simp at hi
  | cons c cs ih =>
      cases i with
      | zero =>
          rw [List.modify_zero_cons, List.map_cons, List.sum_cons, hg, List.map_cons,
            List.sum_cons]
          omega
      | succ i =>
          rw [List.modify_succ_cons, List.map_cons, List.sum_cons,
            ih (Nat.lt_of_succ_lt_succ hi), List.map_cons, List.sum_cons, Nat.add_assoc]

/-- **Every segment is counted once.** Without a retention window the segment counts of all
connections add up to the segments of the run. -/
theorem sum_segments {cfg : EngineConfig} (hw : cfg.retention.window = none) (items : List Item) :
    ((Tracker.track cfg items).conns.map ConnTrack.segments).sum = (allSegments items).length := by
  have hcore : (Tracker.track cfg items).conns.map ConnTrack.segments =
      (Tracker.track cfg items).life.conns.map ConnTrack.segments := by
    change _ = ((Tracker.track cfg items).conns.map core).map ConnTrack.segments
    rw [List.map_map]
    rfl
  rw [hcore, life_track]
  clear hcore
  induction items using List.reverseRecOn with
  | nil => rfl
  | append_singleton p x ih =>
      rw [run_snoc, allSegments, List.filterMap_append, List.length_append, ← allSegments, ← ih]
      generalize run (Life.observe cfg) Life.new p = l
      cases x with
      | segment seg =>
          cases hj : l.joins cfg seg with
          | some i =>
              obtain ⟨-, c, hc, -⟩ := joins_some hj
              obtain ⟨hi, -⟩ := List.getElem?_eq_some_iff.mp hc
              rw [Life.observe_join hj]
              exact sum_modify (fun c => segments_accounted c seg) hi
          | none =>
              rw [Life.observe_open hj, List.map_append, List.sum_append]
              exact congrArg _ (segments_freshTrack _ _)
      | tick at_ =>
          rw [Life.observe_tick_failFast hw]
          rfl

end TcpVisr.Traffic
