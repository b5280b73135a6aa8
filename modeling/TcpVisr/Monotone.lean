import TcpVisr.History
import TcpVisr.Kept

/-!
Lifecycles only move forward.

While a connection stays tracked nothing it counts goes down, its rank does not fall, and who
it is between never changes. So the snapshots recorded for it only grow, whatever the flags
and the order of its segments, and however many of them are dropped again.
-/

namespace TcpVisr.Monotone

open Lib.Runs Recording Slots Plan Passes Lifecycle Index Steps Kept States History

/-- What never goes down, and never changes, from `c` to a later `c'`. -/
structure Forward (c c' : ConnTrack) : Prop where
  rank : c.state.rank ≤ c'.state.rank
  reset : c.state = .reset → c'.state = .reset
  bytesO2r : c.bytesO2r ≤ c'.bytesO2r
  bytesR2o : c.bytesR2o ≤ c'.bytesR2o
  segments : c.segments ≤ c'.segments
  lastAt : c.lastAt.ns ≤ c'.lastAt.ns
  id : c'.id = c.id
  origin : c'.origin = c.origin
  responder : c'.responder = c.responder
  originInferred : c'.originInferred = c.originInferred
  openedAt : c'.openedAt = c.openedAt

/-- A connection `id` is tracked after `p`, and after every item of `q` that follows. -/
def Tracked (cfg : EngineConfig) (p q : List Item) (id : ConnId) : Prop :=
  ∀ r, r <+: q → ∃ c ∈ (Tracker.track cfg (p ++ r)).conns, c.id = id

/-- The snapshots that items from `t` on record for `id`, in order. -/
def told (cfg : EngineConfig) (t : Tracker) (q : List Item) (id : ConnId) : List StateSample :=
  ((snapshots cfg t q).filter fun p => p.1 = id).map Prod.snd

variable {cfg : EngineConfig} {t : Tracker} {c c' c'' : ConnTrack} {seg : Segment} {s : Slot}
  {p q : List Item} {x : Item}

/-! ### One connection -/

lemma Forward.refl (c : ConnTrack) : Forward c c :=
  ⟨le_rfl, fun h => h, le_rfl, le_rfl, le_rfl, le_rfl, rfl, rfl, rfl, rfl, rfl⟩

lemma Forward.trans (h : Forward c c') (h' : Forward c' c'') : Forward c c'' where
  rank := h.rank.trans h'.rank
  reset hr := h'.reset (h.reset hr)
  bytesO2r := h.bytesO2r.trans h'.bytesO2r
  bytesR2o := h.bytesR2o.trans h'.bytesR2o
  segments := h.segments.trans h'.segments
  lastAt := h.lastAt.trans h'.lastAt
  id := h'.id.trans h.id
  origin := h'.origin.trans h.origin
  responder := h'.responder.trans h.responder
  originInferred := h'.originInferred.trans h.originInferred
  openedAt := h'.openedAt.trans h.openedAt

lemma Forward.of_core (h : Forward c c') (hd : core c'' = core c') : Forward c c'' := by
  have hf : Forward c (core c') := ⟨h.1, h.2, h.3, h.4, h.5, h.6, h.7, h.8, h.9, h.10, h.11⟩
  rw [← hd] at hf
  exact ⟨hf.1, hf.2, hf.3, hf.4, hf.5, hf.6, hf.7, hf.8, hf.9, hf.10, hf.11⟩

/-- A reset connection stays so, whatever comes. -/
lemma reset_accounted (h : c.state = .reset) (seg : Segment) :
    (accounted c seg).state = .reset := by
  rw [state_accounted, if_pos h, ite_self]

lemma forward_accounted (c : ConnTrack) (seg : Segment) : Forward c (accounted c seg) := by
  have hrank := rank_accounted c seg
  have hreset : c.state = .reset → (accounted c seg).state = .reset :=
    fun h => reset_accounted h seg
  obtain ⟨_, _, _, m, n, _, _, h⟩ := accounted_frame c seg
  rw [h] at hrank hreset ⊢
  exact ⟨hrank, hreset, Nat.le_add_right _ _, Nat.le_add_right _ _, Nat.le_succ _, by simp,
    rfl, rfl, rfl, rfl, rfl⟩

lemma Forward.noLess (h : Forward c c') (a b : Nanos) : NoLess (c.snapshot a) (c'.snapshot b) :=
  ⟨h.rank, h.bytesO2r, h.bytesR2o⟩

/-! ### The snapshots one item adds -/

lemma states_suffix {k k' : Retained} (hg : Grows (fun x => isState x = false) k k') :
    k'.states <:+ k.states := by
  refine hg.keeps (I := fun k' => k'.states <:+ k.states) List.suffix_rfl
    (fun _ _ h hd => hd.states.trans h) fun k' x h hx => ?_
  cases x with
  | state x => exact absurd hx (by simp [isState])
  | _ => exact h

/-- A snapshot goes to the back, if it is stored. -/
lemma states_noteState (cfg : EngineConfig) (s : Slot) (t : Nanos) :
    (s.noteState cfg t).track.kept.states.Sublist
      (s.track.kept.states ++ if cfg.collectStateTimeline then [s.track.snapshot t] else []) := by
  unfold Slot.noteState
  split
  · unfold Slot.recordState Slot.record
    split
    · exact List.sublist_append_left _ _
    · have h := store_cases cfg s (.state (s.track.snapshot t))
      generalize s.store cfg (.state (s.track.snapshot t)) = s' at h
      cases h with
      | room => exact List.Sublist.refl _
      | swap _ _ hd => exact hd.states.sublist.append_right _
      | spill => exact List.Sublist.refl _
      | refuse => exact List.sublist_append_left _ _
  · exact List.sublist_append_left _ _

lemma states_of_join (c : ConnTrack) (seg : Segment) :
    ((t.slot c).join cfg seg).track.kept.states.Sublist (c.kept.states ++
      if cfg.collectStateTimeline then [(accounted c seg).snapshot seg.ts] else []) := by
  have hnote := states_noteState cfg { t.slot c with track := accounted c seg } seg.ts
  have hderive := (recorded_derive cfg (({ t.slot c with track := accounted c seg } :
    Slot).noteState cfg seg.ts) seg (c.directionOf seg.flow.source)).grows
  rw [accounted_kept] at hnote
  exact (states_suffix (hderive.imp fun _ h => h.2)).sublist.trans hnote

lemma states_of_found (cfg : EngineConfig) (t : Tracker) (c : ConnTrack) (seg : Segment) :
    ((t.slot c).found cfg seg).track.kept.states.Sublist (c.kept.states ++
      if cfg.collectStateTimeline then [c.snapshot seg.ts] else []) := by
  have hderive := recorded_derive cfg (t.slot c) seg (c.directionOf seg.flow.source)
  have hnote := states_noteState cfg ((t.slot c).derive cfg seg
    (c.directionOf seg.flow.source)) seg.ts
  rw [eq_of_core (fun c => c.snapshot seg.ts) hderive.core] at hnote
  exact hnote.trans ((states_suffix (hderive.grows.imp fun _ h => h.2)).sublist.append_right _)

/-! ### What a connection retains -/

/-- The retained snapshots of a connection grow, up to what the connection is now. -/
structure Telling (c : ConnTrack) (l : List StateSample) : Prop where
  grows : l.Pairwise NoLess
  below : ∀ s ∈ l, ∀ a, NoLess s (c.snapshot a)

lemma Telling.sublist {l m : List StateSample} (h : Telling c l) (hs : m.Sublist l) :
    Telling c m :=
  ⟨h.grows.sublist hs, fun s hm => h.below s (hs.subset hm)⟩

lemma Telling.forward {l : List StateSample} (h : Telling c l) (hf : Forward c c') :
    Telling c' l :=
  ⟨h.grows, fun s hs a => (h.below s hs a).trans (hf.noLess a a)⟩

lemma Telling.snoc {l : List StateSample} (h : Telling c l) (a : Nanos) :
    Telling c (l ++ [c.snapshot a]) := by
  refine ⟨List.pairwise_append.mpr ⟨h.grows, by simp, fun s hs b hb => ?_⟩, fun s hs b => ?_⟩
  · rw [List.mem_singleton.mp hb]
    exact h.below s hs a
  · rcases List.mem_append.mp hs with hs | hs
    · exact h.below s hs b
    · rw [List.mem_singleton.mp hs]
      exact (Forward.refl c).noLess a b

/-! ### One item -/

lemma forward_of_stays (h : Stays cfg t x c c') : Forward c c' := by
  cases h with
  | same hd _ _ => exact (Forward.refl c).of_core hd
  | @joined seg _ _ =>
      exact (forward_accounted c seg).of_core (recorded_join cfg (t.slot c) seg).core

lemma told_join (h : attributed cfg t seg = accounted c seg) :
    told cfg t [.segment seg] c.id =
      if cfg.collectStateTimeline then [(accounted c seg).snapshot seg.ts] else [] := by
  cases hs : cfg.collectStateTimeline <;> simp [told, snapshots, snapshotOf, hs, h]

lemma told_other {id : ConnId} (h : ∀ seg, x = .segment seg → (attributed cfg t seg).id ≠ id) :
    told cfg t [x] id = [] := by
  cases x with
  | tick at_ => rfl
  | segment seg =>
      have := h seg rfl
      cases hs : cfg.collectStateTimeline <;> simp [told, snapshots, snapshotOf, hs, this]

/-- What an item records for a connection is what it then is. -/
lemma Telling.stays {l : List StateSample} (h : Telling c l) (hs : Stays cfg t x c c') :
    Telling c' (l ++ told cfg t [x] c.id) := by
  have hf := forward_of_stays hs
  cases hs with
  | same _ _ hx =>
      rw [told_other hx, List.append_nil]
      exact h.forward hf
  | @joined seg _ ht =>
      rw [told_join ht]
      split
      · have hsnap : ((t.slot c).join cfg seg).track.snapshot seg.ts =
            (accounted c seg).snapshot seg.ts :=
          eq_of_core (fun c => c.snapshot seg.ts) (recorded_join cfg (t.slot c) seg).core
        rw [← hsnap]
        exact (h.forward hf).snoc seg.ts
      · rw [List.append_nil]
        exact h.forward hf

lemma states_stays (hs : Stays cfg t x c c') :
    c'.kept.states.Sublist (c.kept.states ++ told cfg t [x] c.id) := by
  cases hs with
  | same _ hg hx =>
      rw [told_other hx, List.append_nil]
      exact (states_suffix hg).sublist
  | @joined seg _ ht =>
      rw [told_join ht]
      exact (dropsFronts_age _ _).states.sublist.trans (states_of_join c seg)

/-! ### Runs -/

/-- The retained snapshots of every tracked connection grow. -/
theorem telling_track (cfg : EngineConfig) (items : List Item) :
    ∀ c ∈ (Tracker.track cfg items).conns, Telling c c.kept.states := by
  induction items using List.reverseRecOn with
  | nil => simp [Tracker.new]
  | append_singleton p x ih =>
      intro c' hc'
      rw [Tracker.track_snoc] at hc'
      rcases stays_or_opened (indexed_track cfg p) (counted_track cfg p).balance hc' with
        ⟨c, hc, -, hs⟩ | ⟨seg, rfl, rfl⟩
      · exact ((ih c hc).stays hs).sublist (states_stays hs)
      · have hcore := (recorded_found cfg ((Tracker.track cfg p).slot
          (freshTrack ((Tracker.track cfg p).nextId seg.pair) seg)) seg).core
        have hsub := states_of_found cfg (Tracker.track cfg p)
          (freshTrack ((Tracker.track cfg p).nextId seg.pair) seg) seg
        have hnil : Telling (freshTrack ((Tracker.track cfg p).nextId seg.pair) seg) [] :=
          ⟨.nil, by simp⟩
        rw [kept_freshTrack] at hsub
        have htold : Telling (freshTrack ((Tracker.track cfg p).nextId seg.pair) seg)
            ([] ++ if cfg.collectStateTimeline then
              [(freshTrack ((Tracker.track cfg p).nextId seg.pair) seg).snapshot seg.ts]
              else []) := by
          split
          · exact hnil.snoc seg.ts
          · exact hnil
        exact ((htold.sublist hsub).sublist (dropsFronts_age _ _).states.sublist).forward
          ((Forward.refl _).of_core hcore)

lemma told_snoc (p q : List Item) (x : Item) (id : ConnId) :
    told cfg (Tracker.track cfg p) (q ++ [x]) id =
      told cfg (Tracker.track cfg p) q id ++ told cfg (Tracker.track cfg (p ++ q)) [x] id := by
  have hrun : run (Tracker.observe cfg) (Tracker.track cfg p) q = Tracker.track cfg (p ++ q) :=
    List.foldl_append.symm
  unfold told
  rw [snapshots_snoc, hrun, List.filter_append, List.map_append, snapshots, snapshots,
    List.append_nil]

/-- **Lifecycles move forward.** From any time at which a connection is tracked, for as long as
it is, nothing of it goes down, and the snapshots recorded for it in the meantime follow those
it had retained in an order in which none is less than one before. -/
theorem moves_forward (cfg : EngineConfig) (p q : List Item) (id : ConnId)
    (h : Tracked cfg p q id) :
    ∀ c ∈ (Tracker.track cfg p).conns, c.id = id →
      ∀ c' ∈ (Tracker.track cfg (p ++ q)).conns, c'.id = id →
        Forward c c' ∧
          (c.kept.states ++ told cfg (Tracker.track cfg p) q id).Pairwise NoLess ∧
          c'.kept.states.Sublist (c.kept.states ++ told cfg (Tracker.track cfg p) q id) := by
  rintro c hc rfl
  suffices hall : ∀ c' ∈ (Tracker.track cfg (p ++ q)).conns, c'.id = c.id →
      Forward c c' ∧ Telling c' (c.kept.states ++ told cfg (Tracker.track cfg p) q c.id) ∧
        c'.kept.states.Sublist (c.kept.states ++ told cfg (Tracker.track cfg p) q c.id) by
    intro c' hc' hid
    obtain ⟨hf, ht, hs⟩ := hall c' hc' hid
    exact ⟨hf, ht.grows, hs⟩
  induction q using List.reverseRecOn with
  | nil =>
      intro c' hc' hid
      rw [List.append_nil] at hc'
      obtain rfl := eq_of_id (indexed_track cfg p) hc' hc hid
      exact ⟨.refl _, by simpa [told, snapshots] using telling_track cfg p _ hc,
        List.sublist_append_left _ _⟩
  | append_singleton q x ih =>
      intro c' hc' hid
      obtain ⟨c₁, hc₁, hid₁⟩ := h q (List.prefix_append _ _)
      obtain ⟨hf, ht, hsub⟩ := ih (fun r hr => h r (hr.trans (List.prefix_append _ _))) c₁ hc₁ hid₁
      rw [← List.append_assoc, Tracker.track_snoc] at hc'
      have hs := stays_of_mem (indexed_track cfg (p ++ q)) (counted_track cfg (p ++ q)).balance
        hc₁ hc' (hid.trans hid₁.symm)
      rw [told_snoc, ← List.append_assoc, ← hid₁]
      rw [← hid₁] at ht hsub
      exact ⟨hf.trans (forward_of_stays hs), ht.stays hs,
        (states_stays hs).trans (hsub.append_right _)⟩

instance (cfg : EngineConfig) (p q : List Item) (id : ConnId) : Decidable (Tracked cfg p q id) :=
  decidable_of_iff (∀ r ∈ q.inits, ∃ c ∈ (Tracker.track cfg (p ++ r)).conns, c.id = id)
    (forall_congr' fun _ => imp_congr_left (List.mem_inits _ _))

/-- A SYN. -/
def greeting : List Item := [.segment (.between 1 2 0 TcpFlags.SYN 100)]

/-- Its answer, repeated behind the client's FIN. -/
def repeated : List Item :=
  [.segment (.between 2 1 10 (TcpFlags.SYN ||| TcpFlags.ACK) 500 0 101),
    .segment (.between 1 2 20 (TcpFlags.FIN ||| TcpFlags.ACK) 101 0 501),
    .segment (.between 2 1 30 (TcpFlags.SYN ||| TcpFlags.ACK) 500 0 101)]

/-- The lifecycle timeline is collected. -/
def observing : EngineConfig where
  collectStateTimeline := true

/-- The connection of the greeting. -/
def greeted : ConnId := ⟨(Segment.between 1 2 0 TcpFlags.SYN 100).pair, 0⟩

/-- The repeated answer reopens nothing, and the four snapshots recorded tell the same. -/
theorem moves_forward_repeated :
    let t := Tracker.track observing greeting
    let c := t.conns.head (by decide +kernel)
    let c' := (Tracker.track observing (greeting ++ repeated)).conns.head (by decide +kernel)
    let states := c.kept.states ++ told observing t repeated greeted
    (Forward c c' ∧ states.Pairwise NoLess ∧ c'.kept.states.Sublist states) ∧
      states.length = 4 ∧ c'.kept.states.length = 4 :=
  ⟨moves_forward observing greeting repeated greeted (by decide +kernel) _
      (List.head_mem _) (by decide +kernel) _ (List.head_mem _) (by decide +kernel),
    by decide +kernel, by decide +kernel⟩

end TcpVisr.Monotone
