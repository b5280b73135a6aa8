import TcpVisr.Ceiling

/-!
One connection's traffic never shows in another's.

What a replay makes of the connections of a pair depends on the segments of that pair alone,
in their own order. So the replay of those segments alone gives the same connections, and two
captures that interleave the same traffic differently give the same results.
-/

namespace TcpVisr.Isolation

open Lib.Runs Recording Slots Plan Passes Lifecycle Index Steps Appending Ceiling

/-- The connections of a pair. -/
def connsOf (p : EndpointPair) (cs : List ConnTrack) : List ConnTrack :=
  cs.filter fun c => c.id.pair = p

/-- Whether an item is a segment of pair `p`. -/
def ofPair (p : EndpointPair) : Item → Bool
  | .segment seg => seg.pair = p
  | .tick _ => false

/-- Whether `seg` opens an instance, from the instances of its own pair. -/
def opens (cfg : EngineConfig) (cs : List ConnTrack) (seg : Segment) : Bool :=
  match cs.getLast? with
  | some c => shouldSplit cfg c seg
  | none => true

/-- What `seg` makes of the instances of its pair: the newest is joined, or one is opened. -/
def pairStep (cfg : EngineConfig) (next : ConnId) (cs : List ConnTrack) (seg : Segment) :
    List ConnTrack :=
  if opens cfg cs seg then cs ++ [founded cfg seg (freshTrack next seg)]
  else cs.dropLast ++ cs.getLast?.toList.map (joined cfg seg)

variable {cfg : EngineConfig} {t u : Tracker} {seg : Segment} {p q : EndpointPair}

/-! ### The last entry of a kind -/

section Lists

variable {α : Type} {l : List α} {f : α → α} {a : α} {i : ℕ} {P : α → Bool}

lemma filter_modify_ne (ha : l[i]? = some a) (hP : P a = false) (hf : P (f a) = false) :
    (l.modify i f).filter P = l.filter P := by
  obtain ⟨hi, rfl⟩ := List.getElem?_eq_some_iff.mp ha
  rw [List.modify_eq_take_cons_drop hi, List.filter_append, List.filter_cons_of_neg (by simp [hf]),
    ← List.filter_cons_of_neg (p := P) (l := l.drop (i + 1)) (a := l[i]) (by simp [hP]),
    ← List.drop_eq_getElem_cons hi, ← List.filter_append, List.take_append_drop]

lemma filter_of_last (ha : l[i]? = some a) (hP : P a = true) (hf : P (f a) = true)
    (hlast : ∀ j b, l[j]? = some b → P b = true → j ≤ i) :
    l.filter P = (l.take i).filter P ++ [a] ∧
      (l.modify i f).filter P = (l.take i).filter P ++ [f a] := by
  obtain ⟨hi, rfl⟩ := List.getElem?_eq_some_iff.mp ha
  have hdrop : (l.drop (i + 1)).filter P = [] := by
    refine List.filter_eq_nil_iff.mpr fun b hb hPb => ?_
    obtain ⟨j, hj⟩ := List.mem_iff_getElem?.mp hb
    rw [List.getElem?_drop] at hj
    have := hlast _ b hj hPb
    omega
  constructor
  · conv_lhs => rw [← List.take_append_drop i l, List.drop_eq_getElem_cons hi]
    rw [List.filter_append, List.filter_cons_of_pos hP, hdrop]
  · rw [List.modify_eq_take_cons_drop hi, List.filter_append, List.filter_cons_of_pos hf, hdrop]

end Lists

/-! ### One segment -/

/-- The newest instance of a pair, and whether a segment of the pair joins it. -/
lemma joins_cases (cfg : EngineConfig) (hi : Indexed t.life) (seg : Segment) :
    (opens cfg (connsOf seg.pair t.conns) seg = true ∧ t.joins cfg seg = none) ∨
      ∃ i c, opens cfg (connsOf seg.pair t.conns) seg = false ∧ t.joins cfg seg = some i ∧
        t.conns[i]? = some c ∧ c.id.pair = seg.pair ∧
        ∀ j d, t.conns[j]? = some d → d.id.pair = seg.pair → j ≤ i := by
  cases hl : t.live seg.pair with
  | none =>
      have hempty : connsOf seg.pair t.conns = [] := by
        refine List.filter_eq_nil_iff.mpr fun c hc hp => ?_
        have := (live_isSome hi seg.pair).mpr ⟨c, hc, by simpa using hp⟩
        rw [hl] at this
        simp at this
      exact Or.inl ⟨by rw [hempty]; rfl, by simp [Tracker.joins, hl]⟩
  | some i =>
      obtain ⟨c, hc, hpair, hlast⟩ := live_newest hi hl
      have hfilter := (filter_of_last (f := id) (P := fun c => decide (c.id.pair = seg.pair)) hc
        (by simpa using hpair) (by simpa using hpair)
        (fun j d hj hd => hlast j d hj (by simpa using hd))).1
      have hopens : opens cfg (connsOf seg.pair t.conns) seg = shouldSplit cfg c seg := by
        rw [opens, connsOf, hfilter, List.getLast?_concat]
      rw [hopens]
      cases hs : shouldSplit cfg c seg with
      | true => exact Or.inl ⟨rfl, by simp [Tracker.joins, hl, hc, hs]⟩
      | false => exact Or.inr ⟨i, c, rfl, by simp [Tracker.joins, hl, hc, hs], hc, hpair, hlast⟩

lemma id_joined (seg : Segment) (c : ConnTrack) : (joined cfg seg c).id = c.id :=
  accounted_id c seg

lemma id_founded (seg : Segment) (id : ConnId) :
    (founded cfg seg (freshTrack id seg)).id = id := id_freshTrack id seg

/-- **What a segment makes of its own pair** is decided by the instances of that pair. -/
lemma connsOf_appended (hi : Indexed t.life) (seg : Segment) :
    connsOf seg.pair (appended cfg t (.segment seg)) =
      pairStep cfg (t.nextId seg.pair) (connsOf seg.pair t.conns) seg := by
  rcases joins_cases cfg hi seg with ⟨ho, hj⟩ | ⟨i, c, ho, hj, hc, hpair, hlast⟩
  · rw [appended_create hj, pairStep, if_pos ho, connsOf, List.filter_append,
      List.filter_singleton]
    simp [id_founded, Tracker.nextId, connsOf]
  · obtain ⟨h1, h2⟩ := filter_of_last (f := joined cfg seg)
      (P := fun c => decide (c.id.pair = seg.pair)) hc (by simpa using hpair)
      (by simpa [id_joined] using hpair) (fun j d hj hd => hlast j d hj (by simpa using hd))
    rw [appended_join hj, pairStep, if_neg (by simp [ho])]
    unfold connsOf
    rw [h1, h2, List.dropLast_concat, List.getLast?_concat]
    rfl

/-- **What a segment makes of another pair**: nothing. -/
lemma connsOf_appended_ne (hi : Indexed t.life) (hp : seg.pair ≠ p) :
    connsOf p (appended cfg t (.segment seg)) = connsOf p t.conns := by
  rcases joins_cases cfg hi seg with ⟨-, hj⟩ | ⟨i, c, -, hj, hc, hpair, -⟩
  · rw [appended_create hj, connsOf, List.filter_append, List.filter_singleton]
    simp [id_founded, Tracker.nextId, connsOf, hp]
  · rw [appended_join hj]
    exact filter_modify_ne hc (by simpa [hpair] using hp) (by simpa [id_joined, hpair] using hp)

/-! ### A replay, and the replay of one pair -/

/-- Two trackers that know the same of pair `p`. -/
structure Same (p : EndpointPair) (t u : Tracker) : Prop where
  conns : connsOf p t.conns = connsOf p u.conns
  next : t.nextInstance p = u.nextInstance p

lemma nextInstance_replayed (hi : Indexed t.life) (seg : Segment) (p : EndpointPair) :
    (replayed cfg t (.segment seg)).nextInstance p =
      if p = seg.pair ∧ opens cfg (connsOf p t.conns) seg = true then
        some ((t.nextId p).inst + 1)
      else t.nextInstance p := by
  change (t.life.observe cfg (.segment seg)).nextInstance p = _
  rcases joins_cases cfg hi seg with ⟨ho, hj⟩ | ⟨i, c, ho, hj, -⟩
  · rw [Life.observe_open (joins_life t seg ▸ hj)]
    by_cases hp : p = seg.pair
    · subst hp
      simp [ho, Tracker.nextId]
    · simp [hp]
  · rw [Life.observe_join (joins_life t seg ▸ hj)]
    by_cases hp : p = seg.pair
    · subst hp
      simp [ho]
    · simp [hp]

lemma same_segment (hi : Indexed t.life) (hi' : Indexed u.life) (h : Same seg.pair t u) :
    Same seg.pair (replayed cfg t (.segment seg)) (replayed cfg u (.segment seg)) := by
  have hid : t.nextId seg.pair = u.nextId seg.pair := by
    unfold Tracker.nextId
    rw [h.next]
  constructor
  · rw [conns_replayed, conns_replayed, connsOf_appended hi, connsOf_appended hi', hid, h.conns]
  · rw [nextInstance_replayed hi, nextInstance_replayed hi', h.conns, hid, h.next]

lemma same_apart (hi : Indexed t.life) (hp : seg.pair ≠ p) (h : Same p t u) :
    Same p (replayed cfg t (.segment seg)) u := by
  constructor
  · rw [conns_replayed, connsOf_appended_ne hi hp, h.conns]
  · rw [nextInstance_replayed hi, if_neg (fun hc => hp hc.1.symm), h.next]

lemma same_tick (hw : cfg.retention.window = none) (h : Same p t u) (at_ : Nanos) :
    Same p (replayed cfg t (.tick at_)) u := by
  constructor
  · rw [conns_replayed, appended_tick hw, h.conns]
  · change (t.life.observe cfg (.tick at_)).nextInstance p = _
    rw [Life.observe_tick_failFast hw]
    exact h.next

lemma indexed_replay (hw : cfg.retention.window = none) (items : List Item) :
    Indexed (replay cfg items).life := by
  rw [life_replay hw]
  exact indexed_track cfg items

/-- A replay knows of a pair what the replay of its own segments knows. -/
theorem same_replay (hw : cfg.retention.window = none) (p : EndpointPair) (items : List Item) :
    Same p (replay cfg items) (replay cfg (items.filter (ofPair p))) := by
  induction items using List.reverseRecOn with
  | nil => exact ⟨rfl, rfl⟩
  | append_singleton xs x ih =>
      have hi := indexed_replay hw xs
      rw [List.filter_append, List.filter_singleton, replay_snoc]
      cases x with
      | segment seg =>
          by_cases hp : seg.pair = p
          · subst hp
            rw [show ofPair seg.pair (.segment seg) = true by simp [ofPair], cond_true,
              replay_snoc]
            exact same_segment hi (indexed_replay hw _) ih
          · rw [show ofPair p (.segment seg) = false by simp [ofPair, hp], cond_false,
              List.append_nil]
            exact same_apart hi hp ih
      | tick at_ =>
          rw [show ofPair p (.tick at_) = false from rfl, cond_false, List.append_nil]
          exact same_tick hw ih at_

/-- The replay of the segments of one pair has connections of that pair only. -/
lemma pair_replay (hw : cfg.retention.window = none) (items : List Item) :
    ∀ c ∈ (replay cfg (items.filter (ofPair p))).conns, c.id.pair = p := by
  intro c hc
  by_contra hp
  have hnone : (items.filter (ofPair p)).filter (ofPair c.id.pair) = [] := by
    rw [List.filter_filter, List.filter_eq_nil_iff]
    intro x _
    cases x with
    | segment seg =>
        simp only [ofPair, Bool.and_eq_true, decide_eq_true_eq, not_and]
        intro hseg
        rwa [hseg]
    | tick at_ => simp [ofPair]
  have h := (same_replay hw c.id.pair (items.filter (ofPair p))).conns
  rw [hnone] at h
  have hmem : c ∈ connsOf c.id.pair (replay cfg (items.filter (ofPair p))).conns :=
    List.mem_filter.mpr ⟨hc, by simp⟩
  rw [h] at hmem
  simp [replay, connsOf, Tracker.new] at hmem

/-- **Isolation.** -/
theorem connsOf_replay (hw : cfg.retention.window = none) (p : EndpointPair)
    (items : List Item) :
    connsOf p (replay cfg items).conns = (replay cfg (items.filter (ofPair p))).conns := by
  rw [(same_replay hw p items).conns, connsOf, List.filter_eq_self]
  exact fun c hc => by simpa using pair_replay hw items c hc

lemma retained_connsOf_le (p : EndpointPair) (cs : List ConnTrack) :
    retained (connsOf p cs) ≤ retained cs := by
  unfold retained connsOf
  exact List.Sublist.sum_le_sum (List.filter_sublist.map _) (by simp)

/-! ### Interleavings -/

/-- Lists with the same entries of every key have the same entries. -/
lemma perm_of_filter_eq {l l' : List ConnTrack} (h : ∀ p, connsOf p l = connsOf p l') :
    l.Perm l' := by
  refine List.perm_iff_count.mpr fun c => ?_
  have hcount : ∀ l : List ConnTrack, l.count c = (connsOf c.id.pair l).count c :=
    fun l => (List.count_filter (by simp)).symm
  rw [hcount l, hcount l', h]

/-- Sorting by a key that tells the entries apart forgets the order they came in. -/
lemma insertionSort_congr {α β : Type} [LinearOrder β] (key : α → β) {l l' : List α}
    (hp : l.Perm l') (hk : ∀ a ∈ l, ∀ b ∈ l, key a = key b → a = b) :
    (l.insertionSort fun a b => key a ≤ key b) = l'.insertionSort fun a b => key a ≤ key b := by
  have : Std.Total fun a b : α => key a ≤ key b := ⟨fun _ _ => le_total _ _⟩
  have : IsTrans α fun a b => key a ≤ key b := ⟨fun _ _ _ => le_trans⟩
  have hs := List.perm_insertionSort (fun a b => key a ≤ key b) l
  have hs' := List.perm_insertionSort (fun a b => key a ≤ key b) l'
  refine List.Perm.eq_of_pairwise (fun a b ha hb hab hba => ?_)
    (List.pairwise_insertionSort _ l) (List.pairwise_insertionSort _ l')
    (hs.trans (hp.trans hs'.symm))
  exact hk a (hs.mem_iff.mp ha) b (hp.mem_iff.mpr (hs'.mem_iff.mp hb)) (le_antisymm hab hba)

lemma id_of_sortKey {a b : Connection} (h : Tracker.sortKey a = Tracker.sortKey b) :
    a.id = b.id := by
  simp only [Tracker.sortKey, toLex_inj, Prod.mk.injEq] at h
  obtain ⟨-, hlow, hhigh, hinst⟩ := h
  have h1 := Endpoint.key_inj hlow
  have h2 := Endpoint.key_inj hhigh
  calc a.id = ⟨⟨a.id.pair.low, a.id.pair.high⟩, a.id.inst⟩ := rfl
    _ = ⟨⟨b.id.pair.low, b.id.pair.high⟩, b.id.inst⟩ := by rw [h1, h2, hinst]
    _ = b.id := rfl

/-- Runs that track the same connections, in whatever order, return the same. -/
lemma results_congr (cfg : EngineConfig) (hi : Indexed t.life) (hp : u.conns.Perm t.conns)
    (ht : t.overflowed = false) (hu : u.overflowed = false) :
    u.intoConnections = t.intoConnections ∧ u.intoMetrics cfg = t.intoMetrics cfg := by
  have heq : ∀ c ∈ u.conns, ∀ d ∈ u.conns, Tracker.sortKey c.view = Tracker.sortKey d.view →
      c = d := by
    intro c hc d hd h
    exact eq_of_id hi (hp.mem_iff.mp hc) (hp.mem_iff.mp hd) (id_of_sortKey h)
  constructor
  · refine insertionSort_congr Tracker.sortKey (hp.map _) fun a ha b hb h => ?_
    obtain ⟨c, hc, rfl⟩ := List.mem_map.mp ha
    obtain ⟨d, hd, rfl⟩ := List.mem_map.mp hb
    rw [heq c hc d hd h]
  · rw [Tracker.intoMetrics, Tracker.intoMetrics, if_neg (by simp [hu]), if_neg (by simp [ht])]
    refine congrArg Except.ok (insertionSort_congr
      (fun x : ConnectionMetrics => Tracker.sortKey x.conn) (hp.map _) fun a ha b hb h => ?_)
    obtain ⟨c, hc, rfl⟩ := List.mem_map.mp ha
    obtain ⟨d, hd, rfl⟩ := List.mem_map.mp hb
    rw [heq c hc d hd h]

/-- A run whose replay fits did not overflow, and is its replay. -/
lemma whole_of_fits {m : ℕ} (hr : cfg.retention = .failFast m) (items : List Item)
    (hn : retained (replay cfg items).conns ≤ m) :
    (Tracker.track cfg items).overflowed = false ∧
      (Tracker.track cfg items).conns = (replay cfg items).conns := by
  cases stands_track cfg hr items with
  | whole ho hc _ => exact ⟨ho, hc⟩
  | spilled _ _ hlt => exact absurd hlt (not_lt.mpr hn)

lemma fits_of_whole {m : ℕ} (hr : cfg.retention = .failFast m) {items : List Item}
    (ho : (Tracker.track cfg items).overflowed = false) :
    retained (replay cfg items).conns ≤ m := by
  cases stands_track cfg hr items with
  | whole _ _ hn => exact hn
  | spilled ho' _ _ => rw [ho] at ho'; exact absurd ho' (by simp)

/-- **Noninterference.** In a fail-fast run without overflow the connections of each pair, with
all they have collected, are those of the run on the segments of that pair alone; and any
other interleaving of the same traffic returns the same connections and the same series. -/
theorem pairs_do_not_interfere {m : ℕ} (hr : cfg.retention = .failFast m) {items : List Item}
    (ho : (Tracker.track cfg items).overflowed = false) :
    (∀ p, connsOf p (Tracker.track cfg items).conns =
        (Tracker.track cfg (items.filter (ofPair p))).conns ∧
      (Tracker.track cfg (items.filter (ofPair p))).overflowed = false) ∧
    ∀ items' : List Item, (∀ p, items'.filter (ofPair p) = items.filter (ofPair p)) →
      (Tracker.track cfg items').overflowed = false ∧
        (Tracker.track cfg items').intoConnections = (Tracker.track cfg items).intoConnections ∧
        (Tracker.track cfg items').intoMetrics cfg = (Tracker.track cfg items).intoMetrics cfg ∧
        ((Tracker.track cfg items').conns.map ConnTrack.connSeries).Perm
          ((Tracker.track cfg items).conns.map ConnTrack.connSeries) := by
  have hw : cfg.retention.window = none := by rw [hr]; rfl
  have hn := fits_of_whole hr ho
  have hconns := (whole_of_fits hr items hn).2
  refine ⟨fun p => ?_, fun items' heq => ?_⟩
  · have hp := connsOf_replay hw p items
    obtain ⟨ho', hc'⟩ := whole_of_fits hr (items.filter (ofPair p))
      (by rw [← hp]; exact (retained_connsOf_le p _).trans hn)
    exact ⟨by rw [hconns, hp, hc'], ho'⟩
  · have hperm : (replay cfg items').conns.Perm (replay cfg items).conns := by
      refine perm_of_filter_eq fun p => ?_
      rw [connsOf_replay hw, connsOf_replay hw, heq]
    have hsum : retained (replay cfg items').conns = retained (replay cfg items).conns :=
      (hperm.map _).sum_eq
    obtain ⟨ho', hc'⟩ := whole_of_fits hr items' (hsum.trans_le hn)
    rw [← hc', ← hconns] at hperm
    have hres := results_congr cfg (indexed_track cfg items) hperm ho ho'
    exact ⟨ho', hres.1, hres.2, hperm.map _⟩

/-- Two handshakes, one after the other and interleaved. -/
def inTurn : List Item :=
  [.segment (.between 1 2 0 TcpFlags.SYN 100),
    .segment (.between 2 1 10 (TcpFlags.SYN ||| TcpFlags.ACK) 500 0 101),
    .segment (.between 3 4 5 TcpFlags.SYN 700),
    .segment (.between 4 3 15 (TcpFlags.SYN ||| TcpFlags.ACK) 900 0 701)]

def interleaved : List Item :=
  [.segment (.between 3 4 5 TcpFlags.SYN 700),
    .segment (.between 1 2 0 TcpFlags.SYN 100),
    .segment (.between 4 3 15 (TcpFlags.SYN ||| TcpFlags.ACK) 900 0 701),
    .segment (.between 2 1 10 (TcpFlags.SYN ||| TcpFlags.ACK) 500 0 101)]

theorem pairs_do_not_interfere_handshakes :
    (Tracker.track fullConfig interleaved).intoMetrics fullConfig =
      (Tracker.track fullConfig inTurn).intoMetrics fullConfig := by
  have h := (pairs_do_not_interfere (show fullConfig.retention = .failFast 10000000 from rfl)
    (show (Tracker.track fullConfig inTurn).overflowed = false by decide +kernel)).2 interleaved
  have hother : ∀ p, p ≠ ⟨⟨.v4 1, 80⟩, ⟨.v4 2, 80⟩⟩ → p ≠ ⟨⟨.v4 3, 80⟩, ⟨.v4 4, 80⟩⟩ →
      ∀ l : List Item, (∀ x ∈ l, ofPair ⟨⟨.v4 1, 80⟩, ⟨.v4 2, 80⟩⟩ x = true ∨
        ofPair ⟨⟨.v4 3, 80⟩, ⟨.v4 4, 80⟩⟩ x = true) → l.filter (ofPair p) = [] := by
    intro p h1 h2 l hl
    refine List.filter_eq_nil_iff.mpr fun x hx => ?_
    cases x with
    | segment seg =>
        rcases hl _ hx with h | h <;> simp only [ofPair, decide_eq_true_eq] at h ⊢ <;> rw [h]
        · exact Ne.symm h1
        · exact Ne.symm h2
    | tick at_ => simp [ofPair]
  refine (h fun p => ?_).2.2.1
  by_cases h1 : p = ⟨⟨.v4 1, 80⟩, ⟨.v4 2, 80⟩⟩
  · subst h1
    decide +kernel
  · by_cases h2 : p = ⟨⟨.v4 3, 80⟩, ⟨.v4 4, 80⟩⟩
    · subst h2
      decide +kernel
    · rw [hother p h1 h2 interleaved (by decide +kernel), hother p h1 h2 inTurn (by decide +kernel)]

end TcpVisr.Isolation
