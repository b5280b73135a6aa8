import TcpVisr.Ceiling
import TcpVisr.Ledger

/-!
What each segment of an instance recorded.

A journal runs the tracker and notes, for every instance, its segments in order, each with
the samples by which the six series grew when the segment was observed. While a fail-fast
run has not overflowed, what a segment recorded is its plan, on both ways a segment can take.
-/

namespace TcpVisr

namespace Retained

/-- The six series of `k`, each followed by that of `k'`. -/
def append (k k' : Retained) : Retained where
  states := k.states ++ k'.states
  series := k.series ++ k'.series
  seq := k.seq ++ k'.seq
  inflight := k.inflight ++ k'.inflight
  rtt := k.rtt ++ k'.rtt
  throughput := k.throughput ++ k'.throughput

/-- What the six series of `k'` hold past the length of those of `k`. -/
def since (k' k : Retained) : Retained where
  states := k'.states.drop k.states.length
  series := k'.series.drop k.series.length
  seq := k'.seq.drop k.seq.length
  inflight := k'.inflight.drop k.inflight.length
  rtt := k'.rtt.drop k.rtt.length
  throughput := k'.throughput.drop k.throughput.length

@[simp] lemma append_empty (k : Retained) : k.append {} = k := by
  simp [append]

@[simp] lemma empty_append (k : Retained) : append {} k = k := by
  simp [append]

lemma append_assoc (k k' k'' : Retained) :
    (k.append k').append k'' = k.append (k'.append k'') := by
  simp [append]

@[simp] lemma since_append (k k' : Retained) : (k.append k').since k = k' := by
  simp [since, append]

lemma push_eq_append (k : Retained) (x : Sample) : k.push x = k.append (push {} x) := by
  cases x <;> simp [push, append]

lemma pushAll_eq_append (k : Retained) (xs : List Sample) :
    Slots.pushAll k xs = k.append (Slots.pushAll {} xs) := by
  induction xs generalizing k with
  | nil => simp
  | cons x xs ih =>
      rw [Slots.pushAll_cons, Slots.pushAll_cons, ih (push {} x), ih (k.push x), push_eq_append,
        append_assoc]

end Retained

/-- A segment of an instance, and the samples it recorded there. -/
structure Record where
  seg : Segment
  samples : Retained

/-- A tracker, and the records of each instance so far, in order. -/
structure Journal where
  tracker : Tracker
  records : ConnId → List Record

namespace Journal

open Lib.Runs Recording Slots Plan Passes Lifecycle Index Steps Appending History Ceiling Kept

/-- What is retained of the instance `id`. -/
def keptOf (t : Tracker) (id : ConnId) : Retained := ((t.find id).map ConnTrack.kept).getD {}

def new : Journal := ⟨Tracker.new, fun _ => []⟩

variable (cfg : EngineConfig)

/-- The record of a segment of the instance `id`: by how much its series grow. -/
def record (t : Tracker) (seg : Segment) (id : ConnId) : Record :=
  ⟨seg, (keptOf (t.observe cfg (.segment seg)) id).since (keptOf t id)⟩

/-- The journal after an item. -/
def observe (g : Journal) (x : Item) : Journal where
  tracker := g.tracker.observe cfg x
  records :=
    match x with
    | .segment seg =>
      match target cfg g.tracker seg with
      | some c => Function.update g.records c.id (g.records c.id ++ [record cfg g.tracker seg c.id])
      | none =>
        let id := g.tracker.nextId seg.pair
        Function.update g.records id [record cfg g.tracker seg id]
    | .tick _ => g.records

/-- The journal after `items`. -/
def journal (items : List Item) : Journal := run (observe cfg) new items

variable {cfg} {m : ℕ} {g : Journal} {t : Tracker} {seg : Segment} {c : ConnTrack}

@[simp] lemma journal_snoc (p : List Item) (x : Item) :
    journal cfg (p ++ [x]) = observe cfg (journal cfg p) x := run_snoc _ _ p x

lemma tracker_journal (items : List Item) :
    (journal cfg items).tracker = Tracker.track cfg items := by
  induction items using List.reverseRecOn with
  | nil => rfl
  | append_singleton p x ih =>
      rw [journal_snoc, Tracker.track_snoc, ← ih]
      rfl

lemma records_join (h : target cfg g.tracker seg = some c) :
    (observe cfg g (.segment seg)).records =
      Function.update g.records c.id (g.records c.id ++ [record cfg g.tracker seg c.id]) := by
  simp only [observe, h]

lemma records_open (h : target cfg g.tracker seg = none) :
    (observe cfg g (.segment seg)).records =
      Function.update g.records (g.tracker.nextId seg.pair)
        [record cfg g.tracker seg (g.tracker.nextId seg.pair)] := by
  simp only [observe, h]

/-- The records of an instance are those of the segments attributed to it. -/
theorem segments_journal (items : List Item) (id : ConnId) :
    ((journal cfg items).records id).map Record.seg =
      (Ledger.ledger cfg items).entries id := by
  induction items using List.reverseRecOn generalizing id with
  | nil => rfl
  | append_singleton p x ih =>
      have ht : (Ledger.ledger cfg p).tracker = (journal cfg p).tracker :=
        (Ledger.tracker_ledger p).trans (tracker_journal p).symm
      rw [journal_snoc, Ledger.ledger, run_snoc]
      change _ = (Ledger.observe cfg (Ledger.ledger cfg p) x).entries id
      cases x with
      | tick at_ => exact ih id
      | segment seg =>
          cases htgt : target cfg (journal cfg p).tracker seg with
          | some c =>
              rw [records_join htgt, Ledger.entries_join (ht ▸ htgt)]
              by_cases hid : id = c.id
              · simp [hid, ih, record]
              · simp [Function.update_of_ne hid, ih]
          | none =>
              rw [records_open htgt, Ledger.entries_open (ht ▸ htgt), ht]
              by_cases hid : id = (journal cfg p).tracker.nextId seg.pair
              · simp [hid, record]
              · simp [Function.update_of_ne hid, ih]

/-! ### One item of a run that does not overflow -/

/-- A step that does not overflow appends what its item asks for. -/
lemma conns_snoc_of_whole (hr : cfg.retention = .failFast m) {p : List Item} {x : Item}
    (ho : (Tracker.track cfg (p ++ [x])).overflowed = false) :
    (Tracker.track cfg p).overflowed = false ∧
      (Tracker.track cfg (p ++ [x])).conns = appended cfg (Tracker.track cfg p) x := by
  have hw : cfg.retention.window = none := by rw [hr]; rfl
  have hp : (Tracker.track cfg p).overflowed = false := by
    rw [Tracker.track_snoc] at ho
    exact not_overflowed (indexed_track cfg p) (counted_track cfg p).balance hw x ho
  refine ⟨hp, ?_⟩
  rw [conns_of_whole cfg hr ho, replay_snoc, conns_replayed]
  exact (appended_congr hw (life_replay hw p).symm (conns_of_whole cfg hr hp) x).symm

/-- What is retained of a tracked instance is found under its identity. -/
lemma keptOf_of_mem (hi : Indexed t.life) (hc : c ∈ t.conns) : keptOf t c.id = c.kept := by
  rw [keptOf, find_of_mem hi hc]
  rfl

/-- Nothing is retained under an identity not yet given. -/
lemma keptOf_nextId (hi : Indexed t.life) (pair : EndpointPair) :
    keptOf t (t.nextId pair) = {} := by
  have hnone : t.find (t.nextId pair) = none := by
    refine List.find?_eq_none.mpr fun c hc => ?_
    simpa using (nextId_ne hi hc pair).symm
  rw [keptOf, hnone]
  rfl

/-- What a segment that joins `c` records. -/
def joinRecord (cfg : EngineConfig) (c : ConnTrack) (seg : Segment) : Record :=
  ⟨seg, pushAll {} (joinPlan cfg c seg).2⟩

/-- What the first segment of `c` records. -/
def foundRecord (cfg : EngineConfig) (c : ConnTrack) (seg : Segment) : Record :=
  ⟨seg, pushAll {} (foundPlan cfg c seg).2⟩

lemma kept_joined (cfg : EngineConfig) (c : ConnTrack) (seg : Segment) :
    (joined cfg seg c).kept = c.kept.append (joinRecord cfg c seg).samples := by
  rw [joined, append_kept, accounted_kept, Retained.pushAll_eq_append]
  rfl

lemma kept_founded (cfg : EngineConfig) (id : ConnId) (seg : Segment) :
    (founded cfg seg (freshTrack id seg)).kept =
      (foundRecord cfg (freshTrack id seg) seg).samples := by
  rw [founded, append_kept, kept_freshTrack]
  rfl

@[simp] lemma id_joined (cfg : EngineConfig) (seg : Segment) (c : ConnTrack) :
    (joined cfg seg c).id = c.id := accounted_id c seg

/-- The record of a segment that joins is what the instance keeps more than before. -/
lemma record_of_join (hi : Indexed t.life) (hi' : Indexed (t.observe cfg (.segment seg)).life)
    (hc : c ∈ t.conns) (hmem : joined cfg seg c ∈ (t.observe cfg (.segment seg)).conns) :
    record cfg t seg c.id = joinRecord cfg c seg := by
  have hafter := keptOf_of_mem hi' hmem
  rw [id_joined, kept_joined] at hafter
  rw [record, hafter, keptOf_of_mem hi hc, Retained.since_append]
  rfl

/-- The record of a first segment is all that its instance keeps. -/
lemma record_of_create (hi : Indexed t.life) (hi' : Indexed (t.observe cfg (.segment seg)).life)
    (hmem : founded cfg seg (freshTrack (t.nextId seg.pair) seg) ∈
      (t.observe cfg (.segment seg)).conns) :
    record cfg t seg (t.nextId seg.pair) =
      foundRecord cfg (freshTrack (t.nextId seg.pair) seg) seg := by
  have hid : (founded cfg seg (freshTrack (t.nextId seg.pair) seg)).id = t.nextId seg.pair :=
    id_freshTrack _ _
  have hafter := keptOf_of_mem hi' hmem
  rw [hid, kept_founded] at hafter
  rw [record, hafter, keptOf_nextId hi,
    ← Retained.empty_append (foundRecord cfg _ seg).samples, Retained.since_append]
  rfl

/-- **The rule for records.** What holds of a fresh instance and the record of its one
segment, and is carried over the record of each segment that joins, holds of every tracked
connection of every fail-fast run that does not overflow. -/
theorem forall_journal (hr : cfg.retention = .failFast m) {R : ConnTrack → List Record → Prop}
    (hfound : ∀ id seg, R (founded cfg seg (freshTrack id seg))
      [foundRecord cfg (freshTrack id seg) seg])
    (hjoin : ∀ c l seg, R c l → R (joined cfg seg c) (l ++ [joinRecord cfg c seg]))
    {items : List Item} (ho : (Tracker.track cfg items).overflowed = false) :
    ∀ c ∈ (Tracker.track cfg items).conns, R c ((journal cfg items).records c.id) := by
  induction items using List.reverseRecOn with
  | nil => simp [Tracker.new]
  | append_singleton p x ih =>
      obtain ⟨hop, hconns⟩ := conns_snoc_of_whole hr ho
      have hi := indexed_track cfg p
      have hi' := indexed_track cfg (p ++ [x])
      have hp := ih hop
      rw [journal_snoc]
      cases x with
      | tick at_ =>
          rw [hconns, appended_tick (by rw [hr]; rfl)]
          exact hp
      | segment seg =>
          cases hj : (Tracker.track cfg p).joins cfg seg with
          | some i =>
              obtain ⟨c, hc⟩ := joins_conns hj
              have htgt := target_of_joins hj hc
              rw [appended_join hj] at hconns
              have hmem : joined cfg seg c ∈ (Tracker.track cfg (p ++ [.segment seg])).conns := by
                rw [hconns]
                exact List.mem_of_getElem? (i := i) (by simp [hc])
              rw [Tracker.track_snoc] at hi' hmem
              have hrec := record_of_join hi hi' (List.mem_of_getElem? hc) hmem
              rw [records_join (by rw [tracker_journal]; exact htgt), tracker_journal, hrec, hconns]
              refine forall_mem_modify.mpr ⟨fun d hd => ?_, fun j d hd hji => ?_⟩
              · obtain rfl := Option.some.inj (hc.symm.trans hd)
                rw [id_joined, Function.update_self]
                exact hjoin c _ seg (hp c (List.mem_of_getElem? hc))
              · have hne : d.id ≠ c.id := fun heq => hji (id_inj hi hd hc heq)
                rw [Function.update_of_ne hne]
                exact hp d (List.mem_of_getElem? hd)
          | none =>
              have htgt : target cfg (Tracker.track cfg p) seg = none := by
                simp [target, hj]
              rw [appended_create hj] at hconns
              have hid : (founded cfg seg (freshTrack ((Tracker.track cfg p).nextId seg.pair)
                  seg)).id = (Tracker.track cfg p).nextId seg.pair := id_freshTrack _ _
              have hmem : founded cfg seg (freshTrack ((Tracker.track cfg p).nextId seg.pair)
                  seg) ∈ (Tracker.track cfg (p ++ [.segment seg])).conns := by
                rw [hconns]
                exact List.mem_concat_self
              rw [Tracker.track_snoc] at hi' hmem
              have hrec := record_of_create hi hi' hmem
              rw [records_open (by rw [tracker_journal]; exact htgt), tracker_journal, hrec, hconns]
              simp only [List.forall_mem_append, List.forall_mem_singleton]
              refine ⟨fun d hd => ?_, ?_⟩
              · rw [Function.update_of_ne (nextId_ne hi hd seg.pair).symm]
                exact hp d hd
              · rw [hid, Function.update_self]
                exact hfound _ seg

end Journal

end TcpVisr
