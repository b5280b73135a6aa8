import TcpVisr.Ledger

/-!
Who opened an instance.

The segments of an instance tell: the sender of its first SYN, failing that the receiver of its
first SYN-ACK, failing that the sender of its first segment. The code asks the first segment
only. So a handshake segment that joins an instance which has seen none comes too late to be
heard, and so does a SYN from the side that the SYN-ACK before it was sent by.
-/

namespace TcpVisr.Orientation

open Lib.Runs Slots Plan Index Kept Ledger

/-- The first SYN. -/
def firstSyn (l : List Segment) : Option Segment := l.find? fun s => isBareSyn s.flags

/-- The first SYN-ACK. -/
def firstSynAck (l : List Segment) : Option Segment := l.find? fun s => isSynAck s.flags

/-- Who opened an instance, by all its segments. -/
def opener (l : List Segment) : Option Endpoint :=
  ((firstSyn l).map fun s => s.flow.source).or
    (((firstSynAck l).map fun s => s.flow.destination).or (l.head?.map fun s => s.flow.source))

/-- The origin is who opened the instance, and inferred exactly if neither a SYN nor a SYN-ACK
is among its segments. -/
def Oriented (c : ConnTrack) (l : List Segment) : Prop :=
  some c.origin = opener l ∧
    (c.originInferred = true ↔ firstSyn l = none ∧ firstSynAck l = none)

/-- A SYN or SYN-ACK joins an instance only if one has come before it, and the first SYN to come
after a SYN-ACK is sent by the side which that one answers. -/
def Introduced (cfg : EngineConfig) (g : Ledger) : Item → Prop
  | .segment seg => ∀ c, target cfg g.tracker seg = some c → firstSyn (g.entries c.id) = none →
      match firstSynAck (g.entries c.id) with
      | some s => isBareSyn seg.flags = true → seg.flow.source = s.flow.destination
      | none => isBareSyn seg.flags = false ∧ isSynAck seg.flags = false
  | .tick _ => True

instance (c : ConnTrack) (l : List Segment) : Decidable (Oriented c l) :=
  inferInstanceAs (Decidable (_ ∧ _))

variable {cfg : EngineConfig} {g : Ledger} {c : ConnTrack} {seg : Segment} {l : List Segment}

/-! ### One more segment -/

lemma firstSyn_snoc (l : List Segment) (seg : Segment) :
    firstSyn (l ++ [seg]) =
      (firstSyn l).or (if isBareSyn seg.flags then some seg else none) := by
  rw [firstSyn, List.find?_append, ← firstSyn]
  cases h : isBareSyn seg.flags <;> simp [h]

lemma firstSynAck_snoc (l : List Segment) (seg : Segment) :
    firstSynAck (l ++ [seg]) =
      (firstSynAck l).or (if isSynAck seg.flags then some seg else none) := by
  rw [firstSynAck, List.find?_append, ← firstSynAck]
  cases h : isSynAck seg.flags <;> simp [h]

lemma onCore_oriented : OnCore Oriented := fun _ _ => Iff.rfl

/-- The first segment of an instance is heard. -/
lemma oriented_fresh (id : ConnId) (seg : Segment) : Oriented (freshTrack id seg) [seg] := by
  have hfirst : firstSyn [seg] = if isBareSyn seg.flags then some seg else none :=
    firstSyn_snoc [] seg
  have hack : firstSynAck [seg] = if isSynAck seg.flags then some seg else none :=
    firstSynAck_snoc [] seg
  obtain ⟨_, _, _, _, _, _, h⟩ := freshTrack_frame id seg
  unfold Oriented opener
  rw [hfirst, hack, h]
  simp only [blankTrack, orient]
  split_ifs <;> simp

/-- A segment keeps the orientation right exactly if nothing in it comes too late. -/
lemma oriented_join_iff (h : Oriented c l) :
    Oriented (accounted c seg) (l ++ [seg]) ↔
      (firstSyn l = none →
        match firstSynAck l with
        | some s => isBareSyn seg.flags = true → seg.flow.source = s.flow.destination
        | none => isBareSyn seg.flags = false ∧ isSynAck seg.flags = false) := by
  obtain ⟨horigin, hinferred⟩ := h
  have hsame : (accounted c seg).originInferred = c.originInferred := by
    obtain ⟨_, _, _, _, _, _, _, hf⟩ := accounted_frame c seg
    rw [hf]
  unfold Oriented
  unfold opener at horigin ⊢
  rw [hsame, accounted_origin, hinferred, firstSyn_snoc, firstSynAck_snoc]
  cases hs : firstSyn l with
  | some s =>
      rw [hs] at horigin
      simpa using horigin
  | none =>
      cases ha : firstSynAck l with
      | some a =>
          rw [hs, ha] at horigin
          obtain horigin : c.origin = a.flow.destination := by simpa using horigin
          cases hb : isBareSyn seg.flags with
          | false => simp [horigin]
          | true => simpa [horigin] using eq_comm
      | none =>
          -- the first segment stands, so anything of a handshake is too late
          rw [hs, ha] at horigin
          obtain ⟨s, l, rfl⟩ := List.exists_cons_of_ne_nil (l := l) (by
            rintro rfl
            simp at horigin)
          obtain horigin : c.origin = s.flow.source := by simpa using horigin
          cases hb : isBareSyn seg.flags <;> cases hk : isSynAck seg.flags <;> simp [horigin]

/-- **The orientation law**, with its exact condition. -/
theorem oriented_iff_introduced (cfg : EngineConfig) (items : List Item) :
    Always (Ledger.observe cfg) Ledger.new (Everywhere Oriented) items ↔
      Steps (Ledger.observe cfg) Ledger.new (Introduced cfg) items := by
  refine always_everywhere_iff onCore_oriented (I := fun _ => True) (fun _ => trivial)
    (fun _ _ => trivial) (fun g seg _ h => ?_) items
  unfold Introduced
  cases ht : target cfg g.tracker seg with
  | none =>
      rw [attributed_open ht]
      exact iff_of_true (oriented_fresh _ seg) fun c hc => absurd (ht.symm.trans hc) (by simp)
  | some c =>
      rw [attributed_join ht, oriented_join_iff (h c (mem_of_target ht))]
      constructor
      · intro hnew d hd
        obtain rfl : c = d := Option.some.inj (ht.symm.trans hd)
        exact hnew
      · exact fun hnew => hnew c ht

/-- A client's SYN captured behind the first data of the server. -/
def overtaken : List Item :=
  [.segment (.between 2 1 0 TcpFlags.ACK 501 10 101), .segment (.between 1 2 10 TcpFlags.SYN 100)]

/-- The SYN is absorbed: the server stays the origin, inferred. -/
theorem not_oriented :
    ¬ Always (Ledger.observe ({} : EngineConfig)) Ledger.new (Everywhere Oriented) overtaken := by
  decide +kernel

end TcpVisr.Orientation
