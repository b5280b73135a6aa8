import TcpVisr.Ledger
import TcpVisr.States

/-!
The handshake.

While an instance has been given SYNs and SYN-ACKs only, nobody has completed its handshake.
The code reads the ACK bit of the SYN-ACK itself as the completing ACK: a SYN-ACK that joins
such an instance establishes it. This is the only way in which the law fails.
-/

namespace TcpVisr.Handshake

open Lib.Runs Slots Plan Index Kept Ledger States

/-- A SYN or SYN-ACK without payload, FIN or RST. -/
def handshakeOnly (seg : Segment) : Bool :=
  seg.flags.syn && !seg.flags.fin && !seg.flags.rst && !seg.isData

/-- An instance given handshake segments only is opening, and has been answered once one of
them is a SYN-ACK. -/
def Opening (c : ConnTrack) (l : List Segment) : Prop :=
  (∀ s ∈ l, handshakeOnly s = true) →
    (c.state = .synSent ∨ c.state = .synReceived) ∧
      ((∃ s ∈ l, isSynAck s.flags = true) → c.state = .synReceived)

/-- No SYN-ACK joins an instance that has been given handshake segments only. -/
def Unanswered (cfg : EngineConfig) (g : Ledger) : Item → Prop
  | .segment seg => ∀ c, target cfg g.tracker seg = some c →
      (∀ s ∈ g.entries c.id, handshakeOnly s = true) →
        ¬ (handshakeOnly seg = true ∧ isSynAck seg.flags = true)
  | .tick _ => True

instance (c : ConnTrack) (l : List Segment) : Decidable (Opening c l) :=
  inferInstanceAs (Decidable (_ → _ ∧ _))

variable {cfg : EngineConfig} {g : Ledger} {c : ConnTrack} {seg : Segment} {l : List Segment}
  {s : ConnState} {dir : Direction}

lemma handshakeOnly_iff :
    handshakeOnly seg = true ↔ seg.flags.syn = true ∧ seg.flags.fin = false ∧
      seg.flags.rst = false ∧ seg.isData = false := by
  simp [handshakeOnly, and_assoc]

/-! ### The state after a handshake segment -/

lemma state_of_handshakeOnly (h : handshakeOnly seg = true) (hc : c.state ≠ .reset) :
    (accounted c seg).state = opening c.state seg (c.directionOf seg.flow.source) := by
  obtain ⟨-, hfin, hrst, -⟩ := handshakeOnly_iff.mp h
  rw [state_accounted]
  simp [hrst, hc, hfin]

/-- The ACK bit of the SYN-ACK completes the handshake. -/
lemma opening_synAck (ha : isSynAck seg.flags = true) (hs : s = .synSent ∨ s = .synReceived) :
    opening s seg dir = .established := by
  have hack : seg.flags.ack = true := (Bool.and_eq_true_iff.mp ha).2
  unfold opening ConnTrack.applySyn
  rcases hs with rfl | rfl
  · simp [ha, hack, ConnState.advanceTo, ConnState.rank]
  · simp [ha, hack, ConnState.advanceTo, ConnState.rank]

lemma opening_bareSyn (hb : seg.flags.ack = false)
    (hd : seg.isData = false) : opening s seg dir = ConnTrack.applySyn s seg.flags dir := by
  unfold opening
  simp [hb, hd]

/-- Repeated SYNs are absorbed, but for the second one of a simultaneous open. -/
lemma applySyn_opening (f : TcpFlags) (dir : Direction) (hs : s = .synSent ∨ s = .synReceived) :
    (ConnTrack.applySyn s f dir = .synSent ∨ ConnTrack.applySyn s f dir = .synReceived) ∧
      (s = .synReceived → ConnTrack.applySyn s f dir = .synReceived) := by
  unfold ConnTrack.applySyn
  rcases hs with rfl | rfl
  · split_ifs <;> simp [ConnState.advanceTo, ConnState.rank]
  · simp

/-! ### One segment -/

lemma onCore_opening : OnCore Opening := fun _ _ => Iff.rfl

/-- A fresh instance is opening. -/
lemma opening_fresh (id : ConnId) (seg : Segment) : Opening (freshTrack id seg) [seg] := by
  intro h
  obtain ⟨hsyn, -, -, -⟩ := handshakeOnly_iff.mp (h seg (by simp))
  rw [state_freshTrack]
  cases hack : seg.flags.ack with
  | true => simp [orient, isBareSyn, isSynAck, hsyn, hack]
  | false => simp [orient, isBareSyn, isSynAck, hsyn, hack]

/-- An instance stays opening over a segment that is no SYN-ACK. -/
lemma opening_join_iff (h : Opening c l) :
    Opening (accounted c seg) (l ++ [seg]) ↔
      ((∀ s ∈ l, handshakeOnly s = true) →
        ¬ (handshakeOnly seg = true ∧ isSynAck seg.flags = true)) := by
  constructor
  · rintro hnew hl ⟨hseg, hack⟩
    obtain ⟨hstate, -⟩ := h hl
    have hne : c.state ≠ .reset := by rcases hstate with hs | hs <;> simp [hs]
    have hall : ∀ s ∈ l ++ [seg], handshakeOnly s = true := by
      simpa [or_imp, forall_and] using ⟨hl, hseg⟩
    have := (hnew hall).1
    rw [state_of_handshakeOnly hseg hne, opening_synAck hack hstate] at this
    simp at this
  · intro hno hall
    have hl : ∀ s ∈ l, handshakeOnly s = true := fun s hs => hall s (by simp [hs])
    have hseg : handshakeOnly seg = true := hall seg (by simp)
    obtain ⟨hstate, hanswered⟩ := h hl
    have hne : c.state ≠ .reset := by rcases hstate with hs | hs <;> simp [hs]
    have hack : isSynAck seg.flags = false := by simpa [hseg] using hno hl
    obtain ⟨hsyn, -, -, hdata⟩ := handshakeOnly_iff.mp hseg
    have hack' : seg.flags.ack = false := by simpa [isSynAck, hsyn] using hack
    obtain ⟨h1, h2⟩ := applySyn_opening seg.flags (c.directionOf seg.flow.source) hstate
    rw [state_of_handshakeOnly hseg hne, opening_bareSyn hack' hdata]
    refine ⟨h1, fun ⟨s, hs, hsa⟩ => h2 (hanswered ?_)⟩
    rcases List.mem_append.mp hs with hs | hs
    · exact ⟨s, hs, hsa⟩
    · rw [List.mem_singleton.mp hs, hack] at hsa
      exact absurd hsa (by simp)

/-- **Handshake safety**, with its exact condition: every instance given handshake segments
only is in its handshake, throughout a run, exactly if no SYN-ACK ever joins one. -/
theorem opening_iff_unanswered (cfg : EngineConfig) (items : List Item) :
    Always (Ledger.observe cfg) Ledger.new (Everywhere Opening) items ↔
      Steps (Ledger.observe cfg) Ledger.new (Unanswered cfg) items := by
  refine always_everywhere_iff onCore_opening (I := fun _ => True) (fun _ => trivial)
    (fun _ _ => trivial) (fun g seg _ h => ?_) items
  unfold Unanswered
  cases ht : target cfg g.tracker seg with
  | none =>
      rw [attributed_open ht]
      refine iff_of_true (opening_fresh _ seg) fun c hc => ?_
      rw [ht] at hc
      exact absurd hc (by simp)
  | some c =>
      rw [attributed_join ht, opening_join_iff (h c (mem_of_target ht))]
      constructor
      · intro hno d hd
        obtain rfl : c = d := Option.some.inj (ht.symm.trans hd)
        exact hno
      · exact fun hno => hno c ht

/-- A SYN and its answer. -/
def answered : List Item :=
  [.segment (.between 1 2 0 TcpFlags.SYN 100),
    .segment (.between 2 1 10 (TcpFlags.SYN ||| TcpFlags.ACK) 500 0 101)]

/-- The answer establishes the connection. -/
theorem not_opening :
    ¬ Always (Ledger.observe ({} : EngineConfig)) Ledger.new (Everywhere Opening) answered := by
  decide +kernel

end TcpVisr.Handshake
