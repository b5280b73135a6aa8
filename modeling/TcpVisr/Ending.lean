import TcpVisr.Ledger
import TcpVisr.States

/-!
How instances end.

A connection is Reset exactly if one of its segments carried RST; otherwise the directions
whose FIN has been seen decide between FinWait and Closed. `apply_state` keeps this law over
every segment that joins; `create_instance` breaks it when a SYN that carries RST or FIN opens
the instance, for it looks at the SYN first.
-/

namespace TcpVisr.Ending

open Lib.Runs Slots Plan Index Kept Ledger States

/-- Some of the segments carried RST. -/
def rstSeen (l : List Segment) : Bool := l.any fun s => s.flags.rst

/-- Some of the segments of direction `d` carried FIN. -/
def finFrom (c : ConnTrack) (l : List Segment) (d : Direction) : Bool :=
  l.any fun s => s.flags.fin && c.directionOf s.flow.source = d

/-- The state of an instance tells how the segments attributed to it have ended it. -/
def Ended (c : ConnTrack) (l : List Segment) : Prop :=
  (c.state = .reset ↔ rstSeen l = true) ∧
    (rstSeen l = false →
      (c.state = .closed ↔
        finFrom c l .originToResponder = true ∧ finFrom c l .responderToOrigin = true) ∧
      (c.state = .finWait ↔
        finFrom c l .originToResponder ≠ finFrom c l .responderToOrigin))

/-- Until the reset the FIN marks are the directions whose FIN has been attributed. -/
def Marked (c : ConnTrack) (l : List Segment) : Prop :=
  c.state ≠ .reset → ∀ d, finSeen c d = finFrom c l d

/-- An instance is never opened by a SYN that carries RST or FIN as well. -/
def CleanOpener (cfg : EngineConfig) (g : Ledger) : Item → Prop
  | .segment seg => target cfg g.tracker seg = none → seg.flags.syn = true →
      seg.flags.rst = false ∧ seg.flags.fin = false
  | .tick _ => True

instance (c : ConnTrack) (l : List Segment) : Decidable (Ended c l) :=
  inferInstanceAs (Decidable (_ ∧ _))

variable {cfg : EngineConfig} {g : Ledger} {c : ConnTrack} {seg : Segment} {l : List Segment}
  {s : ConnState} {dir : Direction}

/-! ### What a segment adds -/

@[simp] lemma rstSeen_snoc (l : List Segment) (seg : Segment) :
    rstSeen (l ++ [seg]) = (rstSeen l || seg.flags.rst) := by
  simp [rstSeen]

@[simp] lemma finFrom_snoc (c : ConnTrack) (l : List Segment) (seg : Segment) (d : Direction) :
    finFrom c (l ++ [seg]) d =
      (finFrom c l d || (seg.flags.fin && decide (c.directionOf seg.flow.source = d))) := by
  simp [finFrom]

lemma finFrom_accounted (c : ConnTrack) (seg : Segment) (l : List Segment) (d : Direction) :
    finFrom (accounted c seg) l d = finFrom c l d := by
  unfold finFrom
  rw [directionOf_accounted]

/-- A segment that neither resets nor finds a reset connection marks its FIN. -/
lemma finSeen_accounted (hr : seg.flags.rst = false) (hc : c.state ≠ .reset) (d : Direction) :
    finSeen (accounted c seg) d =
      (finSeen c d || (seg.flags.fin && decide (c.directionOf seg.flow.source = d))) := by
  unfold accounted
  generalize c.directionOf seg.flow.source = dir
  have hs : (c.account seg dir).state = c.state := by cases dir <;> rfl
  unfold ConnTrack.applyState
  rw [if_neg (by simp [hr]), if_neg (by rw [hs]; exact hc)]
  cases hf : seg.flags.fin with
  | true => cases dir <;> cases d <;> simp [ConnTrack.markFin, ConnTrack.account, finSeen]
  | false => cases dir <;> cases d <;> simp [ConnTrack.account, finSeen]

lemma directionOf_freshTrack (id : ConnId) (seg : Segment) :
    (freshTrack id seg).directionOf = (blankTrack id seg).directionOf := by
  unfold ConnTrack.directionOf
  rw [origin_freshTrack]

lemma finSeen_freshTrack (id : ConnId) (seg : Segment) (d : Direction) :
    finSeen (freshTrack id seg) d =
      (seg.flags.fin && decide ((freshTrack id seg).directionOf seg.flow.source = d)) := by
  rw [directionOf_freshTrack]
  unfold freshTrack
  dsimp only
  generalize (blankTrack id seg).directionOf seg.flow.source = dir
  cases hf : seg.flags.fin with
  | true =>
      cases dir <;> cases d <;> simp [ConnTrack.markFin, ConnTrack.account, finSeen, blankTrack]
  | false => cases dir <;> cases d <;> simp [ConnTrack.account, finSeen, blankTrack]

/-! ### The marks -/

lemma onCore_marked : OnCore Marked := fun _ _ => Iff.rfl

lemma marked_fresh (id : ConnId) (seg : Segment) : Marked (freshTrack id seg) [seg] := by
  intro _ d
  rw [finSeen_freshTrack]
  simp [finFrom]

lemma marked_join (h : Marked c l) (seg : Segment) :
    Marked (accounted c seg) (l ++ [seg]) := by
  intro hstate d
  rw [state_accounted] at hstate
  have hr : seg.flags.rst = false := by
    by_contra hr
    exact hstate (if_pos (by simpa using hr))
  have hc : c.state ≠ .reset := by
    intro hc
    refine hstate ?_
    rw [if_neg (by simp [hr]), if_pos hc]
  rw [finSeen_accounted hr hc, h hc d, finFrom_accounted, finFrom_snoc]

/-- **The marks** of every instance of every run. -/
theorem marked_ledger (items : List Item) : Everywhere Marked (ledger cfg items) :=
  everywhere_ledger onCore_marked marked_fresh (fun _ _ seg h => marked_join h seg) items

/-! ### The end -/

lemma advanceTo_closed (hs : s ≠ .reset) : s.advanceTo .closed = .closed := by
  cases s <;> simp_all [ConnState.advanceTo, ConnState.rank]

lemma advanceTo_finWait (hs : s ≠ .reset) (hc : s ≠ .closed) : s.advanceTo .finWait = .finWait := by
  cases s <;> simp_all [ConnState.advanceTo, ConnState.rank]

lemma rank_applySyn_le (s : ConnState) (f : TcpFlags) (dir : Direction) :
    (ConnTrack.applySyn s f dir).rank ≤ max s.rank 1 := by
  unfold ConnTrack.applySyn
  split_ifs
  · exact (ConnState.rank_advanceTo s .synReceived).le
  · exact le_max_left _ _
  · exact (ConnState.rank_advanceTo s .synReceived).le
  · exact le_max_left _ _
  · exact le_max_left _ _

lemma opening_early (seg : Segment) (dir : Direction) (hs : s.rank ≤ 2) :
    (opening s seg dir).rank ≤ 2 := by
  have h := rank_applySyn_le s seg.flags dir
  unfold opening
  dsimp only
  split
  · rw [ConnState.rank_advanceTo, show ConnState.established.rank = 2 from rfl]
    omega
  · omega

lemma opening_late (hs : 3 ≤ s.rank) : opening s seg dir = s := by
  unfold opening ConnTrack.applySyn
  cases s <;> simp [ConnState.rank] at hs ⊢

/-- The handshake half of a transition neither ends a connection nor reopens one. -/
lemma opening_eq_iff {e : ConnState} (he : 3 ≤ e.rank) : opening s seg dir = e ↔ s = e := by
  by_cases hs : 3 ≤ s.rank
  · rw [opening_late hs]
  · constructor
    · rintro rfl
      have := opening_early (s := s) seg dir (by omega)
      omega
    · rintro rfl
      exact absurd he hs

/-- The state of an instance that was not reset and is not reset now. -/
lemma state_of_not_reset (hr : seg.flags.rst = false) (hc : c.state ≠ .reset) :
    (accounted c seg).state =
      if seg.flags.fin then
        (opening c.state seg (c.directionOf seg.flow.source)).advanceTo
          (if finSeen c (c.directionOf seg.flow.source).opposite then .closed else .finWait)
      else opening c.state seg (c.directionOf seg.flow.source) := by
  rw [state_accounted, if_neg (by simp [hr]), if_neg hc]

/-- A FIN closes the connection if the other direction has ended, and winds it down if not. -/
lemma state_of_fin (h : Ended c l) (hm : Marked c l) (hr : seg.flags.rst = false)
    (hrl : rstSeen l = false) (hf : seg.flags.fin = true) :
    (accounted c seg).state =
      if finFrom c l (c.directionOf seg.flow.source).opposite then .closed else .finWait := by
  have hc : c.state ≠ .reset := fun hc => by simp [h.1.mp hc] at hrl
  have hne : opening c.state seg (c.directionOf seg.flow.source) ≠ .reset := by
    rwa [Ne, opening_eq_iff (by simp [ConnState.rank])]
  rw [state_of_not_reset hr hc, if_pos hf, hm hc]
  cases ho : finFrom c l (c.directionOf seg.flow.source).opposite with
  | true => exact advanceTo_closed hne
  | false =>
      refine advanceTo_finWait hne fun hcl => ?_
      rw [opening_eq_iff (by simp [ConnState.rank]), (h.2 hrl).1] at hcl
      cases hd : c.directionOf seg.flow.source <;> rw [hd] at ho <;>
        simp only [Direction.opposite] at ho
      · simp [hcl.2] at ho
      · simp [hcl.1] at ho

lemma onCore_ended : OnCore Ended := fun _ _ => Iff.rfl

/-- **Every joining segment keeps the law.** -/
lemma ended_join (h : Ended c l) (hm : Marked c l) (seg : Segment) :
    Ended (accounted c seg) (l ++ [seg]) := by
  cases hr : seg.flags.rst with
  | true =>
      have hs : (accounted c seg).state = .reset := by rw [state_accounted, if_pos hr]
      exact ⟨by simp [hs, hr], by simp [hr]⟩
  | false =>
      by_cases hc : c.state = .reset
      · have hs : (accounted c seg).state = .reset := by
          rw [state_accounted, if_neg (by simp [hr]), if_pos hc]
        have hl := h.1.mp hc
        exact ⟨by simp [hs, hl], by simp [hl]⟩
      · have hrl : rstSeen l = false := by
          by_contra hl
          exact hc (h.1.mpr (by simpa using hl))
        unfold Ended
        simp only [rstSeen_snoc, hrl, hr, finFrom_accounted, finFrom_snoc, directionOf_accounted]
        cases hf : seg.flags.fin with
        | true =>
            rw [state_of_fin h hm hr hrl hf]
            cases hd : c.directionOf seg.flow.source with
            | originToResponder =>
                by_cases h2 : finFrom c l .responderToOrigin = true <;>
                  simp [Direction.opposite, h2]
            | responderToOrigin =>
                by_cases h1 : finFrom c l .originToResponder = true <;>
                  simp [Direction.opposite, h1]
        | false =>
            obtain ⟨hclosed, hwait⟩ := h.2 hrl
            rw [state_of_not_reset hr hc, if_neg (by simp [hf])]
            simp only [opening_eq_iff (show 3 ≤ ConnState.reset.rank by simp [ConnState.rank]),
              opening_eq_iff (show 3 ≤ ConnState.closed.rank by simp [ConnState.rank]),
              opening_eq_iff (show 3 ≤ ConnState.finWait.rank by simp [ConnState.rank])]
            simpa [hc] using ⟨hclosed, hwait⟩

/-- What `create_instance` makes of the flags. -/
lemma state_orient (seg : Segment) :
    (orient seg).2.2.2 =
      if seg.flags.syn then (if seg.flags.ack then .synReceived else .synSent)
      else if seg.flags.rst then .reset
      else if seg.flags.fin then .finWait
      else .established := by
  unfold orient isBareSyn isSynAck
  cases hs : seg.flags.syn <;> cases ha : seg.flags.ack <;> simp [hs, ha] <;>
    split_ifs <;> rfl

/-- **Only one way of opening breaks it.** -/
lemma ended_fresh_iff (id : ConnId) (seg : Segment) :
    Ended (freshTrack id seg) [seg] ↔
      (seg.flags.syn = true → seg.flags.rst = false ∧ seg.flags.fin = false) := by
  have hfin : ∀ d, finFrom (freshTrack id seg) [seg] d =
      (seg.flags.fin && decide ((freshTrack id seg).directionOf seg.flow.source = d)) := by
    simp [finFrom]
  have hrst : rstSeen [seg] = seg.flags.rst := by simp [rstSeen]
  unfold Ended
  rw [hfin, hfin, hrst, state_freshTrack, state_orient]
  generalize (freshTrack id seg).directionOf seg.flow.source = dir
  cases hs : seg.flags.syn with
  | true =>
      cases seg.flags.ack <;> cases seg.flags.rst <;> cases seg.flags.fin <;> cases dir <;> simp
  | false => cases seg.flags.rst <;> cases seg.flags.fin <;> cases dir <;> simp

/-- **The end of every instance**, with the exact condition: the state tells throughout a run
how the attributed segments ended the instance, exactly if no instance is opened by a SYN
that carries RST or FIN. -/
theorem ended_iff_cleanOpener (cfg : EngineConfig) (items : List Item) :
    Always (Ledger.observe cfg) Ledger.new (Everywhere Ended) items ↔
      Steps (Ledger.observe cfg) Ledger.new (CleanOpener cfg) items := by
  refine always_everywhere_iff onCore_ended marked_ledger (fun _ _ => trivial)
    (fun g seg hm h => ?_) items
  unfold CleanOpener
  cases ht : target cfg g.tracker seg with
  | none =>
      rw [attributed_open ht, ended_fresh_iff]
      simp [ht]
  | some c =>
      have hc := mem_of_target ht
      rw [attributed_join ht]
      refine iff_of_true (ended_join (h c hc) (hm c hc) seg) fun hn => ?_
      rw [ht] at hn
      exact absurd hn (by simp)

/-- A SYN that resets at once. -/
def scan : List Item := [.segment (.between 1 2 0 (TcpFlags.SYN ||| TcpFlags.RST) 100)]

/-- The connection it opens is not Reset. -/
theorem not_ended :
    ¬ Always (Ledger.observe ({} : EngineConfig)) Ledger.new (Everywhere Ended) scan := by
  decide +kernel

end TcpVisr.Ending
