import TcpVisr.Plan

/-!
The state machine of one connection: what one segment does to the lifecycle state.
-/

namespace TcpVisr.States

open Plan

/-- `fin_o2r` or `fin_r2o`. -/
def finSeen (c : ConnTrack) : Direction → Bool
  | .originToResponder => c.finO2r
  | .responderToOrigin => c.finR2o

/-- Whether `seg` leaves the connection it joins Closed or Reset. -/
def endsTerminal (c : ConnTrack) (seg : Segment) : Bool :=
  seg.flags.rst || c.state.terminal ||
    (seg.flags.fin && finSeen c (c.directionOf seg.flow.source).opposite)

/-- The state once the SYN half and the completed handshake are applied. -/
def opening (s : ConnState) (seg : Segment) (dir : Direction) : ConnState :=
  let s := ConnTrack.applySyn s seg.flags dir
  if s = .synReceived ∧ (seg.flags.ack ∨ seg.isData) then s.advanceTo .established else s

lemma terminal_applySyn (s : ConnState) (f : TcpFlags) (dir : Direction) :
    (ConnTrack.applySyn s f dir).terminal = s.terminal := by
  unfold ConnTrack.applySyn
  cases s <;> split_ifs <;> rfl

lemma terminal_opening (s : ConnState) (seg : Segment) (dir : Direction) :
    (opening s seg dir).terminal = s.terminal := by
  rw [← terminal_applySyn s seg.flags dir]
  unfold opening
  dsimp only
  split
  · next h => rw [h.1]; rfl
  · rfl

lemma rank_applySyn (s : ConnState) (f : TcpFlags) (dir : Direction) :
    s.rank ≤ (ConnTrack.applySyn s f dir).rank := by
  unfold ConnTrack.applySyn
  split_ifs <;> simp [ConnState.rank_advanceTo]

lemma rank_opening (s : ConnState) (seg : Segment) (dir : Direction) :
    s.rank ≤ (opening s seg dir).rank := by
  refine (rank_applySyn s seg.flags dir).trans ?_
  unfold opening
  dsimp only
  split
  · simp [ConnState.rank_advanceTo]
  · exact le_rfl

/-- The state after a segment, in terms of what the connection was before it. -/
lemma state_accounted (c : ConnTrack) (seg : Segment) :
    (accounted c seg).state =
      if seg.flags.rst then .reset
      else if c.state = .reset then .reset
      else
        let s := opening c.state seg (c.directionOf seg.flow.source)
        if seg.flags.fin then
          s.advanceTo (if finSeen c (c.directionOf seg.flow.source).opposite then .closed
            else .finWait)
        else s := by
  unfold accounted
  generalize c.directionOf seg.flow.source = dir
  have hs : (c.account seg dir).state = c.state := by cases dir <;> rfl
  unfold ConnTrack.applyState
  by_cases hr : seg.flags.rst = true
  · rw [if_pos hr, if_pos hr]
  · rw [if_neg hr, if_neg hr, hs]
    by_cases hc : c.state = .reset
    · rw [if_pos hc, if_pos hc, hs, hc]
    · rw [if_neg hc, if_neg hc]
      by_cases hf : seg.flags.fin = true
      · cases dir <;>
          simp only [hf, if_true, ConnTrack.markFin, ConnTrack.account, finSeen,
            Direction.opposite, Bool.true_and, Bool.and_true] <;> rfl
      · simp only [hf]
        rfl

lemma terminal_advanceTo_closed {s : ConnState} : (s.advanceTo .closed).terminal = true := by
  cases s <;> rfl

lemma terminal_advanceTo_finWait {s : ConnState} :
    (s.advanceTo .finWait).terminal = s.terminal := by
  cases s <;> rfl

/-- **When a connection ends.** -/
theorem terminal_accounted (c : ConnTrack) (seg : Segment) :
    (accounted c seg).state.terminal = endsTerminal c seg := by
  rw [state_accounted]
  unfold endsTerminal
  by_cases hr : seg.flags.rst = true
  · simp [hr, ConnState.terminal]
  · by_cases hc : c.state = .reset
    · simp [hr, hc, ConnState.terminal]
    · by_cases hf : seg.flags.fin = true
      · by_cases ho : finSeen c (c.directionOf seg.flow.source).opposite = true
        · simp [hr, hc, hf, ho, terminal_advanceTo_closed]
        · simp [hr, hc, hf, ho, terminal_advanceTo_finWait, terminal_opening]
      · simp [hr, hc, hf, terminal_opening]

/-- The lifecycle rank never falls. -/
theorem rank_accounted (c : ConnTrack) (seg : Segment) :
    c.state.rank ≤ (accounted c seg).state.rank := by
  have hle : ∀ s : ConnState, s.rank ≤ ConnState.reset.rank := by
    intro s
    cases s <;> simp [ConnState.rank]
  have ho := rank_opening c.state seg (c.directionOf seg.flow.source)
  rw [state_accounted]
  split_ifs
  · exact hle _
  · exact hle _
  · dsimp only
    rw [ConnState.rank_advanceTo]
    exact le_max_of_le_left ho
  · dsimp only
    rw [ConnState.rank_advanceTo]
    exact le_max_of_le_left ho
  · exact ho

end TcpVisr.States
