import TcpVisr.Karn

/-!
The metric derivation over counts that never wrap.

On unbounded positions serial order is order and a serial maximum is a maximum, and what the
derivation reports can be read off the history of a direction. The derivation of the program,
which sees 32-bit numbers only, refines this one as long as the positions that matter to a
segment span less than half a cycle.
-/

namespace TcpVisr

open TcpSeq Observing Lib.Runs Lib.Serial

attribute [ext] MetricSample

/-- What the derivation keeps of one direction, by position. -/
structure Course where
  sndNxt : Option ℤ := none
  acked : Option ℤ := none
  frontier : Option ℤ := none
  lastDataTs : Option Nanos := none
  pendingRtt : List (ℤ × Nanos) := []
  tput : List (Nanos × BitVec 32 × Bool) := []
  tputMaxTs : Option Nanos := none

/-- The larger of a position and one there may be. -/
def further (m : Option ℤ) (n : ℤ) : ℤ := m.elim n (max · n)

namespace Course

/-- The state as the 32-bit derivation keeps it. -/
def words (c : Course) : DirState where
  sndNxt := c.sndNxt.map (mark 0)
  acked := c.acked.map (mark 0)
  frontier := c.frontier.map (mark 0)
  lastDataTs := c.lastDataTs
  pendingRtt := c.pendingRtt.map fun e => (mark 0 e.1, e.2)
  tput := c.tput
  tputMaxTs := c.tputMaxTs

/-- Data that starts below the frontier was sent before, or comes late: `(retransmit,
out_of_order)`. -/
def classify (own : Course) (x : Placed) (cfg : EngineConfig) : Bool × Bool :=
  if x.seg.isData && own.frontier.any (x.pos < ·) then
    let gap := match own.lastDataTs with
      | some prev => x.seg.ts.ns - prev.ns
      | none => u64Max
    if gap < cfg.reorderWindow.ns then (false, true) else (true, false)
  else (false, false)

/-- The window step, which no position enters. -/
def window (own : Course) (seg : Segment) (retransmit : Bool) (cfg : EngineConfig) : DirState :=
  windowPushAndEvict { tput := own.tput, tputMaxTs := own.tputMaxTs } seg retransmit cfg

/-- A direction after a segment of its own. -/
def send (own : Course) (x : Placed) (cfg : EngineConfig) : Course where
  sndNxt := some (further own.sndNxt x.stop)
  acked := some (own.acked.getD x.pos)
  frontier := if x.seg.isData then some (further own.frontier x.stop) else own.frontier
  lastDataTs := if x.seg.isData then some x.seg.ts else own.lastDataTs
  pendingRtt :=
    if (own.classify x cfg).1 then []
    else if x.seg.consumes then own.pendingRtt ++ [(x.stop, x.seg.ts)] else own.pendingRtt
  tput := (own.window x.seg (own.classify x cfg).1 cfg).tput
  tputMaxTs := (own.window x.seg (own.classify x cfg).1 cfg).tputMaxTs

/-- Whether a segment acknowledges more of a direction. -/
def advances (peer : Course) (x : Placed) : Bool :=
  x.seg.flags.ack && peer.sndNxt.isSome && peer.acked.all (· < x.ackPos)

/-- A direction after a segment of the opposite one. -/
def ackBy (peer : Course) (x : Placed) : Course :=
  if peer.advances x then
    { peer with
      acked := some x.ackPos
      pendingRtt := peer.pendingRtt.dropWhile fun e => e.1 ≤ x.ackPos }
  else peer

/-- The round trip a segment measures: the head of the queue, if it is covered. -/
def rtt (peer : Course) (x : Placed) : Option Nanos :=
  if peer.advances x then
    (peer.pendingRtt.head?.filter fun e => e.1 ≤ x.ackPos).map fun e =>
      x.seg.ts.saturatingSub e.2
  else none

/-- The positions that a segment of the direction itself is compared with. -/
def marks (c : Course) : List ℤ := c.sndNxt.toList ++ c.acked.toList ++ c.frontier.toList

/-- The positions that an acknowledgement is compared with. -/
def awaited (c : Course) : List ℤ := c.acked.toList ++ c.pendingRtt.map Prod.fst

end Course

/-- The courses of the two directions. -/
abbrev Courses := PerDir Course

namespace Courses

def new : Courses := ⟨{}, {}⟩

/-- The state as the 32-bit derivation keeps it. -/
def words (m : Courses) : MetricState := ⟨⟨m.o2r.words, m.r2o.words⟩⟩

variable (cfg : EngineConfig) (m : Courses) (x : Placed)

def next : Courses :=
  (m.set x.dir ((m.get x.dir).send x cfg)).set x.dir.opposite
    ((m.get x.dir.opposite).ackBy x)

/-- What is reported of a segment. -/
def sample : MetricSample where
  t := x.seg.ts
  dir := x.dir.sample
  inFlightBytes :=
    (further (m.get x.dir).sndNxt x.stop - (m.get x.dir).acked.getD x.pos).toNat
  throughputBps :=
    (((m.next cfg x).words.throughputAt x.dir x.seg.ts cfg).map Prod.fst).getD 0
  rtt := (m.get x.dir.opposite).rtt x
  retransmit := ((m.get x.dir).classify x cfg).1
  outOfOrder := ((m.get x.dir).classify x cfg).2
  sack := !x.seg.options.sackBlocks.isEmpty

end Courses

/-- Two positions less than half a cycle apart. -/
def Apart (a b : ℤ) : Prop := a - b < 2 ^ 31 ∧ b - a < 2 ^ 31

instance (a b : ℤ) : Decidable (Apart a b) := inferInstanceAs (Decidable (_ ∧ _))

/-- The positions that matter to a segment lie close: where it starts and stops and the marks
of its own direction; and, if it acknowledges, up to where and what awaits that. -/
structure Courses.Near (m : Courses) (x : Placed) : Prop where
  own : ∀ a ∈ x.pos :: x.stop :: (m.get x.dir).marks,
    ∀ b ∈ x.pos :: x.stop :: (m.get x.dir).marks, Apart a b
  peer : x.seg.flags.ack = true →
    ∀ a ∈ (m.get x.dir.opposite).awaited, Apart a x.ackPos

instance (m : Courses) (x : Placed) : Decidable (Courses.Near m x) :=
  decidable_of_iff (_ ∧ _) ⟨fun h => ⟨h.1, h.2⟩, fun h => ⟨h.1, h.2⟩⟩

/-! ### One direction -/

lemma dirState_eq {a b : DirState} (hsnd : a.sndNxt = b.sndNxt) (hacked : a.acked = b.acked)
    (hfront : a.frontier = b.frontier) (hlast : a.lastDataTs = b.lastDataTs)
    (hrtt : a.pendingRtt = b.pendingRtt) (htput : a.tput = b.tput)
    (hmax : a.tputMaxTs = b.tputMaxTs) : a = b := by
  cases a
  cases b
  congr

lemma serialMax_words {m : Option ℤ} {n : ℤ} (h : ∀ a ∈ m, Apart a n) :
    serialMax (m.map (mark 0)) (mark 0 n) = mark 0 (further m n) := by
  cases m with
  | none => rfl
  | some a =>
      obtain ⟨h1, h2⟩ := h a rfl
      exact serialMax_mark h1 h2.le

namespace Course

section Own

variable {own : Course} {x : Placed} {cfg : EngineConfig}

/-- Beside a segment, the marks of its direction. -/
lemma apart_marks (h : ∀ a ∈ x.pos :: x.stop :: own.marks, ∀ b ∈ x.pos :: x.stop :: own.marks,
    Apart a b) :
    (∀ a ∈ own.sndNxt, Apart a x.stop) ∧ (∀ a ∈ own.frontier, Apart a x.stop) ∧
      (∀ a ∈ own.frontier, Apart a x.pos) := by
  have hsnd : ∀ a ∈ own.sndNxt, a ∈ x.pos :: x.stop :: own.marks := by
    intro a ha
    simp [marks, Option.mem_def.mp ha]
  have hfr : ∀ a ∈ own.frontier, a ∈ x.pos :: x.stop :: own.marks := by
    intro a ha
    simp [marks, Option.mem_def.mp ha]
  exact ⟨fun a ha => h a (hsnd a ha) _ (by simp), fun a ha => h a (hfr a ha) _ (by simp),
    fun a ha => h a (hfr a ha) _ (by simp)⟩

lemma classify_words (h : ∀ a ∈ own.frontier, Apart a x.pos) :
    TcpVisr.classify own.words x.seg cfg = own.classify x cfg := by
  unfold TcpVisr.classify classify
  cases hd : x.seg.isData with
  | false => simp
  | true =>
      cases hf : own.frontier with
      | none => simp [words, hf]
      | some fr =>
          obtain ⟨h1, h2⟩ := h fr hf
          have hlt : x.seg.seq.serialLt (mark 0 fr) = decide (x.pos < fr) := by
            rw [x.seq_eq]
            exact serialLt_mark h1 h2.le
          cases hl : own.lastDataTs with
          | none =>
              simp only [words, hf, hl, Option.map_some, hlt, Option.any_some, Bool.true_and,
                if_true]
          | some prev =>
              simp only [words, hf, hl, Option.map_some, hlt, Option.any_some, Bool.true_and,
                if_true]

/-- The window step reads and writes the window alone. -/
lemma window_words (d : DirState) (r : Bool) (ht : d.tput = own.tput)
    (hm : d.tputMaxTs = own.tputMaxTs) :
    (windowPushAndEvict d x.seg r cfg).tput = (own.window x.seg r cfg).tput ∧
      (windowPushAndEvict d x.seg r cfg).tputMaxTs = (own.window x.seg r cfg).tputMaxTs := by
  unfold window windowPushAndEvict
  dsimp only
  rw [hm]
  split_ifs
  · exact ⟨by rw [ht], rfl⟩
  · exact ⟨ht, hm⟩
  · exact ⟨by rw [ht], rfl⟩
  · rw [hm]
    cases hw : own.tputMaxTs with
    | none => exact ⟨ht, hm.trans hw⟩
    | some m => exact ⟨by rw [ht], rfl⟩

lemma ackedMark_words : own.words.acked.getD x.seg.seq = mark 0 (own.acked.getD x.pos) := by
  rw [x.seq_eq]
  cases hk : own.acked <;> simp [words, hk]

lemma sndMark_words (h : ∀ a ∈ own.sndNxt, Apart a x.stop) :
    serialMax own.words.sndNxt (seqEnd x.seg) = mark 0 (further own.sndNxt x.stop) := by
  rw [x.seqEnd_eq]
  exact serialMax_words h

lemma observeOwn_words (h : ∀ a ∈ x.pos :: x.stop :: own.marks,
    ∀ b ∈ x.pos :: x.stop :: own.marks, Apart a b) :
    observeOwn own.words x.seg cfg = (own.send x cfg).words := by
  obtain ⟨hsnd, hstop, hpos⟩ := apart_marks h
  have hclass : TcpVisr.classify own.words x.seg cfg = own.classify x cfg := classify_words hpos
  have hentry : entry x.seg = (mark 0 x.stop, x.seg.ts) := by rw [entry, x.seqEnd_eq]
  have hfront : serialMax own.words.frontier (seqEnd x.seg) =
      mark 0 (further own.frontier x.stop) := by
    rw [x.seqEnd_eq]
    exact serialMax_words hstop
  have hwin : (observeOwn own.words x.seg cfg).tput =
      (own.window x.seg (own.classify x cfg).1 cfg).tput ∧
      (observeOwn own.words x.seg cfg).tputMaxTs =
        (own.window x.seg (own.classify x cfg).1 cfg).tputMaxTs := by
    rw [← hclass]
    exact window_words _ _ rfl rfl
  refine dirState_eq ?_ ?_ ?_ ?_ ?_ hwin.1 hwin.2
  · rw [observeOwn_sndNxt, sndMark_words hsnd]
    rfl
  · rw [observeOwn_acked, ackedMark_words]
    rfl
  · rw [observeOwn_frontier, hfront]
    cases hd : x.seg.isData <;> simp [send, words, hd]
  · rw [observeOwn_lastDataTs]
    rfl
  · rw [observeOwn_pendingRtt, hclass, hentry]
    simp only [send, words]
    split_ifs <;> simp

/-- What is outstanding, clamped at zero. -/
lemma outstanding_words (h : ∀ a ∈ x.pos :: x.stop :: own.marks,
    ∀ b ∈ x.pos :: x.stop :: own.marks, Apart a b) :
    outstanding (own.words.acked.getD x.seg.seq) (serialMax own.words.sndNxt (seqEnd x.seg)) =
      (further own.sndNxt x.stop - own.acked.getD x.pos).toNat := by
  have hmem : own.acked.getD x.pos ∈ x.pos :: x.stop :: own.marks := by
    cases hk : own.acked <;> simp [marks, hk]
  have hfar : further own.sndNxt x.stop ∈ x.pos :: x.stop :: own.marks := by
    cases hk : own.sndNxt with
    | none => simp [further]
    | some a => rcases max_choice a x.stop with hc | hc <;> simp [further, marks, hk, hc]
  obtain ⟨h1, h2⟩ := h _ hmem _ hfar
  rw [ackedMark_words, sndMark_words (apart_marks h).1]
  unfold outstanding
  rw [serialLe_mark h2 h1.le]
  split_ifs with hle
  · have hdiff := toNat_mark_sub (b := (0 : TcpSeq)) (of_decide_eq_true hle) (by omega)
    rw [← hdiff, Int.toNat_natCast]
    rfl
  · have hlt : ¬ _ := fun hle' => hle (decide_eq_true hle')
    omega

end Own

section Peer

variable {peer : Course} {x : Placed}

lemma ackAdvances_words (h : x.seg.flags.ack = true → ∀ a ∈ peer.awaited, Apart a x.ackPos) :
    ackAdvances peer.words x.seg = peer.advances x := by
  unfold ackAdvances advances
  cases hk : x.seg.flags.ack with
  | false => simp
  | true =>
      cases ha : peer.acked with
      | none => simp [words, ha]
      | some a =>
          obtain ⟨h1, h2⟩ := h hk a (by simp [awaited, ha])
          have hgt : x.seg.ack.serialGt (mark 0 a) = decide (a < x.ackPos) := by
            rw [x.ack_eq]
            exact serialLt_mark h2 h1.le
          simp only [words, ha, Option.map_some, Option.isSome_map, hgt, Option.all_some]

/-- Of what waits, an acknowledgement covers what stops at or before it. -/
lemma covered_words (h : ∀ a ∈ peer.awaited, Apart a x.ackPos) {e : ℤ × Nanos}
    (he : e ∈ peer.pendingRtt) :
    covered x.seg.ack (mark 0 e.1, e.2) = decide (e.1 ≤ x.ackPos) := by
  obtain ⟨h1, h2⟩ := h e.1 (List.mem_append_right _ (List.mem_map_of_mem he))
  unfold covered
  rw [x.ack_eq]
  exact serialLe_mark h2 h1.le

lemma ack_of_advances (h : peer.advances x = true) : x.seg.flags.ack = true := by
  unfold advances at h
  simp only [Bool.and_eq_true] at h
  exact h.1.1

lemma observePeer_words (h : x.seg.flags.ack = true → ∀ a ∈ peer.awaited, Apart a x.ackPos) :
    observePeer peer.words x.seg = (peer.ackBy x).words := by
  have hadv := ackAdvances_words h
  unfold observePeer ackBy
  rw [hadv, popPending_eq]
  cases ha : peer.advances x with
  | false => simp
  | true =>
      have hcov := fun e => covered_words (e := e) (h (ack_of_advances ha))
      have hdrop : ∀ l : List (ℤ × Nanos), (∀ e ∈ l, e ∈ peer.pendingRtt) →
          (l.map fun e => (mark 0 e.1, e.2)).dropWhile (covered x.seg.ack) =
            (l.dropWhile fun e => e.1 ≤ x.ackPos).map fun e => (mark 0 e.1, e.2) := by
        intro l hl
        induction l with
        | nil => rfl
        | cons e l ih =>
            rw [List.map_cons, List.dropWhile_cons, List.dropWhile_cons,
              hcov e (hl e List.mem_cons_self)]
            split_ifs
            · exact ih fun e he => hl e (List.mem_cons_of_mem _ he)
            · rfl
      simp only [if_true, words, x.ack_eq, Option.map_some]
      rw [← x.ack_eq, hdrop _ fun e he => he]

lemma rttOf_words (h : x.seg.flags.ack = true → ∀ a ∈ peer.awaited, Apart a x.ackPos) :
    rttOf peer.words x.seg = peer.rtt x := by
  rw [rttOf_eq, ackAdvances_words h]
  unfold rtt
  cases ha : peer.advances x with
  | false => rfl
  | true =>
      have hcov := fun e => covered_words (e := e) (h (ack_of_advances ha))
      cases hq : peer.pendingRtt with
      | nil => simp [words, hq]
      | cons e l =>
          have he := hcov e (hq ▸ List.mem_cons_self)
          simp only [words, hq, List.map_cons, List.head?_cons, Option.filter_some, he, if_true]
          split_ifs <;> rfl

end Peer

end Course

/-! ### Both directions -/

namespace Courses

variable {cfg : EngineConfig} {m : Courses} {x : Placed}

lemma get_words (d : Direction) : m.words.dir.get d = (m.get d).words := by
  cases d <;> rfl

lemma words_eq_iff {s : MetricState} : s = m.words ↔ ∀ d, s.dir.get d = (m.get d).words := by
  constructor
  · rintro rfl d
    exact get_words d
  · intro h
    obtain ⟨⟨o, r⟩⟩ := s
    exact congrArg MetricState.mk (congrArg₂ PerDir.mk (h .originToResponder)
      (h .responderToOrigin))

/-- **One segment**, seen by both derivations. -/
theorem observe_words (h : Near m x) :
    m.words.observe x.seg x.dir cfg = ((m.next cfg x).words, m.sample cfg x) := by
  have hown : observeOwn (m.get x.dir).words x.seg cfg = ((m.get x.dir).send x cfg).words :=
    Course.observeOwn_words h.own
  have hpeer := Course.observePeer_words h.peer
  have hstate : (m.words.observe x.seg x.dir cfg).1 = (m.next cfg x).words := by
    rw [words_eq_iff, Direction.forall_iff x.dir, get_observe_own, get_observe_peer, get_words,
      get_words, hown, hpeer]
    simp [next]
  obtain ⟨hsnd, -, hpos⟩ := Course.apart_marks h.own
  have hclass : classify (m.get x.dir).words x.seg cfg = (m.get x.dir).classify x cfg :=
    Course.classify_words hpos
  have hflight : (m.words.observe x.seg x.dir cfg).2.inFlightBytes =
      (m.sample cfg x).inFlightBytes := by
    rw [observe_inFlightBytes, get_words]
    exact Course.outstanding_words h.own
  refine Prod.ext hstate ?_
  refine MetricSample.ext rfl rfl hflight ?_ ?_ ?_ ?_ rfl
  · change (((m.words.observe x.seg x.dir cfg).1.throughputAt x.dir x.seg.ts cfg).map _).getD 0 = _
    rw [hstate]
    rfl
  · rw [observe_rtt, get_words]
    exact Course.rttOf_words h.peer
  · rw [observe_retransmit, get_words]
    exact congrArg Prod.fst hclass
  · rw [observe_outOfOrder, get_words]
    exact congrArg Prod.snd hclass

/-! ### Runs -/

/-- The derivation of the program, which sees the words. -/
def onWire (cfg : EngineConfig) (s : MetricState) (x : Placed) : MetricState :=
  (s.observe x.seg x.dir cfg).1

lemma run_onWire {xs : List Placed} (h : Steps (next cfg) new Near xs) :
    run (onWire cfg) .new xs = (run (next cfg) new xs).words := by
  refine sim_of_steps (R := fun s m => s = words m) (G := fun _ _ => True) rfl ?_
    (fun _ _ _ => trivial) h
  rintro _ m x rfl - hn
  exact congrArg Prod.fst (observe_words hn)

/-- **Refinement.** As long as the positions that matter to each segment lie within half a
cycle, the 32-bit derivation reports of it what the unbounded one does, over any number of
cycles and whatever is lost, sent again or swapped on the way. -/
theorem refines_unbounded (cfg : EngineConfig) {xs : List Placed}
    (h : Steps (next cfg) new Near xs) {p : List Placed} {x : Placed} (hp : p ++ [x] <+: xs) :
    (run (onWire cfg) .new p).observe x.seg x.dir cfg =
      ((run (next cfg) new (p ++ [x])).words, (run (next cfg) new p).sample cfg x) := by
  rw [run_onWire (h.initial ((List.prefix_append p [x]).trans hp)), run_snoc]
  exact observe_words (h p x hp)

/-- A SYN just below the end of a cycle, its answer, data across the end with the second part
lost on the way and sent again, and an acknowledgement of it all. -/
def crossing : List Placed :=
  [.between .originToResponder 0 TcpFlags.SYN 4294967289,
    .between .responderToOrigin 1000 (TcpFlags.SYN ||| TcpFlags.ACK) 499 0 4294967290,
    .between .originToResponder 2000 TcpFlags.ACK 4294967290 10 500,
    .between .originToResponder 3000 TcpFlags.ACK 4294967310 10 500,
    .between .originToResponder 1000003000 TcpFlags.ACK 4294967300 10 500,
    .between .responderToOrigin 1000004000 TcpFlags.ACK 500 0 4294967320]

lemma near_crossing : Steps (next {}) new Near crossing := by
  decide +kernel

theorem refines_unbounded_crossing :
    (run (onWire {}) .new (crossing.take 5)).observe crossing[5].seg crossing[5].dir {} =
      ((run (next {}) new (crossing.take 5 ++ [crossing[5]])).words,
        (run (next {}) new (crossing.take 5)).sample {} crossing[5]) :=
  refines_unbounded {} near_crossing List.prefix_rfl

/-! ### Histories -/

/-- Up to where a direction has sent. -/
def sent (d : Direction) (l : List Placed) : Option ℤ :=
  ((l.filter fun y => y.dir = d).map Placed.stop).max?

/-- The data a direction has sent. -/
def dataOf (d : Direction) (l : List Placed) : List Placed :=
  l.filter fun y => y.dir = d ∧ y.seg.isData = true

/-- When a direction last sent data. -/
def lastData (d : Direction) (l : List Placed) : Option Nanos :=
  ((dataOf d l).map (·.seg.ts)).getLast?

/-- The acknowledgements of a direction: those of the opposite one. -/
def acksOf (d : Direction) (l : List Placed) : List Placed :=
  l.filter fun y => y.dir = d.opposite ∧ y.seg.flags.ack = true

/-- Up to where a direction is acknowledged: from where it began, as far as any
acknowledgement since then reaches. -/
def ackedUpTo (d : Direction) (l : List Placed) : Option ℤ :=
  let since := l.dropWhile fun y => y.dir ≠ d
  since.head?.map fun first => ((acksOf d since).map Placed.ackPos).foldl max first.pos

/-- A course is read off the history of its direction. -/
structure ReadOff (d : Direction) (l : List Placed) (c : Course) : Prop where
  sndNxt : c.sndNxt = sent d l
  acked : c.acked = ackedUpTo d l
  frontier : c.frontier = ((dataOf d l).map Placed.stop).max?
  lastDataTs : c.lastDataTs = lastData d l

section Snoc

variable {d : Direction} {l : List Placed}

lemma sent_snoc : sent d (l ++ [x]) =
    if x.dir = d then some (further (sent d l) x.stop) else sent d l := by
  unfold sent
  rw [List.filter_append, List.map_append]
  split_ifs with h
  · have hx : [x].filter (fun y => y.dir = d) = [x] := by simp [h]
    rw [hx]
    exact max?_concat _ x.stop
  · simp [h]

lemma dataOf_snoc : dataOf d (l ++ [x]) =
    if x.dir = d ∧ x.seg.isData = true then dataOf d l ++ [x] else dataOf d l := by
  unfold dataOf
  rw [List.filter_append]
  split_ifs with h <;> simp [h]

lemma acksOf_snoc : acksOf d (l ++ [x]) =
    if x.dir = d.opposite ∧ x.seg.flags.ack = true then acksOf d l ++ [x] else acksOf d l := by
  unfold acksOf
  rw [List.filter_append]
  split_ifs with h <;> simp [h]

/-- A direction is acknowledged from its first segment on. -/
lemma ackedUpTo_isSome : (ackedUpTo d l).isSome = (sent d l).isSome := by
  rw [Bool.eq_iff_iff]
  unfold ackedUpTo sent
  rw [Option.isSome_map, Option.isSome_iff_ne_none, Option.isSome_iff_ne_none]
  simp

lemma ackedUpTo_own (h : x.dir = d) :
    ackedUpTo d (l ++ [x]) = some ((ackedUpTo d l).getD x.pos) := by
  have hnot : ¬ (x.dir = d.opposite ∧ x.seg.flags.ack = true) := by
    rw [h]
    cases d <;> simp [Direction.opposite]
  unfold ackedUpTo
  rw [List.dropWhile_append]
  cases hs : l.dropWhile fun y => y.dir ≠ d with
  | nil =>
      have hx : ([x].dropWhile fun y => y.dir ≠ d) = [] ++ [x] := by simp [h]
      simp only [List.isEmpty_nil, if_true, hx, acksOf_snoc, if_neg hnot]
      rfl
  | cons y ys =>
      simp only [List.isEmpty_cons, Bool.false_eq_true, if_false, acksOf_snoc, if_neg hnot]
      rfl

lemma ackedUpTo_peer (h : x.dir = d.opposite) : ackedUpTo d (l ++ [x]) =
    if x.seg.flags.ack && (sent d l).isSome && (ackedUpTo d l).all (· < x.ackPos) then
      some x.ackPos
    else ackedUpTo d l := by
  have hpeer : ¬ d.opposite = d := by cases d <;> decide
  rw [← ackedUpTo_isSome]
  unfold ackedUpTo
  rw [List.dropWhile_append]
  cases hs : l.dropWhile fun y => y.dir ≠ d with
  | nil => simp [h, hpeer]
  | cons y ys =>
      simp only [List.isEmpty_cons, Bool.false_eq_true, if_false, acksOf_snoc, h, true_and]
      simp only [List.cons_append, List.head?_cons, Option.map_some, Option.isSome_some,
        Bool.and_true, Option.all_some, Bool.and_eq_true, decide_eq_true_iff]
      by_cases hk : x.seg.flags.ack = true
      · simp only [hk, if_true, List.map_append, List.foldl_append, List.map_cons, List.map_nil,
          List.foldl_cons, List.foldl_nil, true_and]
        split_ifs <;> (congr 1; omega)
      · simp [hk]

/-- **A segment of its own direction** leaves a course read off. -/
lemma ReadOff.send {c : Course} (h : ReadOff x.dir l c) (cfg : EngineConfig) :
    ReadOff x.dir (l ++ [x]) (c.send x cfg) where
  sndNxt := by
    rw [sent_snoc, if_pos rfl, ← h.sndNxt]
    rfl
  acked := by
    rw [ackedUpTo_own rfl, ← h.acked]
    rfl
  frontier := by
    rw [dataOf_snoc]
    unfold Course.send
    simp only [true_and, h.frontier]
    split_ifs
    · rw [List.map_append]
      exact (max?_concat _ x.stop).symm
    · rfl
  lastDataTs := by
    unfold Course.send lastData
    simp only [dataOf_snoc, true_and, h.lastDataTs, lastData]
    split_ifs <;> simp

/-- **A segment of the other direction** leaves a course read off. -/
lemma ReadOff.ackBy {c : Course} (h : ReadOff x.dir.opposite l c) :
    ReadOff x.dir.opposite (l ++ [x]) (c.ackBy x) := by
  have hother : ¬ x.dir = x.dir.opposite := by cases x.dir <;> decide
  have hback : x.dir = x.dir.opposite.opposite := by cases x.dir <;> rfl
  have hdata : dataOf x.dir.opposite (l ++ [x]) = dataOf x.dir.opposite l := by
    rw [dataOf_snoc, if_neg fun h => hother h.1]
  unfold Course.ackBy
  refine ⟨?_, ?_, ?_, ?_⟩
  · rw [sent_snoc, if_neg hother, ← h.sndNxt]
    split <;> rfl
  · rw [ackedUpTo_peer hback, ← h.acked, ← h.sndNxt]
    unfold Course.advances
    split <;> rfl
  · rw [hdata, ← h.frontier]
    split <;> rfl
  · unfold lastData
    rw [hdata]
    split <;> exact h.lastDataTs

end Snoc

lemma readOff_run (cfg : EngineConfig) (l : List Placed) :
    ∀ d, ReadOff d l ((run (next cfg) new l).get d) := by
  induction l using List.reverseRecOn with
  | nil =>
      intro d
      cases d <;> exact ⟨rfl, rfl, rfl, rfl⟩
  | append_singleton l x ih =>
      rw [run_snoc]
      generalize run (next cfg) new l = m at ih
      refine (Direction.forall_iff x.dir).mpr ⟨?_, ?_⟩
      · have hget : (m.next cfg x).get x.dir = (m.get x.dir).send x cfg := by simp [next]
        rw [hget]
        exact (ih x.dir).send cfg
      · have hget : (m.next cfg x).get x.dir.opposite = (m.get x.dir.opposite).ackBy x := by
          simp [next]
        rw [hget]
        exact (ih x.dir.opposite).ackBy

/-- Data that starts before where earlier data of its direction ends. -/
def Behind (p : List Placed) (x : Placed) : Prop :=
  x.seg.isData = true ∧ ∃ y ∈ dataOf x.dir p, x.pos < y.stop

instance (p : List Placed) (x : Placed) : Decidable (Behind p x) :=
  inferInstanceAs (Decidable (_ ∧ _))

lemma any_frontier_iff {l : List ℤ} {n : ℤ} : l.max?.any (n < ·) = true ↔ ∃ a ∈ l, n < a := by
  cases hm : l.max? with
  | none =>
      rw [List.max?_eq_none_iff] at hm
      simp [hm]
  | some m =>
      have hle := List.max?_le_iff hm (x := n)
      simp only [Option.any_some, decide_eq_true_iff]
      rw [← not_le, hle]
      simp

/-- **Resent or out of order**: data that starts before where earlier data ends, and which of
the two by the time since the last data. -/
lemma classify_read_off {m : Courses} {p : List Placed} {x : Placed} {cfg : EngineConfig}
    (h : ReadOff x.dir p (m.get x.dir)) :
    (((m.get x.dir).classify x cfg).1 = true ↔ Behind p x ∧
      ∀ t ∈ lastData x.dir p, cfg.reorderWindow.ns ≤ x.seg.ts.ns - t.ns) ∧
    (((m.get x.dir).classify x cfg).2 = true ↔ Behind p x ∧
      ∃ t ∈ lastData x.dir p, x.seg.ts.ns - t.ns < cfg.reorderWindow.ns) := by
  have hb : Behind p x ↔
      (x.seg.isData && (m.get x.dir).frontier.any (x.pos < ·)) = true := by
    rw [Bool.and_eq_true, h.frontier, any_frontier_iff]
    simp [Behind]
  have hmax := cfg.reorderWindow.le_max
  rw [hb, ← h.lastDataTs]
  unfold Course.classify
  cases (x.seg.isData && (m.get x.dir).frontier.any (x.pos < ·)) with
  | false => simp
  | true =>
      cases (m.get x.dir).lastDataTs with
      | none => simp [not_lt.mpr hmax]
      | some t =>
          by_cases hgap : x.seg.ts.ns - t.ns < cfg.reorderWindow.ns
          · simp [hgap]
          · simp [hgap, not_lt.mp hgap]

/-- **What a sample says**, read off the history of its connection: in flight is how far its
direction has sent less how far that is acknowledged; and it is a retransmission, or out of
order, if it is data that starts before where earlier data ends. -/
theorem sample_read_off (cfg : EngineConfig) {xs : List Placed}
    (h : Steps (next cfg) new Near xs) {p : List Placed} {x : Placed} (hp : p ++ [x] <+: xs) :
    let s := ((run (onWire cfg) .new p).observe x.seg x.dir cfg).2
    (∃ snd acked, sent x.dir (p ++ [x]) = some snd ∧ ackedUpTo x.dir (p ++ [x]) = some acked ∧
      s.inFlightBytes = (snd - acked).toNat) ∧
    (s.retransmit = true ↔ Behind p x ∧
      ∀ t ∈ lastData x.dir p, cfg.reorderWindow.ns ≤ x.seg.ts.ns - t.ns) ∧
    (s.outOfOrder = true ↔ Behind p x ∧
      ∃ t ∈ lastData x.dir p, x.seg.ts.ns - t.ns < cfg.reorderWindow.ns) := by
  intro s
  have hs : s = (run (next cfg) new p).sample cfg x := by
    change ((run (onWire cfg) .new p).observe x.seg x.dir cfg).2 = _
    rw [run_onWire (h.initial ((List.prefix_append p [x]).trans hp))]
    exact congrArg Prod.snd (observe_words (h p x hp))
  have hr := readOff_run cfg p x.dir
  rw [hs]
  have hsent : sent x.dir (p ++ [x]) = some (further (sent x.dir p) x.stop) := by
    rw [sent_snoc, if_pos rfl]
  refine ⟨⟨_, _, hsent, ackedUpTo_own rfl, ?_⟩, classify_read_off hr⟩
  rw [← hr.sndNxt, ← hr.acked]
  rfl

/-- The part that was lost is taken for a retransmission when it comes. -/
theorem sample_read_off_crossing :
    ((run (onWire {}) .new (crossing.take 4)).observe crossing[4].seg crossing[4].dir
      {}).2.retransmit = true :=
  (sample_read_off {} near_crossing (p := crossing.take 4) (x := crossing[4])
    ⟨crossing.drop 5, rfl⟩).2.1.mpr (by decide +kernel)

end Courses

end TcpVisr
