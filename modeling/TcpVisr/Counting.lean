import TcpVisr.Pending

/-!
Clean conversations.

In a clean conversation each direction sends its numbers in order and without gaps, and is
acknowledged by prefixes that never shrink. Counted without bound from a direction's first
segment, what its metrics ought to be is plain. This module states that count and proves
that the derivation, which sees 32-bit numbers only, agrees with it.
-/

namespace TcpVisr

open TcpSeq Observing Lib.Runs Lib.Serial

/-- One direction of a conversation, counted from the first number it sends. -/
structure Stream where
  /-- The number the count starts at, once there is one. -/
  base : Option TcpSeq := none
  sent : ℕ := 0
  acked : ℕ := 0
  /-- Where each segment that consumed something ended, and when it was sent. -/
  sends : List (ℕ × Nanos) := []
  /-- Where the last data segment ended. -/
  dataEnd : Option ℕ := none
  syn : Bool := false
  fin : Bool := false

namespace Stream

/-- The stream after a segment of its own. -/
def send (s : Stream) (seg : Segment) : Stream where
  base := some (s.base.getD seg.seq)
  sent := s.sent + seg.len
  acked := s.acked
  sends := if seg.consumes then s.sends ++ [(s.sent + seg.len, seg.ts)] else s.sends
  dataEnd := if seg.isData then some (s.sent + seg.len) else s.dataEnd
  syn := s.syn || seg.flags.syn
  fin := s.fin || seg.flags.fin

/-- The stream after a segment of its peer that acknowledges its first `n` numbers. -/
def ackTo (s : Stream) (seg : Segment) (n : ℕ) : Stream :=
  if seg.flags.ack ∧ s.base.isSome then { s with acked := n } else s

/-- The numbers sent and not acknowledged. -/
def inFlight (s : Stream) : Option ℕ := s.base.map fun _ => s.sent - s.acked

/-- The round trip of the first send that an acknowledgement up to `n` newly covers. -/
def rtt (s : Stream) (seg : Segment) (n : ℕ) : Option Nanos :=
  if seg.flags.ack ∧ s.acked < n then
    (s.sends.find? fun e => s.acked < e.1 ∧ e.1 ≤ n).map fun e => seg.ts.saturatingSub e.2
  else none

end Stream

/-- A segment, its direction, and how much of the opposite stream it acknowledges. -/
structure Turn where
  seg : Segment
  dir : Direction
  upTo : ℕ

/-- The derivation beside the two streams it watches. -/
structure Conversation where
  metrics : MetricState
  streams : PerDir Stream

namespace Conversation

def new : Conversation := ⟨.new, ⟨{}, {}⟩⟩

variable (cfg : EngineConfig) (w : Conversation) (x : Turn)

def own : Stream := w.streams.get x.dir
def peer : Stream := w.streams.get x.dir.opposite

def observe : Conversation where
  metrics := (w.metrics.observe x.seg x.dir cfg).1
  streams := (w.streams.set x.dir ((w.own x).send x.seg)).set x.dir.opposite
    ((w.peer x).ackTo x.seg x.upTo)

/-- What a clean conversation may go on with. -/
structure Clean (w : Conversation) (x : Turn) : Prop where
  inOrder : x.seg.seq = mark ((w.own x).base.getD x.seg.seq) (w.own x).sent
  oneSyn : x.seg.flags.syn = true → (w.own x).syn = false
  oneFin : x.seg.flags.fin = true → (w.own x).fin = false
  ack : x.seg.flags.ack = true → ∀ b ∈ (w.peer x).base,
    x.seg.ack = mark b x.upTo ∧ (w.peer x).acked ≤ x.upTo ∧ x.upTo ≤ (w.peer x).sent
  bounded : (w.own x).sent + x.seg.len - (w.own x).acked < 2 ^ 31

/-- A data segment ends within half a cycle of the data before it. -/
def Close (w : Conversation) (x : Turn) : Prop :=
  x.seg.isData = true → ∀ f ∈ (w.own x).dataEnd, (w.own x).sent + x.seg.len ≤ f + 2 ^ 31

/-- What the derivation reports for a segment, and what it answers afterwards. -/
structure Exact (cfg : EngineConfig) (w : Conversation) (x : Turn) : Prop where
  retransmit : (w.metrics.observe x.seg x.dir cfg).2.retransmit = false
  outOfOrder : (w.metrics.observe x.seg x.dir cfg).2.outOfOrder = false
  inFlight : some (w.metrics.observe x.seg x.dir cfg).2.inFlightBytes =
    ((w.own x).send x.seg).inFlight
  rtt : (w.metrics.observe x.seg x.dir cfg).2.rtt = (w.peer x).rtt x.seg x.upTo
  outstanding : ∀ d, (w.observe cfg x).metrics.inFlight d =
    ((w.observe cfg x).streams.get d).inFlight
  goodput : ∀ d t, ∀ q ∈ (w.observe cfg x).metrics.throughputAt d t cfg, q.2 = q.1

end Conversation

/-! ### What a direction keeps -/

namespace Counting

variable {cfg : EngineConfig} {b : TcpSeq} {D : DirState} {s : Stream} {seg : Segment} {n : ℕ}

/-- The parts of a direction's state that do not name its marks. -/
structure Books (b : TcpSeq) (D : DirState) (s : Stream) : Prop where
  frontier : D.frontier = s.dataEnd.map fun f : ℕ => mark b f
  dataEnd : ∀ f, s.dataEnd = some f → f ≤ s.sent ∧ s.sent ≤ f + s.syn.toNat + s.fin.toNat
  pending : D.pendingRtt =
    (s.sends.filter fun e => s.acked < e.1).map fun e => (mark b e.1, e.2)
  le : s.acked ≤ s.sent
  room : s.sent < s.acked + 2 ^ 31
  ends : ∀ e ∈ s.sends, e.1 ≤ s.sent
  sorted : s.sends.Pairwise fun e f => e.1 < f.1
  good : ∀ e ∈ D.tput, e.2.2 = false

/-- The state of a direction that has sent. -/
structure Carries (b : TcpSeq) (D : DirState) (s : Stream) : Prop extends Books b D s where
  base : s.base = some b
  sndNxt : D.sndNxt = some (mark b s.sent)
  acked : D.acked = some (mark b s.acked)

/-- The state of any direction: blank before its first segment. -/
def Tracks (D : DirState) (s : Stream) : Prop := D = {} ∧ s = {} ∨ ∃ b, Carries b D s

lemma books_blank (b : TcpSeq) : Books b {} {} where
  frontier := rfl
  dataEnd := by simp
  pending := rfl
  le := le_rfl
  room := by simp
  ends := by simp
  sorted := List.Pairwise.nil
  good := by simp

/-! ### The direction that sends -/

/-- In order, nothing lies behind the frontier. -/
lemma classify_inOrder (cfg : EngineConfig) (h : Books b D s) (hseq : seg.seq = mark b s.sent) :
    classify D seg cfg = (false, false) := by
  unfold classify
  rw [h.frontier]
  cases hf : s.dataEnd with
  | none => simp
  | some f =>
      obtain ⟨h1, h2⟩ := h.dataEnd f hf
      have hsyn := Bool.toNat_le s.syn
      have hfin := Bool.toNat_le s.fin
      have hlt : seg.seq.serialLt (mark b f) = false := by
        rw [hseq, serialLt_mark (by omega) (by omega)]
        simpa using h1
      simp [hlt]

lemma seqEnd_inOrder (hseq : seg.seq = mark b s.sent) :
    seqEnd seg = mark b (s.sent + seg.len : ℕ) := by
  rw [seqEnd_eq_mark, hseq, ← mark_add, Nat.cast_add]

/-- What a segment of a clean direction meets. -/
structure InOrder (b : TcpSeq) (s : Stream) (seg : Segment) : Prop where
  seq : seg.seq = mark b s.sent
  syn : seg.flags.syn = true → s.syn = false
  fin : seg.flags.fin = true → s.fin = false
  bounded : s.sent + seg.len - s.acked < 2 ^ 31
  close : seg.isData = true → ∀ f ∈ s.dataEnd, s.sent + seg.len ≤ f + 2 ^ 31

lemma frontier_send (h : Books b D s) (hx : InOrder b s seg) :
    (observeOwn D seg cfg).frontier = (s.send seg).dataEnd.map fun f : ℕ => mark b f := by
  rw [observeOwn_frontier, h.frontier, seqEnd_inOrder hx.seq]
  unfold Stream.send
  cases hd : seg.isData with
  | false => rfl
  | true =>
      cases hf : s.dataEnd with
      | none => rfl
      | some f =>
          have hc := hx.close hd f hf
          have hf' := (h.dataEnd f hf).1
          simp only [Option.map_some, if_true]
          rw [serialMax_mark (by omega) (by omega), max_eq_right (by omega)]

/-- Since its last data a direction has sent at most a SYN and a FIN. -/
lemma dataEnd_send (h : Books b D s) (hx : InOrder b s seg) {f : ℕ}
    (hf : (s.send seg).dataEnd = some f) :
    f ≤ (s.send seg).sent ∧
      (s.send seg).sent ≤ f + (s.send seg).syn.toNat + (s.send seg).fin.toNat := by
  unfold Stream.send at hf ⊢
  cases hd : seg.isData with
  | true =>
      obtain rfl : s.sent + seg.len = f := by simpa [hd] using hf
      dsimp only
      omega
  | false =>
      obtain ⟨h1, h2⟩ := h.dataEnd f (by simpa [hd] using hf)
      have hlen : seg.len = seg.flags.syn.toNat + seg.flags.fin.toNat := by
        have : seg.payloadLen.toNat = 0 := by simpa [Segment.isData] using hd
        rw [Segment.len, this, zero_add]
      have hsyn : (s.syn || seg.flags.syn).toNat = s.syn.toNat + seg.flags.syn.toNat := by
        have := hx.syn
        cases hs : seg.flags.syn <;> simp_all
      have hfin : (s.fin || seg.flags.fin).toNat = s.fin.toNat + seg.flags.fin.toNat := by
        have := hx.fin
        cases hs : seg.flags.fin <;> simp_all
      dsimp only
      omega

lemma pending_send (h : Books b D s) (hx : InOrder b s seg) :
    (observeOwn D seg cfg).pendingRtt =
      ((s.send seg).sends.filter fun e => (s.send seg).acked < e.1).map
        fun e => (mark b e.1, e.2) := by
  have hle := h.le
  rw [observeOwn_pendingRtt, classify_inOrder cfg h hx.seq, h.pending, entry, seqEnd_inOrder hx.seq]
  unfold Stream.send
  cases hc : seg.consumes with
  | false => rfl
  | true =>
      have hpos := (len_pos_iff seg).mpr hc
      have hnew : s.acked < s.sent + seg.len := by omega
      simp [List.filter_append, hnew]

lemma sorted_send (h : Books b D s) :
    (s.send seg).sends.Pairwise fun e f => e.1 < f.1 := by
  unfold Stream.send
  cases hc : seg.consumes with
  | false => simpa using h.sorted
  | true =>
      have hpos := (len_pos_iff seg).mpr hc
      have hnew : ∀ e ∈ s.sends, e.1 < s.sent + seg.len := by
        intro e he
        have := h.ends e he
        omega
      simpa [List.pairwise_append, h.sorted] using fun e ts he => hnew (e, ts) he

lemma ends_send (h : Books b D s) : ∀ e ∈ (s.send seg).sends, e.1 ≤ (s.send seg).sent := by
  intro e he
  unfold Stream.send at he ⊢
  dsimp only at he ⊢
  split at he
  · rcases List.mem_append.mp he with he | he
    · have := h.ends e he
      omega
    · simp only [List.mem_singleton] at he
      rw [he]
  · have := h.ends e he
    omega

lemma good_send (h : Books b D s) (hx : InOrder b s seg) :
    ∀ e ∈ (observeOwn D seg cfg).tput, e.2.2 = false := by
  intro e he
  rcases mem_observeOwn_tput D seg cfg he with he | rfl
  · exact h.good e he
  · rw [classify_inOrder cfg h hx.seq]

/-- **A send that is in order** keeps the books as the stream counts. -/
lemma books_send (h : Books b D s) (hx : InOrder b s seg) :
    Books b (observeOwn D seg cfg) (s.send seg) where
  frontier := frontier_send h hx
  dataEnd := fun _ hf => dataEnd_send h hx hf
  pending := pending_send h hx
  le := h.le.trans (Nat.le_add_right s.sent seg.len)
  room := by
    have hle := h.le
    have hroom := hx.bounded
    change s.sent + seg.len < s.acked + 2 ^ 31
    omega
  ends := ends_send h
  sorted := sorted_send h
  good := good_send h hx

/-- The marks after a send, from those before it. -/
lemma carries_send (h : Carries b D s) (hx : InOrder b s seg) :
    Carries b (observeOwn D seg cfg) (s.send seg) where
  toBooks := books_send h.toBooks hx
  base := by simp [Stream.send, h.base]
  sndNxt := by
    have hle := h.le
    have hroom := hx.bounded
    rw [observeOwn_sndNxt, h.sndNxt, seqEnd_inOrder hx.seq, serialMax_mark (by omega) (by omega),
      max_eq_right (by omega)]
    rfl
  acked := by
    rw [observeOwn_acked, h.acked]
    rfl

/-- The first segment of a direction starts the count. -/
lemma carries_first (hx : InOrder b {} seg) :
    Carries b (observeOwn {} seg cfg) (({} : Stream).send seg) where
  toBooks := books_send (books_blank b) hx
  base := by
    have := hx.seq
    simp [Stream.send, this]
  sndNxt := by
    rw [observeOwn_sndNxt, seqEnd_inOrder hx.seq]
    rfl
  acked := by
    rw [observeOwn_acked]
    exact congrArg some hx.seq

/-! ### The direction that is acknowledged -/

/-- An acknowledgement of a prefix that does not shrink. -/
def Prefix (b : TcpSeq) (s : Stream) (seg : Segment) (n : ℕ) : Prop :=
  seg.flags.ack = true → seg.ack = mark b n ∧ s.acked ≤ n ∧ n ≤ s.sent

lemma ackAdvances_prefix (h : Carries b D s) (hx : Prefix b s seg n) :
    ackAdvances D seg = decide (seg.flags.ack = true ∧ s.acked < n) := by
  unfold ackAdvances
  rw [h.sndNxt, h.acked]
  cases ha : seg.flags.ack with
  | false => simp
  | true =>
      obtain ⟨hack, h1, h2⟩ := hx ha
      have hroom := h.room
      simp only [hack, serialGt]
      rw [serialLt_mark (by omega) (by omega)]
      simp

/-- What waits: the sends past the acknowledged prefix. -/
def waiting (s : Stream) : List (ℕ × Nanos) := s.sends.filter fun e => s.acked < e.1

lemma covered_waiting (h : Carries b D s) (hack : seg.ack = mark b n) (h1 : s.acked ≤ n)
    (h2 : n ≤ s.sent) {e : ℕ × Nanos} (he : e ∈ waiting s) :
    covered seg.ack (mark b e.1, e.2) = decide (e.1 ≤ n) := by
  have hroom := h.room
  have hend := h.ends e (List.mem_of_mem_filter he)
  have hgt : s.acked < e.1 := by simpa using List.of_mem_filter he
  unfold covered
  rw [hack, serialLe_mark (by omega) (by omega)]
  simp

lemma front_waiting (h : Carries b D s) (hack : seg.ack = mark b n) (h1 : s.acked ≤ n)
    (h2 : n ≤ s.sent) :
    ((waiting s).map fun e => (mark b e.1, e.2)).Pairwise fun e f =>
      covered seg.ack f = true → covered seg.ack e = true := by
  rw [List.pairwise_map]
  refine (h.sorted.filter _).imp_of_mem fun he hf hlt => ?_
  rw [covered_waiting h hack h1 h2 he, covered_waiting h hack h1 h2 hf]
  simp only [decide_eq_true_iff]
  omega

/-- **The pop** leaves what lies past the new prefix. -/
lemma dropWhile_waiting (h : Carries b D s) (hack : seg.ack = mark b n) (h1 : s.acked ≤ n)
    (h2 : n ≤ s.sent) :
    D.pendingRtt.dropWhile (covered seg.ack) =
      (s.sends.filter fun e => n < e.1).map fun e => (mark b e.1, e.2) := by
  have hcov : ∀ e ∈ waiting s,
      (!covered seg.ack (mark b e.1, e.2)) = decide (n < e.1) := by
    intro e he
    rw [covered_waiting h hack h1 h2 he, ← decide_not]
    exact decide_eq_decide.mpr not_le
  have hboth : ∀ e ∈ s.sends, (decide (n < e.1) && decide (s.acked < e.1)) = decide (n < e.1) := by
    intro e _
    by_cases hn : n < e.1
    · simp [hn, h1.trans_lt hn]
    · simp [hn]
  calc D.pendingRtt.dropWhile (covered seg.ack)
      = ((waiting s).map fun e => (mark b e.1, e.2)).filter fun e => !covered seg.ack e := by
        rw [h.pending]
        exact Lib.Front.dropWhile_eq_filter (front_waiting h hack h1 h2)
    _ = ((waiting s).filter fun e => n < e.1).map fun e => (mark b e.1, e.2) := by
        rw [List.filter_map]
        exact congrArg _ (List.filter_congr hcov)
    _ = (s.sends.filter fun e => n < e.1).map fun e => (mark b e.1, e.2) := by
        rw [waiting, List.filter_filter, List.filter_congr hboth]

/-- **The round trip** is that of the first send between the two prefixes. -/
lemma head_waiting (h : Carries b D s) (hack : seg.ack = mark b n) (h1 : s.acked ≤ n)
    (h2 : n ≤ s.sent) :
    D.pendingRtt.head?.filter (covered seg.ack) =
      (s.sends.find? fun e => s.acked < e.1 ∧ e.1 ≤ n).map fun e => (mark b e.1, e.2) := by
  have hcov : ∀ e ∈ waiting s, covered seg.ack (mark b e.1, e.2) = decide (e.1 ≤ n) :=
    fun e he => covered_waiting h hack h1 h2 he
  calc D.pendingRtt.head?.filter (covered seg.ack)
      = ((waiting s).map fun e => (mark b e.1, e.2)).find? (covered seg.ack) := by
        rw [h.pending]
        exact Lib.Front.filter_head?_eq_find? (front_waiting h hack h1 h2)
    _ = ((waiting s).filter fun e => e.1 ≤ n).head?.map fun e => (mark b e.1, e.2) := by
        rw [List.find?_map, ← List.head?_filter]
        exact congrArg _ (congrArg _ (List.filter_congr hcov))
    _ = (s.sends.find? fun e => s.acked < e.1 ∧ e.1 ≤ n).map fun e => (mark b e.1, e.2) := by
        rw [List.head?_filter, waiting, List.find?_filter]
        simp

/-- An acknowledgement that does not advance changes neither side. -/
lemma ackTo_of_le (hx : Prefix b s seg n) (ha : ¬ (seg.flags.ack = true ∧ s.acked < n)) :
    s.ackTo seg n = s := by
  unfold Stream.ackTo
  split
  · next hack =>
      have hle := (hx hack.1).2.1
      obtain rfl : n = s.acked := by
        by_contra hne
        exact ha ⟨hack.1, by omega⟩
      rfl
  · rfl

/-- **An acknowledged prefix** moves the mark as the count moves. -/
lemma carries_ackTo (h : Carries b D s) (hx : Prefix b s seg n) :
    Carries b (observePeer D seg) (s.ackTo seg n) := by
  have hadv := ackAdvances_prefix h hx
  by_cases ha : seg.flags.ack = true ∧ s.acked < n
  · obtain ⟨hack, h1, h2⟩ := hx ha.1
    have hroom := h.room
    have hto : s.ackTo seg n = { s with acked := n } := if_pos ⟨ha.1, by simp [h.base]⟩
    have hadv' : ackAdvances D seg = true := by rw [hadv, decide_eq_true ha]
    rw [hto]
    exact
      { frontier := by rw [observePeer_frontier, h.frontier]
        dataEnd := h.dataEnd
        pending := by
          rw [observePeer_pendingRtt, if_pos hadv', dropWhile_waiting h hack h1 h2]
        le := h2
        room := by
          change s.sent < n + 2 ^ 31
          omega
        ends := h.ends
        sorted := h.sorted
        good := by
          rw [observePeer_tput]
          exact h.good
        base := h.base
        sndNxt := by rw [observePeer_sndNxt, h.sndNxt]
        acked := by rw [observePeer_acked, if_pos hadv', hack] }
  · have hpeer : observePeer D seg = D := by
      unfold observePeer
      rw [hadv, if_neg (by simpa using ha)]
    rw [hpeer, ackTo_of_le hx ha]
    exact h

/-- The round trip an acknowledged prefix measures. -/
lemma rttOf_prefix (h : Carries b D s) (hx : Prefix b s seg n) :
    rttOf D seg = s.rtt seg n := by
  unfold Stream.rtt
  rw [rttOf_eq, ackAdvances_prefix h hx]
  by_cases ha : seg.flags.ack = true ∧ s.acked < n
  · obtain ⟨hack, h1, h2⟩ := hx ha.1
    rw [if_pos (decide_eq_true ha), if_pos ha, head_waiting h hack h1 h2, Option.map_map]
    rfl
  · rw [if_neg (by simpa using ha), if_neg ha]

/-! ### Queries -/

lemma inFlight_tracks {m : MetricState} {d : Direction} (h : Tracks (m.dir.get d) s) :
    m.inFlight d = s.inFlight := by
  unfold MetricState.inFlight Stream.inFlight
  rcases h with ⟨hD, rfl⟩ | ⟨b, h⟩
  · rw [hD]
    rfl
  · have hle := h.le
    have hroom := h.room
    have hout : outstanding (mark b s.acked) (mark b s.sent) = s.sent - s.acked := by
      have := outstanding_mark (b := b) (m := s.acked) (n := s.sent) (by omega) (by omega)
      omega
    simp only [h.sndNxt, h.acked, h.base, hout, Option.map_some]

lemma good_tracks (h : Tracks D s) : ∀ e ∈ D.tput, e.2.2 = false := by
  rcases h with ⟨rfl, -⟩ | ⟨b, h⟩
  · simp
  · exact h.good

/-- Over entries that are no retransmissions the two sums stay equal. -/
lemma foldl_good (t : Nanos) (W : ℕ) {l : List (Nanos × BitVec 32 × Bool)}
    (hl : ∀ e ∈ l, e.2.2 = false) (n : ℕ) :
    ∃ k, l.foldl (fun (acc : ℕ × ℕ) e =>
      if t.ns < e.1.ns + W ∧ e.1.ns ≤ t.ns then
        (acc.1 + e.2.1.toNat, if e.2.2 then acc.2 else acc.2 + e.2.1.toNat)
      else acc) (n, n) = (k, k) := by
  induction l generalizing n with
  | nil => exact ⟨n, rfl⟩
  | cons e l ih =>
      obtain ⟨he, hl⟩ := List.forall_mem_cons.mp hl
      simp only [List.foldl_cons, he, Bool.false_eq_true, if_false]
      split
      · exact ih hl _
      · exact ih hl n

/-- Without retransmissions in the window, goodput is throughput. -/
lemma goodput_eq {m : MetricState} {d : Direction} {t : Nanos} {q : ℕ × ℕ}
    (hgood : ∀ e ∈ (m.dir.get d).tput, e.2.2 = false) (hq : m.throughputAt d t cfg = some q) :
    q.2 = q.1 := by
  obtain ⟨k, hk⟩ := foldl_good t cfg.throughputWindow.ns hgood 0
  unfold MetricState.throughputAt at hq
  dsimp only at hq
  rw [hk] at hq
  split at hq
  · exact absurd hq (by simp)
  · split at hq <;> obtain rfl := Option.some.inj hq <;> rfl

end Counting

/-! ### Runs -/

namespace Conversation

open Counting

variable {cfg : EngineConfig} {w : Conversation} {x : Turn}

/-- Both directions are as their streams count them. -/
def Tracked (w : Conversation) : Prop := ∀ d, Tracks (w.metrics.dir.get d) (w.streams.get d)

lemma tracked_new : new.Tracked := by
  intro d
  cases d <;> exact Or.inl ⟨rfl, rfl⟩

/-- **Every clean segment** is in order for the direction it belongs to. -/
lemma inOrder_of_clean (cfg : EngineConfig) (h : Tracked w) (hx : Clean w x) (hc : Close w x) :
    ∃ b, Books b (w.metrics.dir.get x.dir) (w.own x) ∧ InOrder b (w.own x) x.seg ∧
      Carries b (observeOwn (w.metrics.dir.get x.dir) x.seg cfg) ((w.own x).send x.seg) := by
  have hin (b : TcpSeq) (hb : (w.own x).base.getD x.seg.seq = b) : InOrder b (w.own x) x.seg := by
    refine ⟨?_, hx.oneSyn, hx.oneFin, hx.bounded, hc⟩
    rw [← hb]
    exact hx.inOrder
  rcases h x.dir with ⟨hD, hs⟩ | ⟨b, hb⟩
  · have ho : w.own x = {} := hs
    have hfirst := hin x.seg.seq (by rw [ho]; rfl)
    rw [ho] at hfirst ⊢
    rw [hD]
    exact ⟨x.seg.seq, books_blank _, hfirst, carries_first hfirst⟩
  · have hbase : (w.own x).base = some b := hb.base
    have hnext := hin b (by rw [hbase]; rfl)
    exact ⟨b, hb.toBooks, hnext, carries_send hb hnext⟩

/-- What the peer's stream makes of a clean segment. -/
lemma tracks_peer (h : Tracked w) (hx : Clean w x) :
    Tracks (observePeer (w.metrics.dir.get x.dir.opposite) x.seg)
        ((w.peer x).ackTo x.seg x.upTo) ∧
      rttOf (w.metrics.dir.get x.dir.opposite) x.seg = (w.peer x).rtt x.seg x.upTo := by
  rcases h x.dir.opposite with ⟨hD, hs⟩ | ⟨b, hb⟩
  · have hp : w.peer x = {} := hs
    have hadv : ackAdvances {} x.seg = false := by simp [ackAdvances]
    rw [hD, hp]
    refine ⟨Or.inl ⟨?_, ?_⟩, ?_⟩
    · rw [observePeer, hadv, if_neg (by simp)]
    · rw [Stream.ackTo, if_neg (by simp)]
    · rw [rttOf, hadv, if_neg (by simp), Stream.rtt]
      split <;> rfl
  · have hpre : Prefix b (w.peer x) x.seg x.upTo := fun ha => hx.ack ha b hb.base
    exact ⟨Or.inr ⟨b, carries_ackTo hb hpre⟩, rttOf_prefix hb hpre⟩

lemma tracked_observe (cfg : EngineConfig) (h : Tracked w) (hx : Clean w x) (hc : Close w x) :
    (w.observe cfg x).Tracked := by
  obtain ⟨b, -, -, hown⟩ := inOrder_of_clean cfg h hx hc
  refine (Direction.forall_iff x.dir).mpr ⟨?_, ?_⟩
  · simpa [observe] using (show Tracks _ _ from Or.inr ⟨b, hown⟩)
  · simpa [observe] using (tracks_peer h hx).1

/-- **A clean segment** is reported exactly. -/
lemma exact_of_tracked (h : Tracked w) (hx : Clean w x) (hc : Close w x) : Exact cfg w x := by
  have hafter := tracked_observe cfg h hx hc
  obtain ⟨b, hbooks, hin, hown⟩ := inOrder_of_clean cfg h hx hc
  have hcls := classify_inOrder cfg hbooks hin.seq
  have houtstanding : ∀ d, (w.observe cfg x).metrics.inFlight d =
      ((w.observe cfg x).streams.get d).inFlight := fun d => inFlight_tracks (hafter d)
  have hsample : (w.observe cfg x).metrics.inFlight x.dir = ((w.own x).send x.seg).inFlight := by
    simpa [observe] using houtstanding x.dir
  refine ⟨?_, ?_, ?_, ?_, houtstanding, ?_⟩
  · rw [observe_retransmit, hcls]
  · rw [observe_outOfOrder, hcls]
  · rw [← hsample]
    exact (inFlight_observe w.metrics x.seg x.dir cfg).symm
  · rw [observe_rtt]
    exact (tracks_peer h hx).2
  · intro d t q hq
    exact goodput_eq (good_tracks (hafter d)) hq

/-- Whatever makes the segments of tracked directions clean and close makes them exact. -/
lemma exact_of_steps {G : Conversation → Turn → Prop} {xs : List Turn}
    (hG : ∀ w x, Tracked w → G w x → Clean w x ∧ Close w x)
    (h : Steps (observe cfg) new G xs) : Steps (observe cfg) new (Exact cfg) xs := by
  intro p x hp
  have htracked : Tracked (run (observe cfg) new p) := by
    refine inv_of_steps tracked_new (fun w x hw hg => ?_)
      (h.initial ((List.prefix_append p [x]).trans hp))
    exact tracked_observe cfg hw (hG w x hw hg).1 (hG w x hw hg).2
  have hx := hG _ x htracked (h p x hp)
  exact exact_of_tracked htracked hx.1 hx.2

/-- **Clean conversations are measured exactly**: at every segment of every run whose
segments are clean and whose data ends within half a cycle of the data before it. -/
theorem exact_of_clean (cfg : EngineConfig) (xs : List Turn)
    (hx : Steps (observe cfg) new Clean xs) (hc : Steps (observe cfg) new Close xs) :
    Steps (observe cfg) new (Exact cfg) xs :=
  exact_of_steps (fun _ _ _ h => h) fun p x hp => ⟨hx p x hp, hc p x hp⟩

/-- A segment shorter than half a cycle by two stays close. -/
lemma close_of_short (h : Tracked w) (hl : x.seg.len + 2 ≤ 2 ^ 31) : Close w x := by
  intro _ f hf
  rcases h x.dir with ⟨-, hs⟩ | ⟨b, hb⟩
  · rw [own, hs] at hf
    exact absurd hf (by simp)
  · obtain ⟨-, hlag⟩ := hb.dataEnd f hf
    have hsyn := Bool.toNat_le (w.streams.get x.dir).syn
    have hfin := Bool.toNat_le (w.streams.get x.dir).fin
    unfold own
    omega

/-- Of segments as short as a packet can carry, nothing but cleanness is asked. -/
theorem exact_of_short (cfg : EngineConfig) (xs : List Turn)
    (hl : ∀ x ∈ xs, x.seg.len + 2 ≤ 2 ^ 31) (hx : Steps (observe cfg) new Clean xs) :
    Steps (observe cfg) new (Exact cfg) xs := by
  refine exact_of_steps (G := fun w x => Clean w x ∧ x.seg.len + 2 ≤ 2 ^ 31)
    (fun w x hw hg => ⟨hg.1, close_of_short hw hg.2⟩) fun p x hp => ⟨hx p x hp, hl x ?_⟩
  exact hp.subset (by simp)

lemma clean_iff {w : Conversation} {x : Turn} : Clean w x ↔
    (x.seg.seq = mark ((w.own x).base.getD x.seg.seq) (w.own x).sent ∧
      (x.seg.flags.syn = true → (w.own x).syn = false) ∧
      (x.seg.flags.fin = true → (w.own x).fin = false) ∧
      (x.seg.flags.ack = true → (w.peer x).base.all fun b =>
        x.seg.ack = mark b x.upTo ∧ (w.peer x).acked ≤ x.upTo ∧ x.upTo ≤ (w.peer x).sent) ∧
      (w.own x).sent + x.seg.len - (w.own x).acked < 2 ^ 31) := by
  simp only [Option.all_eq_true, decide_eq_true_eq]
  exact ⟨fun ⟨h1, h2, h3, h4, h5⟩ => ⟨h1, h2, h3, h4, h5⟩,
    fun ⟨h1, h2, h3, h4, h5⟩ => ⟨h1, h2, h3, h4, h5⟩⟩

instance (w : Conversation) (x : Turn) : Decidable (Clean w x) := decidable_of_iff _ clean_iff.symm

instance (w : Conversation) (x : Turn) : Decidable (Close w x) :=
  inferInstanceAs (Decidable (_ → ∀ f ∈ _, _))

/-- A handshake, a request that wraps, its acknowledgement twice, and the end. -/
def session : List Turn :=
  [⟨.between 1 2 0 TcpFlags.SYN 0xffffff00, .originToResponder, 0⟩,
    ⟨.between 2 1 1000 (TcpFlags.SYN ||| TcpFlags.ACK) 7 0 0xffffff01, .responderToOrigin, 1⟩,
    ⟨.between 1 2 2000 TcpFlags.ACK 0xffffff01 500 8, .originToResponder, 1⟩,
    ⟨.between 2 1 3000 TcpFlags.ACK 8 0 0xf5, .responderToOrigin, 501⟩,
    ⟨.between 2 1 3500 TcpFlags.ACK 8 0 0xf5, .responderToOrigin, 501⟩,
    ⟨.between 1 2 4000 (TcpFlags.FIN ||| TcpFlags.ACK) 0xf5 0 8, .originToResponder, 1⟩]

theorem exact_of_clean_session : Steps (observe {}) new (Exact {}) session :=
  exact_of_clean {} session (by decide +kernel) (by decide +kernel)

/-- A SYN and a FIN after the first data, all acknowledged, and then a segment of almost half a
cycle. -/
def straggler : List Turn :=
  [⟨.between 2 1 0 0 0, .responderToOrigin, 0⟩,
    ⟨.between 1 2 0 0 0 1, .originToResponder, 0⟩,
    ⟨.between 1 2 0 TcpFlags.SYN 1, .originToResponder, 0⟩,
    ⟨.between 1 2 0 TcpFlags.FIN 2, .originToResponder, 0⟩,
    ⟨.between 2 1 0 TcpFlags.ACK 0 0 3, .responderToOrigin, 3⟩,
    ⟨.between 1 2 0 0 3 0x7fffffff, .originToResponder, 0⟩,
    ⟨.between 2 1 0 TcpFlags.ACK 0 0 0x80000002, .responderToOrigin, 0x80000002⟩,
    ⟨.between 1 2 0 0 0x80000002 1, .originToResponder, 0⟩]

/-- The frontier stays behind that segment, and the data after it counts as out of order. -/
theorem not_exact : Steps (observe {}) new Clean straggler ∧
    ¬ Steps (observe {}) new (Exact {}) straggler := by
  refine ⟨by decide +kernel, fun h => ?_⟩
  have hlast := (h (straggler.take 7) _ List.prefix_rfl).outOfOrder
  exact absurd hlast (by decide +kernel)

end Conversation

end TcpVisr
