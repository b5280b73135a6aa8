import TcpVisr.Series
import TcpVisr.Unwrap
import TcpVisr.Detail

/-!
Where the marks of the Time/Sequence plot stand.

Data and the left edges of the peer's SACK blocks are unwrapped by one frontier a direction.
As long as each of them lies near the largest before it, every mark stands where its bytes are
in the stream, over any number of wraps; and whatever the words are, it stands near enough for
the plot to compute with.
-/

namespace TcpVisr.Marks

open Slots Plan Index Appending Journal SeqUnwrap Lib.Runs Lib.Serial

/-- What a mark is made of: time, length, and the word whose place it stands at. -/
structure Cue where
  t : Nanos
  len : BitVec 32
  word : TcpSeq
  deriving DecidableEq

/-- The marks in direction `d` that a segment of direction `e` makes: its own data, or what it
says the opposite direction's data reached out of order. -/
def cues (d e : Direction) (seg : Segment) : List Cue :=
  if e = d then if seg.isData then [⟨seg.ts, seg.payloadLen, seg.seq⟩] else []
  else seg.options.sackBlocks.map fun block => ⟨seg.ts, 0, block.1⟩

/-- The marks in direction `d` of an instance with the segments `segs`. -/
def cuesOf (c : ConnTrack) (segs : List Segment) (d : Direction) : List Cue :=
  segs.flatMap fun seg => cues d (c.directionOf seg.flow.source) seg

/-- A mark less its kind. -/
def place (x : SeqSample) : Nanos × BitVec 32 × ℤ := (x.t, x.len, x.rel)

/-- The marks that `cues` come to at the places `rels`. -/
def placed (cues : List Cue) (rels : List ℤ) : List (Nanos × BitVec 32 × ℤ) :=
  List.zipWith (fun cue rel => (cue.t, cue.len, rel)) cues rels

/-- The marks of direction `d`. -/
def marksOf (d : Direction) (l : List SeqSample) : List SeqSample :=
  l.filter fun x => x.dir = d.sample

variable {cfg : EngineConfig} {c c' : ConnTrack} {segs : List Segment} {seg : Segment}
  {m : ℕ}

/-! ### One segment -/

/-- What is returned before does not matter to what is returned next. -/
lemma run_next (u : SeqUnwrap) (acc : List ℤ) (words : List TcpSeq) :
    run Feed.next ⟨u, acc⟩ words =
      ⟨(run Feed.next ⟨u, []⟩ words).unwrap,
        acc ++ (run Feed.next ⟨u, []⟩ words).returned⟩ := by
  induction words using List.reverseRecOn with
  | nil => simp
  | append_singleton words w ih => rw [run_snoc, run_snoc, ih]; simp [Feed.next]

lemma length_returned (u : SeqUnwrap) (words : List TcpSeq) :
    (run Feed.next ⟨u, []⟩ words).returned.length = words.length := by
  induction words using List.reverseRecOn with
  | nil => rfl
  | append_singleton words w ih => rw [run_snoc]; simp [Feed.next, ih]

/-- The unwrap of direction `d` is fed `cues`, and the marks `l` are where it puts them. -/
structure Puts (d : Direction) (v : Derivation) (cues : List Cue)
    (p : Derivation × List SeqSample) : Prop where
  unwrap : p.1.unwrap.get d =
    (run Feed.next ⟨v.unwrap.get d, []⟩ (cues.map Cue.word)).unwrap
  marks : (marksOf d p.2).map place =
    placed cues (run Feed.next ⟨v.unwrap.get d, []⟩ (cues.map Cue.word)).returned

lemma Puts.snoc {d : Direction} {v : Derivation} {l : List Cue} {p : Derivation × List SeqSample}
    (h : Puts d v l p) (cue : Cue) {u : PerDir SeqUnwrap} {x : SeqSample}
    (hu : u.get d = ((p.1.unwrap.get d).offset cue.word).1) (hd : x.dir = d.sample)
    (hx : place x = (cue.t, cue.len, ((p.1.unwrap.get d).offset cue.word).2)) :
    Puts d v (l ++ [cue]) ({ p.1 with unwrap := u }, p.2 ++ [x]) := by
  have hlen : l.length = (run Feed.next ⟨v.unwrap.get d, []⟩ (l.map Cue.word)).returned.length := by
    rw [length_returned, List.length_map]
  rw [h.unwrap] at hu hx
  constructor
  · rw [List.map_append, List.map_singleton, run_snoc]
    exact hu
  · have happ : marksOf d (p.2 ++ [x]) = marksOf d p.2 ++ [x] := by simp [marksOf, hd]
    rw [happ, List.map_append, h.marks, List.map_append, List.map_singleton, List.map_singleton,
      run_snoc, Feed.next, placed, placed, List.zipWith_append hlen, hx]
    rfl

/-- A mark of the opposite direction leaves this one alone. -/
lemma Puts.other {d : Direction} {v : Derivation} {l : List Cue} {p : Derivation × List SeqSample}
    (h : Puts d v l p) {u : PerDir SeqUnwrap} {x : SeqSample}
    (hu : u.get d = p.1.unwrap.get d) (hd : x.dir ≠ d.sample) :
    Puts d v l ({ p.1 with unwrap := u }, p.2 ++ [x]) := by
  refine ⟨hu.trans h.unwrap, ?_⟩
  have happ : marksOf d (p.2 ++ [x]) = marksOf d p.2 := by
    simp [marksOf, hd]
  rw [happ]
  exact h.marks

lemma puts_nil (d : Direction) (v : Derivation) : Puts d v [] (v, []) := ⟨rfl, rfl⟩

/-- The blocks of a segment, one after the other. -/
lemma puts_blocks (d : Direction) (v : Derivation) (seg : Segment) (acked : Direction)
    (blocks : List (TcpSeq × TcpSeq)) {l : List Cue} {p : Derivation × List SeqSample}
    (h : Puts d v l p) :
    Puts d v (l ++ if acked = d then blocks.map fun block => ⟨seg.ts, 0, block.1⟩ else [])
      (blocks.foldl (sackPoint seg acked) p) := by
  induction blocks generalizing l p with
  | nil => simpa using h
  | cons block blocks ih =>
      rw [List.foldl_cons]
      by_cases hd : acked = d
      · subst hd
        have hone : Puts acked v (l ++ [⟨seg.ts, 0, block.1⟩]) (sackPoint seg acked p block) :=
          h.snoc ⟨seg.ts, 0, block.1⟩ (PerDir.get_set_self ..) rfl rfl
        simpa using ih hone
      · have hone : Puts d v l (sackPoint seg acked p block) :=
          h.other (PerDir.get_set_of_ne _ (Ne.symm hd) _) (by simpa using hd)
        simpa [hd] using ih hone

/-- **The marks of one segment.** -/
lemma puts_pushSeqPoints (d : Direction) (v : Derivation) (seg : Segment) (dir : Direction)
    (sample : MetricSample) :
    Puts d v (cues d dir seg) (v.pushSeqPoints seg dir sample) := by
  have hback : dir.opposite = d ↔ dir ≠ d := by
    cases dir <;> cases d <;> simp [Direction.opposite]
  unfold Derivation.pushSeqPoints
  by_cases hdata : seg.isData = true
  · simp only [hdata, if_true]
    by_cases hd : dir = d
    · subst hd
      have hone := (puts_nil dir v).snoc ⟨seg.ts, seg.payloadLen, seg.seq⟩
        (u := v.unwrap.set dir ((v.unwrap.get dir).offset seg.seq).1)
        (x := ⟨seg.ts, dir.sample, ((v.unwrap.get dir).offset seg.seq).2, seg.payloadLen,
          .data sample.retransmit sample.outOfOrder⟩) (PerDir.get_set_self ..) rfl rfl
      have hall := puts_blocks dir v seg dir.opposite seg.options.sackBlocks hone
      simpa [cues, hdata, hback] using hall
    · have hone := (puts_nil d v).other
        (u := v.unwrap.set dir ((v.unwrap.get dir).offset seg.seq).1)
        (x := ⟨seg.ts, dir.sample, ((v.unwrap.get dir).offset seg.seq).2, seg.payloadLen,
          .data sample.retransmit sample.outOfOrder⟩)
        (PerDir.get_set_of_ne _ (Ne.symm hd) _) (by simpa using hd)
      have hall := puts_blocks d v seg dir.opposite seg.options.sackBlocks hone
      simpa [cues, hd, hback] using hall
  · simp only [hdata]
    have hall := puts_blocks d v seg dir.opposite seg.options.sackBlocks (puts_nil d v)
    by_cases hd : dir = d
    · subst hd
      simpa [cues, hdata, hback] using hall
    · simpa [cues, hdata, hd, hback] using hall

/-! ### The plan of a segment -/

def seq? : Sample → Option SeqSample
  | .seq x => some x
  | _ => none

lemma seq_pushAll (k : Retained) (xs : List Sample) :
    (pushAll k xs).seq = k.seq ++ xs.filterMap seq? := by
  induction xs generalizing k with
  | nil => simp
  | cons x xs ih =>
      rw [pushAll_cons, ih]
      cases x <;> simp [Retained.push, seq?, List.filterMap_cons]

lemma filterMap_seq (l : List SeqSample) : (l.map Sample.seq).filterMap seq? = l := by
  rw [List.filterMap_map]
  exact List.filterMap_some

/-- The four other collectors make no marks. -/
lemma filterMap_others (cfg : EngineConfig) (id : ConnId) (d : Derivation) (t : Nanos)
    (sample : MetricSample) :
    (metricPlan cfg id sample).filterMap seq? = [] ∧
      (inflightPlan cfg d t).filterMap seq? = [] ∧
      (rttPlan cfg d sample).2.filterMap seq? = [] ∧
      (throughputPlan cfg d t).filterMap seq? = [] := by
  refine ⟨?_, ?_, ?_, ?_⟩
  · unfold metricPlan
    split <;> rfl
  · unfold inflightPlan
    split
    · rw [List.filterMap_filterMap]
      refine List.filterMap_eq_nil_iff.mpr fun dir _ => ?_
      cases d.metrics.inFlight dir <;> rfl
    · rfl
  · unfold rttPlan
    split
    · cases sample.rtt <;> rfl
    · rfl
  · unfold throughputPlan
    split
    · rw [List.filterMap_filterMap]
      refine List.filterMap_eq_nil_iff.mpr fun dir _ => ?_
      cases d.metrics.throughputAt dir t cfg <;> rfl
    · rfl

/-- While marks are collected, a segment is unwrapped and makes its marks. -/
lemma puts_derivePlan (hseq : cfg.collectSeqTimeline = true) (id : ConnId) (v : Derivation)
    (seg : Segment) (dir d : Direction) :
    Puts d v (cues d dir seg) ((derivePlan cfg id v seg dir).1,
      (derivePlan cfg id v seg dir).2.filterMap seq?) := by
  generalize ho : v.metrics.observe seg dir cfg = o
  have hputs := puts_pushSeqPoints d { v with metrics := o.1 } seg dir o.2
  generalize hp : Derivation.pushSeqPoints { v with metrics := o.1 } seg dir o.2 = p at hputs
  have hplan : derivePlan cfg id v seg dir =
      ((rttPlan cfg p.1 o.2).1,
        metricPlan cfg id o.2 ++ p.2.map .seq ++ inflightPlan cfg p.1 seg.ts ++
          (rttPlan cfg p.1 o.2).2 ++ throughputPlan cfg (rttPlan cfg p.1 o.2).1 seg.ts) := by
    simp only [derivePlan, hseq, seqPlan, Bool.or_true, Bool.true_or, if_true, ho, hp]
  have hunwrap : (rttPlan cfg p.1 o.2).1.unwrap = p.1.unwrap := by
    unfold rttPlan
    split
    · cases o.2.rtt <;> rfl
    · rfl
  have hone := filterMap_others cfg id p.1 seg.ts o.2
  have hlast := filterMap_others cfg id (rttPlan cfg p.1 o.2).1 seg.ts o.2
  rw [hplan]
  simp only [List.filterMap_append, hone.1, hone.2.1, hone.2.2.1, hlast.2.2.2, filterMap_seq,
    List.nil_append, List.append_nil]
  exact ⟨(congrArg (·.get d) hunwrap).trans hputs.unwrap, hputs.marks⟩

/-! ### Runs -/

/-- Behind the segments `segs`: the unwraps have been fed their cues, and the marks stand where
those were put. -/
structure Drawn (c : ConnTrack) (segs : List Segment) : Prop where
  unwrap : ∀ d, c.derived.unwrap.get d = (feed ((cuesOf c segs d).map Cue.word)).unwrap
  marks : ∀ d, (marksOf d c.kept.seq).map place =
    placed (cuesOf c segs d) (feed ((cuesOf c segs d).map Cue.word)).returned

lemma feed_append (words next : List TcpSeq) :
    feed (words ++ next) =
      ⟨(run Feed.next ⟨(feed words).unwrap, []⟩ next).unwrap,
        (feed words).returned ++ (run Feed.next ⟨(feed words).unwrap, []⟩ next).returned⟩ := by
  rw [feed, run_append]
  exact run_next (feed words).unwrap (feed words).returned next

lemma length_feed (words : List TcpSeq) : (feed words).returned.length = words.length :=
  length_returned {} words

lemma drawn_fresh (id : ConnId) (seg : Segment) : Drawn (freshTrack id seg) [] := by
  obtain ⟨_, _, _, _, _, _, h⟩ := freshTrack_frame id seg
  have hd : (freshTrack id seg).derived = {} := by rw [h]; rfl
  constructor
  · intro d
    rw [hd]
    cases d <;> rfl
  · intro d
    rw [kept_freshTrack]
    rfl

/-- **One segment** of an instance. -/
lemma drawn_snoc (hseq : cfg.collectSeqTimeline = true) (hc : Drawn c segs)
    (hdir : c'.directionOf = c.directionOf)
    (hkept : c'.kept.seq = c.kept.seq ++
      (derivePlan cfg c.id c.derived seg (c.directionOf seg.flow.source)).2.filterMap seq?)
    (hd : c'.derived = (derivePlan cfg c.id c.derived seg (c.directionOf seg.flow.source)).1) :
    Drawn c' (segs ++ [seg]) := by
  have hcues : ∀ d, cuesOf c' (segs ++ [seg]) d =
      cuesOf c segs d ++ cues d (c.directionOf seg.flow.source) seg := by
    intro d
    simp [cuesOf, hdir]
  have hputs := puts_derivePlan hseq c.id c.derived seg (c.directionOf seg.flow.source)
  constructor
  · intro d
    rw [hcues, List.map_append, feed_append, hd, (hputs d).unwrap, hc.unwrap]
  · intro d
    have happ : marksOf d c'.kept.seq = marksOf d c.kept.seq ++ marksOf d
        ((derivePlan cfg c.id c.derived seg (c.directionOf seg.flow.source)).2.filterMap seq?) := by
      rw [hkept]
      exact List.filter_append ..
    have hlen : (cuesOf c segs d).length =
        (feed ((cuesOf c segs d).map Cue.word)).returned.length := by
      rw [length_feed, List.length_map]
    rw [happ, List.map_append, hc.marks, (hputs d).marks, hcues, List.map_append, feed_append,
      hc.unwrap, placed, placed, placed, List.zipWith_append hlen]

/-- The segments of an instance, of any fail-fast run that does not overflow. -/
def segmentsOf (cfg : EngineConfig) (items : List Item) (c : ConnTrack) : List Segment :=
  ((journal cfg items).records c.id).map Record.seg

/-- **The rule for marks.** -/
lemma drawn_track (hr : cfg.retention = .failFast m) (hseq : cfg.collectSeqTimeline = true)
    {items : List Item} (ho : (Tracker.track cfg items).overflowed = false) :
    ∀ c ∈ (Tracker.track cfg items).conns, Drawn c (segmentsOf cfg items c) := by
  have hstate : ∀ c : ConnTrack, ∀ t, (statePlan cfg c t).filterMap seq? = [] := by
    intro c t
    unfold statePlan
    split <;> rfl
  refine forall_journal hr (R := fun c l => Drawn c (l.map Record.seg)) ?_ ?_ ho
  · intro id seg
    change Drawn _ ([] ++ [seg])
    refine drawn_snoc hseq (drawn_fresh id seg) rfl ?_ rfl
    rw [kept_founded, kept_freshTrack, foundRecord, seq_pushAll, foundPlan, List.filterMap_append,
      hstate, List.append_nil]
  · intro c l seg h
    rw [List.map_append]
    refine drawn_snoc hseq h (directionOf_accounted c seg) ?_ rfl
    rw [kept_joined, joinRecord, joinPlan, ← Retained.pushAll_eq_append, seq_pushAll,
      List.filterMap_append, hstate, List.nil_append]

/-! ### Places -/

/-- The positions `xs` in the stream that the cues stand for. -/
structure Stream (l : List Cue) (xs : List ℤ) : Prop where
  words : l.map Cue.word = xs.map (BitVec.ofInt 32)
  near : Near 32 xs

lemma returned_stream {l : List Cue} {xs : List ℤ} (h : Stream l xs) :
    (feed (l.map Cue.word)).returned = xs.map (· - xs.headD 0) := by
  have hmark : mark (0 : TcpSeq) = BitVec.ofInt 32 := funext fun x => BitVec.zero_add _
  rw [h.words, ← hmark]
  exact (stands_feed h.near).returned

lemma length_placed {l : List Cue} {rels : List ℤ} (h : rels.length = l.length) :
    (placed l rels).length = l.length := by
  rw [placed, List.length_zipWith, h, min_self]

lemma Drawn.length_marks (h : Drawn c segs) (d : Direction) :
    (marksOf d c.kept.seq).length = (cuesOf c segs d).length := by
  rw [← List.length_map (f := place), h.marks d, length_placed]
  rw [length_feed, List.length_map]

lemma map_rel_placed {l : List Cue} {rels : List ℤ} (h : rels.length = l.length) :
    (placed l rels).map (fun x => x.2.2) = rels := by
  rw [placed, List.map_zipWith]
  exact (List.map_zip_eq_zipWith (f := Prod.snd)).symm.trans (List.map_snd_zip h.le)

lemma map_cue_placed {l : List Cue} {rels : List ℤ} (h : rels.length = l.length) :
    (placed l rels).map (fun x => (x.1, x.2.1)) = l.map fun cue => (cue.t, cue.len) := by
  have hfst : (l.zip rels).map (fun p => (p.1.t, p.1.len)) =
      ((l.zip rels).map Prod.fst).map fun cue => (cue.t, cue.len) := by
    rw [List.map_map]
    rfl
  rw [List.map_fst_zip h.ge, List.map_zip_eq_zipWith] at hfst
  rw [placed, List.map_zipWith]
  exact hfst

/-- The places of the marks are what the unwrap returned. -/
lemma Drawn.map_rel (h : Drawn c segs) (d : Direction) :
    (marksOf d c.kept.seq).map SeqSample.rel =
      (feed ((cuesOf c segs d).map Cue.word)).returned := by
  have hmap := congrArg (List.map fun x : Nanos × BitVec 32 × ℤ => x.2.2) (h.marks d)
  rw [List.map_map, map_rel_placed (by rw [length_feed, List.length_map])] at hmap
  exact hmap

/-- However the words jump, no mark is further than half a cycle a mark from the first. -/
lemma Drawn.abs_rel (h : Drawn c segs) {d : Direction} {x : SeqSample}
    (hx : x ∈ marksOf d c.kept.seq) :
    |x.rel| ≤ (marksOf d c.kept.seq).length * 2 ^ 31 := by
  have hmem : x.rel ∈ (feed ((cuesOf c segs d).map Cue.word)).returned := by
    rw [← h.map_rel d]
    exact List.mem_map_of_mem hx
  obtain ⟨i, hi⟩ := List.mem_iff_getElem?.mp hmem
  have hlt := (List.getElem?_eq_some_iff.mp hi).1
  rw [length_feed, List.length_map] at hlt
  have habs := (abs_feed _).1 i _ hi
  rw [h.length_marks d]
  have hcast : ((i : ℤ) + 1) ≤ (cuesOf c segs d).length := by exact_mod_cast hlt
  have hmul : ((i : ℤ) + 1) * 2 ^ 31 ≤ (cuesOf c segs d).length * 2 ^ 31 :=
    mul_le_mul_of_nonneg_right hcast (by positivity)
  exact habs.trans hmul

/-- A mark belongs to one direction or the other. -/
lemma exists_marksOf {x : SeqSample} {l : List SeqSample} (hx : x ∈ l) :
    ∃ d, x ∈ marksOf d l := by
  refine ⟨x.dir.index, List.mem_filter.mpr ⟨hx, decide_eq_true ?_⟩⟩
  cases x.dir <;> rfl

/-- **Marks stand where their bytes are.** In every fail-fast run that does not overflow, the
marks of a connection in either direction are one for each cue of its segments, in order, with
its time and length. If the cues stand for positions in the stream, each less than half a cycle
ahead of the largest before it and at most half a cycle behind, a mark's place is its position
counted from the first, over any number of wraps; and whatever the words are, it is within half
a cycle a mark. -/
theorem marks_stand (hr : cfg.retention = .failFast m) (hseq : cfg.collectSeqTimeline = true)
    {items : List Item} (ho : (Tracker.track cfg items).overflowed = false) :
    ∀ c ∈ (Tracker.track cfg items).conns, ∀ d,
      let l := cuesOf c (segmentsOf cfg items c) d
      let marks := marksOf d c.kept.seq
      (∀ xs, Stream l xs → marks.map place = placed l (xs.map (· - xs.headD 0))) ∧
        marks.map (fun x => (x.t, x.len)) = l.map (fun cue => (cue.t, cue.len)) ∧
        ∀ x ∈ marks, |x.rel| ≤ marks.length * 2 ^ 31 := by
  intro c hc d l marks
  have h := drawn_track hr hseq ho c hc
  refine ⟨fun xs hxs => ?_, ?_, fun x hx => h.abs_rel hx⟩
  · rw [← returned_stream hxs]
    exact h.marks d
  · have hmap := congrArg (List.map fun x : Nanos × BitVec 32 × ℤ => (x.1, x.2.1)) (h.marks d)
    rw [List.map_map, map_cue_placed (by rw [length_feed, List.length_map])] at hmap
    exact hmap

/-- **Higher in the stream is higher on the plot.** In every fail-fast run that does not
overflow, a connection with fewer than `2 ^ 30` marks in either direction has places the plot can
compute with; and of two marks of the direction in focus, the one whose bytes come later in the
stream has the row of the other or one above it, over any number of wraps. -/
theorem rows_follow_stream (hr : cfg.retention = .failFast m)
    (hseq : cfg.collectSeqTimeline = true) {items : List Item}
    (ho : (Tracker.track cfg items).overflowed = false) {c : ConnTrack}
    (hc : c ∈ (Tracker.track cfg items).conns)
    (hcount : ∀ d, (marksOf d c.kept.seq).length < 2 ^ 30) (xSpan : Nanos × Nanos)
    {width height : BitVec 16} (hspan : xSpan.1.ns ≤ xSpan.2.ns) (hw : minW ≤ width.toNat)
    (hh : minH ≤ height.toNat) :
    Detail.Plottable c.kept.seq xSpan width height ∧
      ∀ d xs, Stream (cuesOf c (segmentsOf cfg items c) d) xs →
        ∀ (i j : ℕ) x y n k, (marksOf d c.kept.seq)[i]? = some x →
          (marksOf d c.kept.seq)[j]? = some y → xs[i]? = some n → xs[j]? = some k → n ≤ k →
            (Detail.cellOf c.kept.seq d.sample xSpan width height x).2 ≤
              (Detail.cellOf c.kept.seq d.sample xSpan width height y).2 := by
  have h := drawn_track hr hseq ho c hc
  have hrel : ∀ x ∈ c.kept.seq, |x.rel| < 2 ^ 61 := by
    intro x hx
    obtain ⟨d, hd⟩ := exists_marksOf hx
    have habs := h.abs_rel hd
    have hlt : ((marksOf d c.kept.seq).length : ℤ) < 2 ^ 30 := by exact_mod_cast hcount d
    linarith
  refine ⟨⟨hrel, hspan, hw, hh⟩, fun d xs hxs i j x y n k hi hj hn hk hnk => ?_⟩
  have hplace : ∀ {i : ℕ} {x n}, (marksOf d c.kept.seq)[i]? = some x → xs[i]? = some n →
      x.rel = n - xs.headD 0 := by
    intro i x n hi hn
    have hmap := congrArg (·[i]?) ((h.map_rel d).trans (returned_stream hxs))
    simp only [List.getElem?_map, hi, hn, Option.map_some, Option.some.injEq] at hmap
    exact hmap
  obtain ⟨hx, hdx⟩ := List.mem_filter.mp (List.mem_of_getElem? hi)
  obtain ⟨hy, hdy⟩ := List.mem_filter.mp (List.mem_of_getElem? hj)
  have hle : x.rel ≤ y.rel := by
    rw [hplace hi hn, hplace hj hk]
    omega
  exact Detail.row_mono hrel hx hy (of_decide_eq_true hdx) (of_decide_eq_true hdy) hle _ _

/-! ### Across the end of a cycle -/

/-- A SYN just below the end of a cycle, data across the end, its second part first, and an
acknowledgement with a block for that part. -/
def wrapping : List Item :=
  [.segment (.between 1 2 0 TcpFlags.SYN 4294967289),
    .segment (.between 2 1 10 (TcpFlags.SYN ||| TcpFlags.ACK) 500 0 4294967290),
    .segment (.between 1 2 30 TcpFlags.ACK 4294967290 10 501),
    .segment (.between 1 2 35 TcpFlags.ACK 14 10 501),
    .segment { Segment.between 2 1 50 TcpFlags.ACK 501 0 4 with
      options := { sackBlocks := [(14, 24)] } },
    .segment (.between 1 2 60 TcpFlags.ACK 4 10 501)]

/-- Where its data and its block are in the stream. -/
def wrapPositions : List ℤ := [4294967290, 4294967310, 4294967310, 4294967300]

lemma near_wrapPositions : Near 32 wrapPositions :=
  (((near_nil.snoc (by simp)).snoc (by simp)).snoc (by simp)).snoc (by simp)

lemma stream_wrapping : ∀ c ∈ (Tracker.track Ceiling.fullConfig wrapping).conns,
    Stream (cuesOf c (segmentsOf Ceiling.fullConfig wrapping c) .originToResponder)
      wrapPositions := by
  have hwords : ∀ c ∈ (Tracker.track Ceiling.fullConfig wrapping).conns,
      (cuesOf c (segmentsOf Ceiling.fullConfig wrapping c) .originToResponder).map Cue.word =
        wrapPositions.map (BitVec.ofInt 32) := by decide +kernel
  exact fun c hc => ⟨hwords c hc, near_wrapPositions⟩

lemma exists_wrapping : ∃ c, c ∈ (Tracker.track Ceiling.fullConfig wrapping).conns := by
  have hne : (Tracker.track Ceiling.fullConfig wrapping).conns ≠ [] := by decide +kernel
  exact List.exists_mem_of_ne_nil _ hne

/-- The block and the data it tells of stand at one place, and the part between below them. -/
theorem marks_stand_wrapping :
    ∃ c ∈ (Tracker.track Ceiling.fullConfig wrapping).conns,
      (marksOf .originToResponder c.kept.seq).map place =
        placed (cuesOf c (segmentsOf Ceiling.fullConfig wrapping c) .originToResponder)
          [0, 20, 20, 10] := by
  obtain ⟨c, hc⟩ := exists_wrapping
  have hplaces : [0, 20, 20, 10] = wrapPositions.map (· - wrapPositions.headD 0) := by decide
  rw [hplaces]
  exact ⟨c, hc, (marks_stand rfl rfl (by decide +kernel) c hc .originToResponder).1 _
    (stream_wrapping c hc)⟩

/-- The part that comes last is drawn no higher than the one above it in the stream. -/
theorem rows_follow_stream_wrapping :
    ∃ c ∈ (Tracker.track Ceiling.fullConfig wrapping).conns, ∃ x y,
      (marksOf .originToResponder c.kept.seq)[3]? = some x ∧
      (marksOf .originToResponder c.kept.seq)[1]? = some y ∧
        (Detail.cellOf c.kept.seq .originToResponder (.sat 0, .sat 60) 8 3 x).2 ≤
          (Detail.cellOf c.kept.seq .originToResponder (.sat 0, .sat 60) 8 3 y).2 := by
  have hcount : ∀ c ∈ (Tracker.track Ceiling.fullConfig wrapping).conns,
      (marksOf .originToResponder c.kept.seq).length = 4 ∧
        (marksOf .responderToOrigin c.kept.seq).length = 0 := by decide +kernel
  obtain ⟨c, hc⟩ := exists_wrapping
  obtain ⟨hsent, hanswered⟩ := hcount c hc
  have hd : ∀ d, (marksOf d c.kept.seq).length < 2 ^ 30 := by
    rw [Direction.forall_iff .originToResponder]
    exact ⟨hsent.trans_lt (by decide), hanswered.trans_lt (by decide)⟩
  have hx := List.getElem?_eq_getElem (hsent.symm ▸ (by decide : 3 < 4))
  have hy := List.getElem?_eq_getElem (hsent.symm ▸ (by decide : 1 < 4))
  refine ⟨c, hc, _, _, hx, hy, ?_⟩
  exact (rows_follow_stream rfl rfl (by decide +kernel) hc hd (.sat 0, .sat 60) (by decide)
    (by decide) (by decide)).2 .originToResponder wrapPositions (stream_wrapping c hc) 3 1 _ _
    4294967300 4294967310 hx hy rfl rfl (by decide)

end TcpVisr.Marks
