import TcpVisr.ConnTrack
import TcpVisr.Observing

/-!
Sequence unwrap.

An unwrap keeps the word of its frontier and the frontier's unbounded offset. Behind
positions that stay near their running maximum it stands for that maximum, so every word is
given its true offset from the first, over any number of wraps. Behind arbitrary words an
offset moves by half a cycle a call at most.
-/

namespace TcpVisr

namespace SeqUnwrap

open TcpSeq Lib.Runs Lib.Serial Observing

/-- An unwrap that is fed words one by one, and what it has returned. -/
structure Feed where
  unwrap : SeqUnwrap := {}
  returned : List ℤ := []
  deriving DecidableEq

/-- One call of `offset`. -/
def Feed.next (f : Feed) (seq : TcpSeq) : Feed :=
  ⟨(f.unwrap.offset seq).1, f.returned ++ [(f.unwrap.offset seq).2]⟩

/-- A fresh unwrap, fed `words`. -/
def feed (words : List TcpSeq) : Feed := run Feed.next {} words

@[simp] lemma feed_nil : feed [] = {} := rfl

@[simp] lemma feed_snoc (words : List TcpSeq) (seq : TcpSeq) :
    feed (words ++ [seq]) = (feed words).next seq := run_snoc _ _ words seq

/-- `i64` holds the number. -/
def FitsI64 (n : ℤ) : Prop := -2 ^ 63 ≤ n ∧ n < 2 ^ 63

variable {u : SeqUnwrap} {seq fseq : TcpSeq} {frel : ℤ}

/-! ### Near the running maximum -/

/-- Half a cycle behind the frontier to less than half a cycle ahead of it, a position gets
its offset, and the frontier keeps the larger of the two. -/
lemma offset_mark {m x base : ℤ} (h1 : m - 2 ^ 31 ≤ x) (h2 : x < m + 2 ^ 31)
    (hu : u.frontier = some (mark 0 m, m - base)) :
    u.offset (mark 0 x) = (⟨some (mark 0 (max m x), max m x - base)⟩, x - base) := by
  have heq : mark 0 x = (mark 0 m : TcpSeq) ↔ x = m := mark_eq_iff (by omega) (by omega)
  have hgt : serialGt (mark 0 x) (mark 0 m) = decide (m < x) := by
    apply serialLt_mark <;> omega
  simp only [offset, hu, heq, hgt, decide_eq_true_iff, serialDiff]
  rcases lt_trichotomy x m with hlt | rfl | hlt
  · have hdist := toNat_mark_sub (w := 32) (b := 0) hlt.le (by omega)
    have hrel : m - base - (m - x) = x - base := by ring
    rw [if_neg hlt.ne, if_neg hlt.not_gt, max_eq_left hlt.le, hdist, hrel, ← hu]
  · rw [if_pos rfl, max_self, ← hu]
  · have hdist := toNat_mark_sub (w := 32) (b := 0) hlt.le (by omega)
    rw [if_neg hlt.ne', if_pos hlt, max_eq_right hlt.le, hdist]
    have hrel : m - base + (x - m) = x - base := by ring
    rw [hrel]

/-- The first word is the origin. -/
lemma offset_first (hu : u.frontier = none) (seq : TcpSeq) :
    u.offset seq = (⟨some (seq, 0)⟩, 0) := by
  simp [offset, hu]

/-- Behind the positions `xs`: the frontier is the largest of them, and all offsets are from
the first. -/
structure Stands (xs : List ℤ) (f : Feed) : Prop where
  frontier : f.unwrap.frontier = xs.max?.map fun m => (mark 0 m, m - xs.headD 0)
  returned : f.returned = xs.map (· - xs.headD 0)

lemma Stands.next {xs : List ℤ} {x : ℤ} {f : Feed} (h : Stands xs f)
    (hx : ∀ m ∈ xs.max?, m - 2 ^ 31 ≤ x ∧ x < m + 2 ^ 31) :
    Stands (xs ++ [x]) (f.next (mark 0 x)) := by
  cases hm : xs.max? with
  | none =>
      obtain rfl := List.max?_eq_none_iff.mp hm
      rw [Feed.next, offset_first h.frontier]
      exact ⟨by simp, by simp [h.returned]⟩
  | some m =>
      obtain ⟨hlo, hhi⟩ := hx m hm
      have hfront := h.frontier
      rw [hm, Option.map_some] at hfront
      have hhead : (xs ++ [x]).headD 0 = xs.headD 0 := by
        cases xs with
        | nil => simp at hm
        | cons y xs => rfl
      rw [Feed.next, offset_mark hlo hhi hfront]
      constructor
      · rw [max?_concat, hm, hhead]
        rfl
      · rw [hhead, List.map_append, ← h.returned]
        rfl

/-- **Exact offsets.** -/
lemma stands_feed {xs : List ℤ} (h : Near 32 xs) : Stands xs (feed (xs.map (mark 0))) := by
  induction xs using List.reverseRecOn with
  | nil => exact ⟨rfl, rfl⟩
  | append_singleton xs x ih =>
      obtain ⟨hxs, hx⟩ := h.of_snoc
      rw [List.map_append, List.map_singleton, feed_snoc]
      exact (ih hxs).next hx

/-! ### Arbitrary words -/

/-- A word that is neither the frontier nor ahead of it lies half a cycle behind at most. -/
lemma toNat_serialDiff_le (hne : seq ≠ fseq) (hgt : seq.serialGt fseq = false) :
    (fseq.serialDiff seq).toNat ≤ 2 ^ 31 := by
  have hbehind : ¬ Before fseq seq := by
    rw [← serialLt_iff_before]
    simpa [serialGt] using hgt
  have hneg : ((fseq - seq) + (seq - fseq)).toNat = 0 := by
    have hzero : (fseq - seq) + (seq - fseq) = 0 := by ring
    rw [hzero]
    rfl
  have hpos : 0 < (seq - fseq).toNat := by
    rw [Nat.pos_iff_ne_zero, ne_eq, ← BitVec.toNat_zero (w := 32), ← BitVec.toNat_eq]
    exact fun h => hne (sub_eq_zero.mp h)
  unfold Before at hbehind
  rw [BitVec.toNat_add] at hneg
  unfold serialDiff
  have h1 := (fseq - seq).isLt
  omega

/-- One call moves the returned offset and the frontier by half a cycle at most. -/
lemma abs_offset {n : ℤ} (hn : 0 ≤ n) (h : ∀ p ∈ u.frontier, |p.2| ≤ n) (seq : TcpSeq) :
    |(u.offset seq).2| ≤ n + 2 ^ 31 ∧
      ∀ p ∈ (u.offset seq).1.frontier, |p.2| ≤ n + 2 ^ 31 := by
  cases hu : u.frontier with
  | none =>
      rw [offset_first hu]
      simp only [Option.mem_def, Option.some.injEq, forall_eq', abs_zero]
      omega
  | some q =>
      obtain ⟨fseq, frel⟩ := q
      have hq := abs_le.mp (h (fseq, frel) hu)
      simp only at hq
      simp only [offset, hu]
      split_ifs with heq hgt
      · simp only [hu, Option.mem_def, Option.some.injEq, forall_eq', abs_le]
        omega
      · have hd : (seq.serialDiff fseq).toNat < 2 ^ 31 := ((serialLt_iff_before _ _).mp hgt).2
        simp only [Option.mem_def, Option.some.injEq, forall_eq', abs_le]
        omega
      · have hd := toNat_serialDiff_le heq (by simpa using hgt)
        simp only [hu, Option.mem_def, Option.some.injEq, forall_eq', abs_le]
        omega

/-- After `n` calls nothing is further than `n` half cycles from the first word. -/
lemma abs_feed (words : List TcpSeq) :
    (∀ (i : ℕ) r, (feed words).returned[i]? = some r → |r| ≤ (i + 1) * 2 ^ 31) ∧
      (∀ p ∈ (feed words).unwrap.frontier, |p.2| ≤ words.length * 2 ^ 31) ∧
        (feed words).returned.length = words.length := by
  induction words using List.reverseRecOn with
  | nil => simp
  | append_singleton words seq ih =>
      obtain ⟨hret, hfront, hlen⟩ := ih
      obtain ⟨hoff, hnext⟩ := abs_offset (by positivity) hfront seq
      rw [feed_snoc]
      refine ⟨fun i r hi => ?_, fun p hp => ?_, by simp [Feed.next, hlen]⟩
      · rcases lt_or_ge i words.length with hlt | hge
        · rw [Feed.next, List.getElem?_append_left (by omega)] at hi
          exact hret i r hi
        · rw [Feed.next, List.getElem?_append_right (by omega), hlen] at hi
          obtain ⟨h0, rfl⟩ := List.getElem?_eq_some_iff.mp hi
          simp only [List.length_singleton] at h0
          obtain rfl : i = words.length := by omega
          simp only [List.getElem_singleton]
          linarith
      · have := hnext p hp
        simp only [List.length_append, List.length_singleton, Nat.cast_add, Nat.cast_one]
        linarith

/-- Fewer than `2 ^ 32` calls stay inside an `i64`. -/
lemma fitsI64_of_abs {r : ℤ} {n : ℕ} (h : |r| ≤ n * 2 ^ 31) (hn : n < 2 ^ 32) : FitsI64 r := by
  obtain ⟨h1, h2⟩ := abs_le.mp h
  constructor <;> omega

/-- **Unwrapping is exact.** Fed the positions `xs` modulo `2 ^ 32`, each at most half a cycle
behind and less than half a cycle ahead of the largest before it, `offset` returns every
position's distance from the first, over any number of wraps. Fed arbitrary words, what it
returns and keeps after `n` calls lies within `n * 2 ^ 31`; that is all it computes, so for
fewer than `2 ^ 32` calls no `i64` overflows. -/
theorem unwraps_exactly :
    (∀ xs, Near 32 xs →
      (feed (xs.map (BitVec.ofInt 32))).returned = xs.map (· - xs.headD 0)) ∧
    (∀ words, (∀ (i : ℕ) r, (feed words).returned[i]? = some r → |r| ≤ (i + 1) * 2 ^ 31) ∧
      ∀ p ∈ (feed words).unwrap.frontier, |p.2| ≤ words.length * 2 ^ 31) ∧
    ∀ words, words.length < 2 ^ 32 →
      (∀ r ∈ (feed words).returned, FitsI64 r) ∧
        ∀ p ∈ (feed words).unwrap.frontier, FitsI64 p.2 := by
  have hmark : mark (0 : TcpSeq) = BitVec.ofInt 32 := funext fun x => BitVec.zero_add _
  refine ⟨fun xs hxs => ?_, fun words => ?_, fun words hlen => ?_⟩
  · rw [← hmark]
    exact (stands_feed hxs).returned
  · exact ⟨(abs_feed words).1, (abs_feed words).2.1⟩
  · obtain ⟨hret, hfront, hcount⟩ := abs_feed words
    refine ⟨fun r hr => ?_, fun p hp => fitsI64_of_abs (hfront p hp) hlen⟩
    obtain ⟨i, hi⟩ := List.mem_iff_getElem?.mp hr
    have hlt := (List.getElem?_eq_some_iff.mp hi).1
    exact fitsI64_of_abs (n := i + 1) (by exact_mod_cast hret i r hi) (by omega)

/-- 10 before the wrap, 90 past it, and then exactly half a cycle back. -/
theorem unwraps_exactly_halfBack :
    (feed [BitVec.ofInt 32 (2 ^ 32 - 10), BitVec.ofInt 32 (2 ^ 32 + 90),
      BitVec.ofInt 32 (2 ^ 31 + 90)]).returned = [0, 100, 100 - 2 ^ 31] :=
  unwraps_exactly.1 [2 ^ 32 - 10, 2 ^ 32 + 90, 2 ^ 31 + 90]
    (((near_nil.snoc (by simp)).snoc (by simp)).snoc (by simp))

end SeqUnwrap

end TcpVisr
