import Mathlib.Data.BitVec
import Mathlib.Tactic

/-!
Serial arithmetic: words that stand for unbounded positions.

A word of `w` bits keeps its position only modulo `2 ^ w`. While two positions are less than
half a cycle apart, their words still tell which comes first and by how much.
-/

namespace TcpVisr.Lib.Serial

variable {w : ℕ}

/-- The word `n` places after `b`. -/
def mark (b : BitVec w) (n : ℤ) : BitVec w := b + BitVec.ofInt w n

/-- `b` lies ahead of `a`, by less than half a cycle. -/
def Before (a b : BitVec w) : Prop := 0 < (b - a).toNat ∧ (b - a).toNat < 2 ^ (w - 1)

@[simp] lemma mark_zero (b : BitVec w) : mark b 0 = b := by
  simp [mark]

lemma mark_add (b : BitVec w) (m n : ℤ) : mark b (m + n) = mark (mark b m) n := by
  rw [mark, mark, mark, BitVec.ofInt_add, BitVec.add_assoc]

lemma mark_natCast (b : BitVec w) (n : ℕ) : mark b n = b + BitVec.ofNat w n := by
  rw [mark, BitVec.ofInt_natCast]

/-- Distances do not see where the count starts. -/
lemma mark_sub_mark (b : BitVec w) (m n : ℤ) : mark b n - mark b m = BitVec.ofInt w (n - m) := by
  have h : mark b n = mark b m + BitVec.ofInt w (n - m) := by
    rw [← mark, ← mark_add, add_sub_cancel]
  rw [h, add_sub_cancel_left]

lemma toNat_ofInt_of_lt {n : ℤ} (h0 : 0 ≤ n) (h1 : n < 2 ^ w) :
    ((BitVec.ofInt w n).toNat : ℤ) = n := by
  rw [BitVec.toNat_ofInt, Int.toNat_of_nonneg (Int.emod_nonneg n (by positivity))]
  exact Int.emod_eq_of_lt h0 (by exact_mod_cast h1)

/-- **Distance.** Within one cycle the words of two positions are as far apart as they. -/
theorem toNat_mark_sub {b : BitVec w} {m n : ℤ} (h0 : m ≤ n) (h1 : n - m < 2 ^ w) :
    ((mark b n - mark b m).toNat : ℤ) = n - m := by
  rw [mark_sub_mark]
  exact toNat_ofInt_of_lt (by omega) h1

/-- Backwards, the distance is what is left of the cycle. -/
lemma toNat_mark_sub_of_lt {b : BitVec w} {m n : ℤ} (h0 : n < m) (h1 : m - n ≤ 2 ^ w) :
    ((mark b n - mark b m).toNat : ℤ) = 2 ^ w - (m - n) := by
  have h : BitVec.ofInt w (n - m) = BitVec.ofInt w (2 ^ w - (m - n)) := by
    apply BitVec.eq_of_toNat_eq
    have hcycle : (2 : ℤ) ^ w - (m - n) = n - m + ((2 ^ w : ℕ) : ℤ) := by
      push_cast
      ring
    rw [BitVec.toNat_ofInt, BitVec.toNat_ofInt, hcycle, Int.add_emod_right]
  rw [mark_sub_mark, h]
  exact toNat_ofInt_of_lt (by omega) (by omega)

/-- **Order.** Within half a cycle the words of two positions stand in the order of these. -/
theorem before_mark (hw : 0 < w) {b : BitVec w} {m n : ℤ} (h1 : n - m < 2 ^ (w - 1))
    (h2 : m - n ≤ 2 ^ (w - 1)) : Before (mark b m) (mark b n) ↔ m < n := by
  have hcycle : (2 : ℤ) ^ w = 2 ^ (w - 1) + 2 ^ (w - 1) := by
    obtain ⟨k, rfl⟩ : ∃ k, w = k + 1 := ⟨w - 1, by omega⟩
    rw [Nat.add_sub_cancel, pow_succ]
    ring
  have hpos : (0 : ℤ) < 2 ^ (w - 1) := by positivity
  unfold Before
  zify
  rcases lt_or_ge n m with h | h
  · rw [toNat_mark_sub_of_lt h (by omega)]
    omega
  · rw [toNat_mark_sub h (by omega)]
    omega

/-- Words tell positions apart within one cycle. -/
lemma mark_eq_iff {b : BitVec w} {m n : ℤ} (h1 : n - m < 2 ^ w) (h2 : m - n < 2 ^ w) :
    mark b m = mark b n ↔ m = n := by
  constructor
  · intro h
    rcases lt_or_ge n m with hlt | hle
    · have := toNat_mark_sub_of_lt (b := b) hlt h2.le
      rw [h, BitVec.sub_self, BitVec.toNat_zero] at this
      omega
    · have := toNat_mark_sub (b := b) hle h1
      rw [h, BitVec.sub_self, BitVec.toNat_zero] at this
      omega
  · rintro rfl
    rfl

/-! ### Streams of words -/

/-- The positions `xs` behind the words `ws` of a stream: each new one lies less than half a
cycle from the largest before it. -/
structure Traces (ws : List (BitVec w)) (xs : List ℤ) : Prop where
  words : ws = xs.map (mark 0)
  near : ∀ p x, p ++ [x] <+: xs → ∀ m ∈ p.max?, m - 2 ^ (w - 1) < x ∧ x < m + 2 ^ (w - 1)

lemma max?_concat (xs : List ℤ) (x : ℤ) : (xs ++ [x]).max? = some (xs.max?.elim x (max · x)) := by
  cases xs with
  | nil => rfl
  | cons y xs =>
      rw [List.cons_append, List.max?_cons', List.foldl_append, List.max?_cons']
      rfl

/-- The last word of a stream stands for a position near the largest before it. -/
lemma Traces.of_snoc {ws : List (BitVec w)} {a : BitVec w} {xs : List ℤ}
    (h : Traces (ws ++ [a]) xs) :
    ∃ ys x, xs = ys ++ [x] ∧ Traces ws ys ∧ a = mark 0 x ∧
      ∀ m ∈ ys.max?, m - 2 ^ (w - 1) < x ∧ x < m + 2 ^ (w - 1) := by
  obtain ⟨ys, zs, rfl, hy, hz⟩ := List.append_eq_map_iff.mp h.words
  obtain ⟨x, rfl, rfl⟩ := List.map_eq_singleton_iff.mp hz
  refine ⟨ys, x, rfl, ⟨hy.symm, fun p y hp => ?_⟩, rfl, h.near ys x List.prefix_rfl⟩
  exact h.near p y (hp.trans (List.prefix_append ys [x]))

lemma traces_nil : Traces ([] : List (BitVec w)) [] := by
  refine ⟨rfl, fun p x hp => ?_⟩
  simp at hp

lemma Traces.snoc {ws : List (BitVec w)} {xs : List ℤ} (h : Traces ws xs) {x : ℤ}
    (hx : ∀ m ∈ xs.max?, m - 2 ^ (w - 1) < x ∧ x < m + 2 ^ (w - 1)) :
    Traces (ws ++ [mark 0 x]) (xs ++ [x]) := by
  refine ⟨by simp [h.words], fun p y hp => ?_⟩
  rcases List.prefix_concat_iff.mp hp with heq | hp
  · obtain ⟨rfl, hxy⟩ := List.append_inj' heq rfl
    obtain rfl : y = x := by simpa using hxy
    exact hx
  · exact h.near p y hp

/-- Each position lies less than half a cycle ahead of the largest before it, or at most half
a cycle behind. -/
def Near (w : ℕ) (xs : List ℤ) : Prop :=
  ∀ p x, p ++ [x] <+: xs → ∀ m ∈ p.max?, m - 2 ^ (w - 1) ≤ x ∧ x < m + 2 ^ (w - 1)

lemma Near.of_snoc {xs : List ℤ} {x : ℤ} (h : Near w (xs ++ [x])) :
    Near w xs ∧ ∀ m ∈ xs.max?, m - 2 ^ (w - 1) ≤ x ∧ x < m + 2 ^ (w - 1) :=
  ⟨fun p y hp => h p y (hp.trans (List.prefix_append xs [x])), h xs x List.prefix_rfl⟩

lemma near_nil : Near w [] := by
  intro p x hp
  simp at hp

lemma Near.snoc {xs : List ℤ} (h : Near w xs) {x : ℤ}
    (hx : ∀ m ∈ xs.max?, m - 2 ^ (w - 1) ≤ x ∧ x < m + 2 ^ (w - 1)) : Near w (xs ++ [x]) := by
  intro p y hp
  rcases List.prefix_concat_iff.mp hp with heq | hp
  · obtain ⟨rfl, hxy⟩ := List.append_inj' heq rfl
    obtain rfl : y = x := by simpa using hxy
    exact hx
  · exact h p y hp

end TcpVisr.Lib.Serial
