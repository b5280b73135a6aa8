import Mathlib.Tactic

/-!
Readers of headers from the front of a byte string, and what cutting the string short does
to them.

A reader is done, having used so many bytes, or runs short, or finds the bytes bad. It is
steady if a cut behind the bytes it used changes nothing, and any earlier one makes it run
short. Steadiness is kept by reading one header after the other and by bounding what a
reader may look at, so a whole stack of headers is steady when each of them is.
-/

namespace TcpVisr.Lib.Readers

variable {β α γ : Type}

/-- What reading a header comes to. -/
inductive Read (α : Type)
  | done (a : α) (used : ℕ)
  | short
  | bad
  deriving DecidableEq

/-- A reader that a cut affects only as far as it takes bytes away that it used. -/
structure Steady (p : List β → Read α) : Prop where
  used_le : ∀ {b a k}, p b = .done a k → k ≤ b.length
  cut : ∀ {b a k}, p b = .done a k → ∀ n, p (b.take n) = if k ≤ n then .done a k else .short

/-- Nothing is read. -/
def stop (a : α) (_ : List β) : Read α := .done a 0

/-- Nothing can be read. -/
def refuse (_ : List β) : Read α := .bad

/-- A header whose length shows in its first `m` bytes. -/
def sized (m : ℕ) (len : List β → Option ℕ) (f : List β → Option α) (b : List β) : Read α :=
  if b.length < m then .short
  else match len (b.take m) with
    | none => .bad
    | some k =>
      if b.length < k then .short
      else match f (b.take k) with
        | none => .bad
        | some a => .done a k

/-- One header after the other. -/
def seq (p : List β → Read α) (f : α → List β → Read γ) (b : List β) : Read γ :=
  match p b with
  | .done a k =>
    match f a (b.drop k) with
    | .done c j => .done c (k + j)
    | .short => .short
    | .bad => .bad
  | .short => .short
  | .bad => .bad

/-- The reader that sees at most `m` bytes. -/
def limit (m : ℕ) (p : List β → Read α) (b : List β) : Read α := p (b.take m)

lemma seq_eq_done {p : List β → Read α} {f : α → List β → Read γ} {b : List β} {c : γ} {m : ℕ} :
    seq p f b = .done c m ↔
      ∃ a k j, p b = .done a k ∧ f a (b.drop k) = .done c j ∧ m = k + j := by
  constructor
  · intro h
    unfold seq at h
    split at h
    · next a k hp =>
        split at h
        · next c' j hf =>
            obtain ⟨rfl, rfl⟩ := Read.done.inj h
            exact ⟨a, k, j, hp, hf, rfl⟩
        · simp at h
        · simp at h
    · simp at h
    · simp at h
  · rintro ⟨a, k, j, hp, hf, rfl⟩
    simp only [seq, hp, hf]

lemma steady_stop (a : α) : Steady (stop a : List β → Read α) := by
  constructor
  · rintro b a' k h
    obtain ⟨-, rfl⟩ := Read.done.inj h
    exact Nat.zero_le _
  · rintro b a' k h n
    obtain ⟨rfl, rfl⟩ := Read.done.inj h
    rw [if_pos (Nat.zero_le n)]
    rfl

lemma steady_refuse : Steady (refuse : List β → Read α) :=
  ⟨fun h => absurd h (by simp [refuse]), fun h => absurd h (by simp [refuse])⟩

lemma of_sized_eq_done {m : ℕ} {len : List β → Option ℕ} {f : List β → Option α} {b : List β}
    {a : α} {k : ℕ} (h : sized m len f b = .done a k) :
    len (b.take m) = some k ∧ k ≤ b.length ∧ f (b.take k) = some a := by
  unfold sized at h
  split_ifs at h with h1
  split at h
  · simp at h
  · next k' hk =>
      split_ifs at h with h2
      split at h
      · simp at h
      · next a' ha =>
          obtain ⟨rfl, rfl⟩ := Read.done.inj h
          exact ⟨hk, by omega, ha⟩

/-- **A header is steady.** -/
theorem steady_sized {m : ℕ} {len : List β → Option ℕ} {f : List β → Option α}
    (hm : ∀ l k, len l = some k → m ≤ k) : Steady (sized m len f) := by
  refine ⟨fun h => (of_sized_eq_done h).2.1, fun {b a k} h n => ?_⟩
  obtain ⟨hk, hle, ha⟩ := of_sized_eq_done h
  have hmk := hm _ _ hk
  have hlen : (b.take n).length = min n b.length := List.length_take
  unfold sized
  by_cases hn : k ≤ n
  · rw [if_neg (by omega), List.take_take, min_eq_left (hmk.trans hn), hk]
    simp only
    rw [if_neg (by omega), List.take_take, min_eq_left hn, ha, if_pos hn]
  · rw [if_neg hn]
    by_cases hnm : n < m
    · rw [if_pos (by omega)]
    · rw [if_neg (by omega), List.take_take, min_eq_left (by omega), hk]
      simp only
      rw [if_pos (by omega)]

/-- **Steadiness composes.** -/
theorem Steady.seq {p : List β → Read α} {f : α → List β → Read γ} (hp : Steady p)
    (hf : ∀ a, Steady (f a)) : Steady (seq p f) := by
  constructor
  · intro b c m h
    obtain ⟨a, k, j, h1, h2, rfl⟩ := seq_eq_done.mp h
    have hk := hp.used_le h1
    have hj := (hf a).used_le h2
    rw [List.length_drop] at hj
    omega
  · intro b c m h n
    obtain ⟨a, k, j, h1, h2, rfl⟩ := seq_eq_done.mp h
    unfold Readers.seq
    rw [hp.cut h1 n]
    by_cases hk : k ≤ n
    · rw [if_pos hk]
      simp only
      rw [List.drop_take, (hf a).cut h2]
      by_cases hj : k + j ≤ n
      · rw [if_pos (by omega), if_pos hj]
      · rw [if_neg (by omega), if_neg hj]
    · rw [if_neg hk, if_neg (by omega)]

/-- Bounding what a steady reader sees keeps it steady. -/
lemma Steady.limit {p : List β → Read α} (hp : Steady p) (m : ℕ) : Steady (limit m p) := by
  constructor
  · intro b a k h
    have := hp.used_le h
    rw [List.length_take] at this
    omega
  · intro b a k h n
    unfold Readers.limit
    rw [List.take_take, min_comm, ← List.take_take]
    exact hp.cut h n

/-- What a bounded reader used lies within the bound. -/
lemma Steady.used_le_limit {p : List β → Read α} (hp : Steady p) {m k : ℕ} {b : List β} {a : α}
    (h : Readers.limit m p b = .done a k) : k ≤ m := by
  have := hp.used_le h
  rw [List.length_take] at this
  omega

end TcpVisr.Lib.Readers
