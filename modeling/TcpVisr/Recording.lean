import TcpVisr.Tracker
import TcpVisr.Lib.Ageing

/-!
What recording can do to one connection.

Retained series change in two ways only: samples are dropped from the front, or one sample
is appended. Recording never touches the lifecycle of a connection, and the count it keeps
moves exactly with what is retained.
-/

namespace TcpVisr.Recording

open Lib.Ageing

/-! ### Facts about all six series at once -/

/-- Every one of the six series satisfies `P`. -/
structure AllSeries (P : ∀ α : Type, (α → Nanos) → List α → Prop) (k : Retained) : Prop where
  states : P StateSample StateSample.t k.states
  series : P MetricSample MetricSample.t k.series
  seq : P SeqSample SeqSample.t k.seq
  inflight : P InFlightSample InFlightSample.t k.inflight
  rtt : P RttSample RttSample.t k.rtt
  throughput : P ThroughputSample ThroughputSample.t k.throughput

variable {P Q : ∀ α : Type, (α → Nanos) → List α → Prop} {k k' k'' : Retained}

instance [∀ α time l, Decidable (P α time l)] (k : Retained) : Decidable (AllSeries P k) :=
  decidable_of_iff (P _ StateSample.t k.states ∧ P _ MetricSample.t k.series ∧
      P _ SeqSample.t k.seq ∧ P _ InFlightSample.t k.inflight ∧ P _ RttSample.t k.rtt ∧
      P _ ThroughputSample.t k.throughput)
    ⟨fun ⟨h1, h2, h3, h4, h5, h6⟩ => ⟨h1, h2, h3, h4, h5, h6⟩, fun ⟨h1, h2, h3, h4, h5, h6⟩ =>
      ⟨h1, h2, h3, h4, h5, h6⟩⟩

lemma AllSeries.imp (h : AllSeries P k) (hPQ : ∀ α t l, P α t l → Q α t l) : AllSeries Q k :=
  ⟨hPQ _ _ _ h.states, hPQ _ _ _ h.series, hPQ _ _ _ h.seq, hPQ _ _ _ h.inflight,
    hPQ _ _ _ h.rtt, hPQ _ _ _ h.throughput⟩

/-- A property of series that an appended entry of time `t₀` keeps is kept by a push. -/
lemma AllSeries.push {x : Sample} (h : AllSeries P k)
    (hP : ∀ α (t : α → Nanos) l y, t y = x.t → P α t l → P α t (l ++ [y])) :
    AllSeries P (k.push x) := by
  obtain ⟨h1, h2, h3, h4, h5, h6⟩ := h
  cases x with
  | state x => exact ⟨hP _ _ _ x rfl h1, h2, h3, h4, h5, h6⟩
  | metric x => exact ⟨h1, hP _ _ _ x rfl h2, h3, h4, h5, h6⟩
  | seq x => exact ⟨h1, h2, hP _ _ _ x rfl h3, h4, h5, h6⟩
  | inflight x => exact ⟨h1, h2, h3, hP _ _ _ x rfl h4, h5, h6⟩
  | rtt x => exact ⟨h1, h2, h3, h4, hP _ _ _ x rfl h5, h6⟩
  | throughput x => exact ⟨h1, h2, h3, h4, h5, hP _ _ _ x rfl h6⟩

/-! ### Dropping fronts -/

/-- `k'` is `k` less some samples at the front of each series, the last state sample kept. -/
structure DropsFronts (k k' : Retained) : Prop where
  states : k'.states <:+ k.states
  series : k'.series <:+ k.series
  seq : k'.seq <:+ k.seq
  inflight : k'.inflight <:+ k.inflight
  rtt : k'.rtt <:+ k.rtt
  throughput : k'.throughput <:+ k.throughput
  last : k'.states.getLast? = k.states.getLast?

lemma DropsFronts.refl (k : Retained) : DropsFronts k k :=
  ⟨List.suffix_rfl, List.suffix_rfl, List.suffix_rfl, List.suffix_rfl, List.suffix_rfl,
    List.suffix_rfl, rfl⟩

/-- A property of series that suffixes inherit survives dropping fronts. -/
lemma AllSeries.drop (h : AllSeries P k) (hd : DropsFronts k k')
    (hP : ∀ α (t : α → Nanos) l m, m <:+ l → P α t l → P α t m) : AllSeries P k' :=
  ⟨hP _ _ _ _ hd.states h.states, hP _ _ _ _ hd.series h.series, hP _ _ _ _ hd.seq h.seq,
    hP _ _ _ _ hd.inflight h.inflight, hP _ _ _ _ hd.rtt h.rtt,
    hP _ _ _ _ hd.throughput h.throughput⟩

/-- Ageing of the six series, the floor of one on `states`. -/
def age (h : ℕ) (k : Retained) : Retained where
  states := Lib.Ageing.age (fun x => x.t.ns) h 1 k.states
  series := Lib.Ageing.age (fun x => x.t.ns) h 0 k.series
  seq := Lib.Ageing.age (fun x => x.t.ns) h 0 k.seq
  inflight := Lib.Ageing.age (fun x => x.t.ns) h 0 k.inflight
  rtt := Lib.Ageing.age (fun x => x.t.ns) h 0 k.rtt
  throughput := Lib.Ageing.age (fun x => x.t.ns) h 0 k.throughput

lemma evictFront_eq {α : Type} (t : α → Nanos) (h floor : ℕ) (l : List α) (n : ℕ) :
    evictFront t h floor l n = (Lib.Ageing.age (fun x => (t x).ns) h floor l,
      n - (l.length - (Lib.Ageing.age (fun x => (t x).ns) h floor l).length)) := by
  induction l generalizing n with
  | nil => simp [evictFront]
  | cons x xs ih =>
      have hlen := (age_suffix (fun x => (t x).ns) h floor xs).length_le
      unfold evictFront Lib.Ageing.age
      split
      · rw [ih, Prod.mk.injEq]
        exact ⟨rfl, by simp only [List.length_cons]; omega⟩
      · simp

lemma count_age_le (h : ℕ) (k : Retained) : (age h k).count ≤ k.count := by
  have h1 := (age_suffix (fun x : StateSample => x.t.ns) h 1 k.states).length_le
  have h2 := (age_suffix (fun x : MetricSample => x.t.ns) h 0 k.series).length_le
  have h3 := (age_suffix (fun x : SeqSample => x.t.ns) h 0 k.seq).length_le
  have h4 := (age_suffix (fun x : InFlightSample => x.t.ns) h 0 k.inflight).length_le
  have h5 := (age_suffix (fun x : RttSample => x.t.ns) h 0 k.rtt).length_le
  have h6 := (age_suffix (fun x : ThroughputSample => x.t.ns) h 0 k.throughput).length_le
  simp only [Retained.count, age]
  omega

/-- The eviction pass over one connection ages its series and counts down what it drops. -/
lemma evict_eq (h : ℕ) (k : Retained) (n : ℕ) :
    k.evict h n = (age h k, n - (k.count - (age h k).count)) := by
  have h1 := (age_suffix (fun x : StateSample => x.t.ns) h 1 k.states).length_le
  have h2 := (age_suffix (fun x : MetricSample => x.t.ns) h 0 k.series).length_le
  have h3 := (age_suffix (fun x : SeqSample => x.t.ns) h 0 k.seq).length_le
  have h4 := (age_suffix (fun x : InFlightSample => x.t.ns) h 0 k.inflight).length_le
  have h5 := (age_suffix (fun x : RttSample => x.t.ns) h 0 k.rtt).length_le
  have h6 := (age_suffix (fun x : ThroughputSample => x.t.ns) h 0 k.throughput).length_le
  simp only [Retained.evict, evictFront_eq, age, Retained.count, Prod.mk.injEq, true_and]
  omega

lemma dropsFronts_age (h : ℕ) (k : Retained) : DropsFronts k (age h k) :=
  ⟨age_suffix _ _ _ _, age_suffix _ _ _ _, age_suffix _ _ _ _, age_suffix _ _ _ _,
    age_suffix _ _ _ _, age_suffix _ _ _ _, getLast?_age (by omega) _⟩

@[simp] lemma age_zero (k : Retained) : age 0 k = k := by
  simp [age, Lib.Ageing.age_zero]

lemma age_age {h h' : ℕ} (hh : h ≤ h') (k : Retained) : age h' (age h k) = age h' k := by
  simp [age, Lib.Ageing.age_age hh]

/-- What has been aged already does not change how a later sample ages. -/
lemma age_push_congr {h : ℕ} (hk : age h k = age h k') (x : Sample) :
    age h (k.push x) = age h (k'.push x) := by
  simp only [age, Retained.mk.injEq] at hk ⊢
  obtain ⟨h1, h2, h3, h4, h5, h6⟩ := hk
  cases x <;> simp only [Retained.push, and_self, *] <;>
    simp only [age_append_congr h1, age_append_congr h2, age_append_congr h3,
      age_append_congr h4, age_append_congr h5, age_append_congr h6, and_self]

/-! ### The backstop -/

/-- How many samples the backstop may pop: all but the last state sample. -/
def spare (k : Retained) : ℕ :=
  (k.states.length - 1) + k.series.length + k.seq.length + k.inflight.length + k.rtt.length +
    k.throughput.length

/-- The scan of `max_by_key` from `best`: it ends on an entry of the list or on `best`, and
nothing it passed is larger. -/
lemma foldl_max (xs : List ℕ) (j : ℕ) (best : ℕ × ℕ) :
    let r := (xs.zipIdx j).foldl (fun best p => if best.2 ≤ p.1 then (p.2, p.1) else best) best
    (r = best ∨ ∃ i, xs[i]? = some r.2 ∧ r.1 = j + i) ∧ best.2 ≤ r.2 ∧ ∀ y ∈ xs, y ≤ r.2 := by
  induction xs generalizing j best with
  | nil => simp
  | cons x xs ih =>
      obtain ⟨h1, h2, h3⟩ := ih (j + 1) (if best.2 ≤ x then (j, x) else best)
      simp only [List.zipIdx_cons, List.foldl_cons]
      generalize (xs.zipIdx (j + 1)).foldl _ _ = r at h1 h2 h3 ⊢
      have hx : x ≤ r.2 ∧ best.2 ≤ r.2 := by split at h2 <;> omega
      refine ⟨?_, hx.2, ?_⟩
      · rcases h1 with rfl | ⟨i, hi, hr⟩
        · split
          · exact Or.inr ⟨0, by simp⟩
          · exact Or.inl rfl
        · exact Or.inr ⟨i + 1, by simpa using hi, by omega⟩
      · intro y hy
        rcases List.mem_cons.mp hy with rfl | hy
        · exact hx.1
        · exact h3 y hy

lemma maxByKey_cons (x : ℕ) (xs : List ℕ) :
    ∃ i m, maxByKey (x :: xs) = some (i, m) ∧ (x :: xs)[i]? = some m ∧ ∀ y ∈ x :: xs, y ≤ m := by
  obtain ⟨h1, h2, h3⟩ := foldl_max xs 1 (0, x)
  refine ⟨_, _, rfl, ?_, ?_⟩
  · rcases h1 with h | ⟨i, hi, hr⟩
    · simp [h]
    · rw [hr, Nat.add_comm 1 i, List.getElem?_cons_succ, hi]
  · intro y hy
    rcases List.mem_cons.mp hy with rfl | hy
    · exact h2
    · exact h3 y hy

/-- The backstop pops exactly one sample, or there is nothing it may pop. -/
lemma pop_cases (k : Retained) :
    (k.popLongestFront = (k, false) ∧ spare k = 0) ∨
      ∃ k', k.popLongestFront = (k', true) ∧ DropsFronts k k' ∧ k'.count + 1 = k.count ∧
        spare k' + 1 = spare k := by
  obtain ⟨i, m, hmax, hget, hle⟩ := maxByKey_cons (k.states.length - 1) [k.series.length,
    k.seq.length, k.inflight.length, k.rtt.length, k.throughput.length]
  simp only [Retained.popLongestFront, hmax]
  by_cases hm : m = 0
  · subst hm
    refine Or.inl ⟨by simp, ?_⟩
    simp only [List.mem_cons, List.not_mem_nil, or_false, forall_eq_or_imp, forall_eq] at hle
    simp only [spare]
    omega
  · refine Or.inr ?_
    have hd := DropsFronts.refl k
    have hi : i < 6 := by simpa using (List.getElem?_eq_some_iff.mp hget).1
    have hne : ∀ {α : Type} (l : List α), l.length = m → l.isEmpty = false := by
      intro α l hl
      cases l
      · exact absurd hl.symm hm
      · rfl
    rw [if_neg hm]
    interval_cases i <;> simp only [List.getElem?_cons_zero, List.getElem?_cons_succ,
      Option.some.injEq] at hget
    · have hlast : k.states.tail.getLast? = k.states.getLast? := by
        match h : k.states with
        | x :: y :: l => simp [List.getLast?_cons_cons]
        | [_] | [] => simp [h] at hget; omega
      have hpop : k.states.isEmpty = false := by
        match h : k.states with
        | _ :: _ => rfl
        | [] => simp [h] at hget; omega
      refine ⟨{ k with states := k.states.tail }, by simp [hpop],
        { hd with states := List.tail_suffix _, last := hlast }, ?_, ?_⟩ <;>
      simp only [Retained.count, spare, List.length_tail] <;> omega
    · refine ⟨{ k with series := k.series.tail }, by simp [hne _ hget],
        { hd with series := List.tail_suffix _ }, ?_, ?_⟩ <;>
      simp only [Retained.count, spare, List.length_tail] <;> omega
    · refine ⟨{ k with seq := k.seq.tail }, by simp [hne _ hget],
        { hd with seq := List.tail_suffix _ }, ?_, ?_⟩ <;>
      simp only [Retained.count, spare, List.length_tail] <;> omega
    · refine ⟨{ k with inflight := k.inflight.tail }, by simp [hne _ hget],
        { hd with inflight := List.tail_suffix _ }, ?_, ?_⟩ <;>
      simp only [Retained.count, spare, List.length_tail] <;> omega
    · refine ⟨{ k with rtt := k.rtt.tail }, by simp [hne _ hget],
        { hd with rtt := List.tail_suffix _ }, ?_, ?_⟩ <;>
      simp only [Retained.count, spare, List.length_tail] <;> omega
    · refine ⟨{ k with throughput := k.throughput.tail }, by simp [hne _ hget],
        { hd with throughput := List.tail_suffix _ }, ?_, ?_⟩ <;>
      simp only [Retained.count, spare, List.length_tail] <;> omega

@[simp] lemma count_push (k : Retained) (x : Sample) : (k.push x).count = k.count + 1 := by
  cases x <;> simp only [Retained.push, Retained.count, List.length_append,
    List.length_singleton] <;> omega

/-- Every push adds a spare sample, but a first state sample. -/
lemma spare_push (k : Retained) (x : Sample) (hx : ∀ y, x = .state y → k.states ≠ []) :
    spare (k.push x) = spare k + 1 := by
  cases x with
  | state y =>
      have := List.length_pos_iff.mpr (hx y rfl)
      simp only [Retained.push, spare, List.length_append, List.length_singleton]
      omega
  | _ =>
      simp only [Retained.push, spare, List.length_append, List.length_singleton]
      omega

end TcpVisr.Recording
