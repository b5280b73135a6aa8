import Mathlib.Data.List.DropRight
import Mathlib.Data.List.Sort
import Mathlib.Tactic

/-!
Ageing a time-indexed queue by popping its front.

Entries are appended in arrival order and aged by popping the front while it is older than
a horizon, never below a floor `k`. Front popping removes exactly the old entries when the
old entries form a prefix, in particular when the queue is sorted; a queue filled out of
time order can hide an old entry behind a fresh one.
-/

namespace TcpVisr.Lib.Ageing

variable {α : Type*} (key : α → ℕ)

/-- Pop the front while it is older than `h` and more than `k` entries remain. -/
def age (h k : ℕ) : List α → List α
  | [] => []
  | x :: xs => if k < xs.length + 1 ∧ key x < h then age h k xs else x :: xs

/-- Every entry behind a fresh one is fresh: the old entries form a prefix. -/
def OldFirst (h : ℕ) (l : List α) : Prop := l.Pairwise fun x y => key y < h → key x < h

variable {key} {h h' k : ℕ} {l : List α}

@[simp] lemma age_nil : age key h k [] = [] := rfl

lemma age_suffix (key : α → ℕ) (h k : ℕ) (l : List α) : age key h k l <:+ l := by
  induction l with
  | nil => simp
  | cons x xs ih =>
      unfold age
      split
      · exact ih.trans (List.suffix_cons x xs)
      · exact List.suffix_rfl

/-- Ageing spares what is fresh. -/
lemma mem_age {x : α} (hx : x ∈ l) (hfresh : h ≤ key x) : x ∈ age key h k l := by
  induction l with
  | nil => exact hx
  | cons y ys ih =>
      unfold age
      split
      · next hy =>
          rcases List.mem_cons.mp hx with rfl | hx
          · omega
          · exact ih hx
      · exact hx

/-- Ageing commutes with a map under which the same entries are old. -/
lemma age_map {β : Type*} {key' : β → ℕ} {f : α → β}
    (hf : ∀ x ∈ l, key' (f x) < h' ↔ key x < h) :
    age key' h' k (l.map f) = (age key h k l).map f := by
  induction l with
  | nil => rfl
  | cons x xs ih =>
      have hx := hf x List.mem_cons_self
      simp only [List.map_cons, age, List.length_map, hx]
      split
      · exact ih fun y hy => hf y (List.mem_cons_of_mem x hy)
      · rfl

lemma age_zero (k : ℕ) (l : List α) : age key 0 k l = l := by
  cases l <;> simp [age]

/-- Ageing never touches the last entry of a queue whose floor is positive. -/
lemma getLast?_age (hk : 0 < k) (l : List α) : (age key h k l).getLast? = l.getLast? := by
  induction l with
  | nil => rfl
  | cons x xs ih =>
      unfold age
      split
      · next hc =>
          rw [ih]
          obtain ⟨y, ys, rfl⟩ : ∃ y ys, xs = y :: ys :=
            List.exists_cons_of_length_pos (by omega)
          simp [List.getLast?_cons_cons]
      · rfl

/-- Ageing early changes nothing: what an earlier pass popped, a later pass pops too,
whatever has been appended in between. -/
lemma age_age_append (hh : h ≤ h') (k : ℕ) (l xs : List α) :
    age key h' k (age key h k l ++ xs) = age key h' k (l ++ xs) := by
  induction l with
  | nil => rfl
  | cons x l ih =>
      by_cases hc : k < l.length + 1 ∧ key x < h
      · have hc' : k < (l ++ xs).length + 1 ∧ key x < h' := by
          rw [List.length_append]; omega
        rw [age, if_pos hc, ih, List.cons_append, age, if_pos hc']
      · rw [age, if_neg hc]

lemma age_age (hh : h ≤ h') (k : ℕ) (l : List α) :
    age key h' k (age key h k l) = age key h' k l := by
  simpa using age_age_append hh k l []

lemma age_append_congr {l m : List α} (hlm : age key h k l = age key h k m) (xs : List α) :
    age key h k (l ++ xs) = age key h k (m ++ xs) := by
  rw [← age_age_append le_rfl k l, ← age_age_append le_rfl k m, hlm]

lemma OldFirst.of_cons {x : α} {xs : List α} (ho : OldFirst key h (x :: xs)) :
    OldFirst key h xs := (List.pairwise_cons.mp ho).2

lemma OldFirst.suffix {l m : List α} (ho : OldFirst key h l) (hs : m <:+ l) :
    OldFirst key h m := ho.sublist hs.sublist

lemma OldFirst.append_fresh {xs : List α} (ho : OldFirst key h l) (hx : ∀ x ∈ xs, h ≤ key x) :
    OldFirst key h (l ++ xs) := by
  refine List.pairwise_append.mpr ⟨ho, ?_, fun a _ b hb hlt => ?_⟩
  · exact List.pairwise_of_forall_mem_list fun a _ b hb hlt => absurd (hx b hb) (by omega)
  · exact absurd (hx b hb) (by omega)

lemma OldFirst.append_old {xs : List α} (hl : ∀ x ∈ l, key x < h) (hx : ∀ x ∈ xs, key x < h) :
    OldFirst key h (l ++ xs) :=
  List.pairwise_of_forall_mem_list fun a ha _ _ _ => by
    rcases List.mem_append.mp ha with ha | ha
    · exact hl a ha
    · exact hx a ha

/-- A queue sorted by time has its old entries first, for every horizon. -/
lemma OldFirst.of_sorted (hs : l.Pairwise fun x y => key x ≤ key y) (h : ℕ) :
    OldFirst key h l := hs.imp fun hxy hlt => by omega

/-- **What front popping achieves.** On a queue whose old entries form a prefix, nothing old
survives an ageing pass, except a queue already at its floor. -/
theorem fresh_of_oldFirst (ho : OldFirst key h l) :
    (∀ x ∈ age key h k l, h ≤ key x) ∨ (age key h k l).length ≤ k := by
  induction l with
  | nil => exact Or.inl (by simp)
  | cons x xs ih =>
      unfold age
      split
      · exact ih ho.of_cons
      · next hc =>
          by_cases hk : k < xs.length + 1
          · have hx : h ≤ key x := by
              by_contra hlt
              exact hc ⟨hk, by omega⟩
            refine Or.inl fun y hy => ?_
            rcases List.mem_cons.mp hy with rfl | hy
            · exact hx
            · by_contra hlt
              have := (List.pairwise_cons.mp ho).1 y hy (by omega)
              omega
          · exact Or.inr (by simp only [List.length_cons]; omega)

/-- On a queue whose old entries form a prefix, ageing to the bottom is filtering. -/
theorem age_eq_filter (ho : OldFirst key h l) :
    age key h 0 l = l.filter fun x => h ≤ key x := by
  induction l with
  | nil => rfl
  | cons x xs ih =>
      by_cases hx : key x < h
      · have hc : 0 < xs.length + 1 ∧ key x < h := ⟨by omega, hx⟩
        rw [age, if_pos hc, ih ho.of_cons, List.filter_cons_of_neg (by simpa using hx)]
      · have hall : ∀ y ∈ x :: xs, h ≤ key y := by
          intro y hy
          rcases List.mem_cons.mp hy with rfl | hy
          · omega
          · by_contra hlt
            have := (List.pairwise_cons.mp ho).1 y hy (by omega)
            omega
        rw [age, if_neg (by omega), List.filter_eq_self.mpr (by simpa using hall)]

/-- The entries at or after the horizon, or the last one when there are none. -/
def freshOrLast (key : α → ℕ) (h : ℕ) (l : List α) : List α :=
  if l.filter (fun x => h ≤ key x) = [] then l.getLast?.toList
  else l.filter fun x => h ≤ key x

/-- The same with a floor of one: the last entry stays when nothing is fresh. -/
theorem age_one_eq (ho : OldFirst key h l) : age key h 1 l = freshOrLast key h l := by
  induction l with
  | nil => simp [freshOrLast]
  | cons x xs ih =>
      by_cases hc : 1 < xs.length + 1 ∧ key x < h
      · rw [age, if_pos hc, ih ho.of_cons]
        obtain ⟨y, ys, rfl⟩ : ∃ y ys, xs = y :: ys :=
          List.exists_cons_of_length_pos (by omega)
        have hx : ¬ h ≤ key x := by omega
        simp [freshOrLast, List.filter_cons_of_neg, hx, List.getLast?_cons_cons]
      · rw [age, if_neg hc]
        by_cases hx : key x < h
        · obtain rfl : xs = [] := List.length_eq_zero_iff.mp (by omega)
          have hx' : ¬ h ≤ key x := by omega
          simp [freshOrLast, hx']
        · have h0 := age_eq_filter ho
          rw [age, if_neg (by omega)] at h0
          unfold freshOrLast
          rw [← h0, if_neg (by simp)]

end TcpVisr.Lib.Ageing
