import Mathlib.Data.List.TakeWhile
import Mathlib.Tactic

/-!
Predicates that hold of a front part of a list.

When no entry that meets `p` stands behind one that does not, the entries that meet `p` are
the front of the list, so a loop that pops while `p` holds removes exactly these.
-/

namespace TcpVisr.Lib.Front

variable {α β : Type*} {p : α → Bool} {l : List α}

/-- The loop commutes with a map that keeps, on the entries of the list, what it asks. -/
lemma dropWhile_map_of {f : α → β} {q : β → Bool} (h : ∀ x ∈ l, q (f x) = p x) :
    (l.map f).dropWhile q = (l.dropWhile p).map f := by
  induction l with
  | nil => rfl
  | cons x xs ih =>
      have hx := h x List.mem_cons_self
      rw [List.map_cons, List.dropWhile_cons, List.dropWhile_cons, hx]
      split
      · exact ih fun y hy => h y (List.mem_cons_of_mem x hy)
      · rfl

/-- Popping early changes nothing: what an earlier loop popped, a later one that pops at
least as much pops too, whatever has been appended in between. -/
lemma dropWhile_dropWhile_append {q : α → Bool} (h : ∀ x ∈ l, p x = true → q x = true)
    (xs : List α) : (l.dropWhile p ++ xs).dropWhile q = (l ++ xs).dropWhile q := by
  induction l with
  | nil => rfl
  | cons x l ih =>
      cases hx : p x with
      | true =>
          rw [List.dropWhile_cons_of_pos hx, ih fun y hy => h y (List.mem_cons_of_mem x hy),
            List.cons_append, List.dropWhile_cons_of_pos (h x List.mem_cons_self hx)]
      | false => rw [List.dropWhile_cons_of_neg (by simp [hx])]

lemma eq_false_of_head {x : α} (hx : p x = false)
    (hl : ∀ y ∈ l, p y = true → p x = true) : ∀ y ∈ l, p y = false := by
  intro y hy
  have := hl y hy
  simpa [hx] using this

lemma takeWhile_eq_filter (hl : l.Pairwise fun x y => p y = true → p x = true) :
    l.takeWhile p = l.filter p := by
  induction l with
  | nil => rfl
  | cons x xs ih =>
      obtain ⟨hx, hxs⟩ := List.pairwise_cons.mp hl
      cases h : p x with
      | true => rw [List.takeWhile_cons_of_pos h, List.filter_cons_of_pos h, ih hxs]
      | false =>
          have hnone := eq_false_of_head h hx
          rw [List.takeWhile_cons_of_neg (by simp [h]), List.filter_cons_of_neg (by simp [h]),
            List.filter_eq_nil_iff.mpr (by simpa using hnone)]

lemma dropWhile_eq_filter (hl : l.Pairwise fun x y => p y = true → p x = true) :
    l.dropWhile p = l.filter fun x => !p x := by
  induction l with
  | nil => rfl
  | cons x xs ih =>
      obtain ⟨hx, hxs⟩ := List.pairwise_cons.mp hl
      cases h : p x with
      | true =>
          rw [List.dropWhile_cons_of_pos h, List.filter_cons_of_neg (by simp [h]), ih hxs]
      | false =>
          have hnone := eq_false_of_head h hx
          rw [List.dropWhile_cons_of_neg (by simp [h]), List.filter_cons_of_pos (by simp [h]),
            List.filter_eq_self.mpr (by simpa using hnone)]

/-- The entry at the length of the front is the first behind it. -/
lemma getElem?_length_takeWhile (p : α → Bool) (l : List α) :
    l[(l.takeWhile p).length]? = (l.dropWhile p).head? := by
  induction l with
  | nil => rfl
  | cons x l ih => cases h : p x <;> simp [h, ih]

/-- The entry before that is the last of the front. -/
lemma getElem?_pred_takeWhile (p : α → Bool) (l : List α) :
    (match (l.takeWhile p).length with
      | 0 => none
      | k + 1 => l[k]?) = (l.takeWhile p).getLast? := by
  rw [List.getLast?_eq_getElem?]
  have hp := List.takeWhile_prefix (l := l) p
  generalize l.takeWhile p = m at hp
  obtain ⟨r, rfl⟩ := hp
  rcases hm : m.length with _ | k
  · rw [List.length_eq_zero_iff.mp hm]
    rfl
  · simp only [Nat.add_sub_cancel]
    rw [List.getElem?_append_left (by omega)]

/-- The head, if it meets `p`, is the first entry that does. -/
lemma filter_head?_eq_find? (hl : l.Pairwise fun x y => p y = true → p x = true) :
    l.head?.filter p = l.find? p := by
  rw [← List.head?_takeWhile, takeWhile_eq_filter hl, List.head?_filter]

/-- **Popping is exhaustive** exactly if the entries that meet `p` are the front. -/
theorem forall_dropWhile_iff :
    (∀ x ∈ l.dropWhile p, p x = false) ↔ l.Pairwise fun x y => p y = true → p x = true := by
  constructor
  · intro h
    induction l with
    | nil => exact List.Pairwise.nil
    | cons x xs ih =>
        rw [List.pairwise_cons]
        cases hx : p x with
        | true => exact ⟨fun _ _ _ => rfl, ih (by rwa [List.dropWhile_cons_of_pos hx] at h)⟩
        | false =>
            rw [List.dropWhile_cons_of_neg (by simp [hx]), List.forall_mem_cons] at h
            have hxs : ∀ y ∈ xs.dropWhile p, p y = false :=
              fun y hy => h.2 y (List.dropWhile_subset p hy)
            exact ⟨fun y hy hp => by simp [h.2 y hy] at hp, ih hxs⟩
  · intro h x hx
    rw [dropWhile_eq_filter h] at hx
    simpa using List.of_mem_filter hx

/-- **Popping is filtering** in the same case only. -/
theorem dropWhile_eq_filter_iff :
    (l.dropWhile p = l.filter fun x => !p x) ↔
      l.Pairwise fun x y => p y = true → p x = true := by
  refine ⟨fun h => forall_dropWhile_iff.mp fun x hx => ?_, dropWhile_eq_filter⟩
  rw [h] at hx
  simpa using List.of_mem_filter hx

end TcpVisr.Lib.Front
