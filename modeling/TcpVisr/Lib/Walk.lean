import TcpVisr.Lib.AsOf

/-!
Stepping through a sorted list of marks.

From any point the next mark is found by one search, and so is the one before. Stepping on and
on visits every mark ahead once, in order, and then finds none.
-/

namespace TcpVisr.Lib.Walk

open AsOf

variable {α : Type*} {key : α → ℕ} {E L : List α} {t : α} {m n : ℕ} {next : α → Option α}

/-- The points that `n` steps from `t` visit; fewer than `n` if a step finds none. -/
def walk (next : α → Option α) : ℕ → α → List α
  | 0, _ => []
  | n + 1, t =>
    match next t with
    | none => []
    | some u => u :: walk next n u

/-- One step, or none. -/
def advance (next : α → Option α) (t : α) : α := (next t).getD t

/-- The mark behind the partition point. -/
def following (key : α → ℕ) (E : List α) (t : ℕ) : Option α :=
  E[partitionPoint (fun x => decide (key x ≤ t)) E]?

/-- The mark before the partition point. -/
def preceding (key : α → ℕ) (E : List α) (t : ℕ) : Option α :=
  match partitionPoint (fun x => decide (key x < t)) E with
  | 0 => none
  | k + 1 => E[k]?

/-! ### Walking -/

lemma walk_none (h : next t = none) (n : ℕ) : walk next n t = [] := by
  cases n with
  | zero => rfl
  | succ n => simp only [walk, h]

lemma walk_some {u : α} (h : next t = some u) (n : ℕ) :
    walk next (n + 1) t = u :: walk next n u := by
  simp only [walk, h]

/-- Stepping to the first mark ahead, in a list where each mark is ahead of those before it,
visits all marks ahead. -/
theorem walk_head {r : α → α → Prop} [DecidableRel r] (htrans : ∀ x y z, r x y → r y z → r x z)
    (hirr : ∀ x, ¬ r x x) (hs : E.Pairwise r) (n : ℕ) (t : α) :
    walk (fun t => (E.filter fun x => r t x).head?) n t = (E.filter fun x => r t x).take n := by
  induction n generalizing t with
  | zero => rfl
  | succ n ih =>
      cases hE : E.filter fun x => decide (r t x) with
      | nil => rw [walk_none (by rw [hE]; rfl), List.take_nil]
      | cons u L =>
          have hpair : (u :: L).Pairwise r := hE ▸ hs.sublist List.filter_sublist
          have htu : r t u := by
            have : u ∈ E.filter fun x => decide (r t x) := by simp [hE]
            simpa using (List.mem_filter.mp this).2
          have hahead : (E.filter fun x => decide (r u x)) = L := by
            have hsame : (E.filter fun x => decide (r u x)) =
                (E.filter fun x => decide (r t x)).filter fun x => decide (r u x) := by
              rw [List.filter_filter]
              refine List.filter_congr fun x _ => ?_
              by_cases h : r u x <;> simp [h, htrans t u x htu]
            rw [hsame, hE, List.filter_cons_of_neg (by simpa using hirr u),
              List.filter_eq_self.mpr]
            simpa using (List.pairwise_cons.mp hpair).1
          rw [walk_some (by rw [hE]; rfl), ih, hahead, List.take_succ_cons]

/-- Where `n` steps end, if a step that finds nothing stays. -/
theorem iterate_advance (h : ∀ n, walk next n t = L.take n) (n : ℕ) :
    (t :: L)[min n L.length]? = some ((advance next)^[n] t) := by
  induction n generalizing t L with
  | zero => simp
  | succ n ih =>
      rw [Function.iterate_succ_apply]
      have hone := h 1
      cases hn : next t with
      | none =>
          rw [walk_none hn] at hone
          obtain rfl : L = [] := by
            cases L with
            | nil => rfl
            | cons => simp at hone
          have hstay : advance next t = t := by rw [advance, hn]; rfl
          rw [hstay]
          simpa using ih h
      | some u =>
          rw [walk_some hn] at hone
          obtain ⟨M, rfl⟩ : ∃ M, L = u :: M := by
            cases L with
            | nil => simp at hone
            | cons v M => exact ⟨M, by simpa [walk, eq_comm] using hone⟩
          have hgo : advance next t = u := by rw [advance, hn]; rfl
          have hrest : ∀ n, walk next n u = M.take n := fun n => by
            have := h (n + 1)
            rw [walk_some hn, List.take_succ_cons] at this
            exact (List.cons.inj this).2
          rw [hgo, List.length_cons, Nat.succ_min_succ, List.getElem?_cons_succ]
          exact ih hrest

/-! ### Searching -/

section Sorted

variable (hs : E.Pairwise fun x y => key x < key y)

include hs

lemma following_eq (t : ℕ) : following key E t = (E.filter fun x => t < key x).head? := by
  have hfront : E.Pairwise fun x y =>
      decide (key y ≤ t) = true → decide (key x ≤ t) = true :=
    hs.imp fun hxy hy => decide_eq_true (hxy.le.trans (of_decide_eq_true hy))
  unfold following partitionPoint
  rw [Front.getElem?_length_takeWhile, Front.dropWhile_eq_filter hfront]
  simp only [← decide_not, not_le]

lemma preceding_eq (t : ℕ) :
    preceding key E t = (E.reverse.filter fun x => key x < t).head? := by
  have hfront : E.Pairwise fun x y => decide (key y < t) = true → decide (key x < t) = true :=
    hs.imp fun hxy hy => decide_eq_true (hxy.trans (of_decide_eq_true hy))
  rw [List.filter_reverse, List.head?_reverse, ← Front.takeWhile_eq_filter hfront]
  exact Front.getElem?_pred_takeWhile _ E

/-- **Forward.** -/
theorem walk_following (n : ℕ) (t : α) :
    walk (fun x => following key E (key x)) n t = (E.filter fun x => key t < key x).take n := by
  simp only [following_eq hs]
  exact walk_head (r := fun x y => key x < key y) (fun _ _ _ => lt_trans) (fun _ => lt_irrefl _)
    hs n t

/-- **Back.** -/
theorem walk_preceding (n : ℕ) (t : α) :
    walk (fun x => preceding key E (key x)) n t =
      (E.filter fun x => key x < key t).reverse.take n := by
  simp only [preceding_eq hs]
  rw [← List.filter_reverse]
  exact walk_head (r := fun x y => key y < key x) (fun _ _ _ hxy hyz => hyz.trans hxy)
    (fun _ => lt_irrefl _) (List.pairwise_reverse.mpr hs) n t

/-- Before a mark stands the one before it in the list. -/
lemma preceding_getElem {x : α} (hx : E[m]? = some x) :
    preceding key E (key x) = if m = 0 then none else E[m - 1]? := by
  obtain ⟨hm, rfl⟩ := List.getElem?_eq_some_iff.mp hx
  have hpoint : ∀ p : α → Bool, (∀ y ∈ E.take m, p y = true) → p E[m] = false →
      partitionPoint p E = m := by
    intro p hp hpm
    have hE : E = E.take m ++ E[m] :: E.drop (m + 1) := by
      rw [← List.drop_eq_getElem_cons hm, List.take_append_drop]
    unfold partitionPoint
    rw [hE, List.takeWhile_append_of_pos hp, List.takeWhile_cons_of_neg (by simp [hpm]),
      List.append_nil, List.length_take]
    omega
  unfold preceding
  rw [hpoint _ (fun y hy => ?_) (by simp)]
  · cases m <;> rfl
  · obtain ⟨i, hi, rfl⟩ := List.mem_take_iff_getElem.mp hy
    exact decide_eq_true (List.pairwise_iff_getElem.mp hs i m (by omega) hm (by omega))

end Sorted

end TcpVisr.Lib.Walk
