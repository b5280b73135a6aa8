import Mathlib.Data.List.Sort
import TcpVisr.Lib.Front

/-!
Last value carried forward: what a time-indexed series says as of a time `T`.

The value as of `T` is the last entry at or before `T`. On a sorted series it is found at
the partition point, so a binary search answers it.
-/

namespace TcpVisr.Lib.AsOf

variable {α : Type*} {key : α → ℕ} {T : ℕ} {l : List α}

/-- The last entry at or before `T`. -/
def asOf (key : α → ℕ) (T : ℕ) (l : List α) : Option α := (l.filter fun x => key x ≤ T).getLast?

/-- How many leading entries satisfy `p`; on a partitioned slice, the partition point. -/
def partitionPoint (p : α → Bool) (l : List α) : ℕ := (l.takeWhile p).length

lemma takeWhile_eq_filter_of_sorted (hs : l.Pairwise fun x y => key x ≤ key y) (T : ℕ) :
    l.takeWhile (fun x => decide (key x ≤ T)) = l.filter fun x => key x ≤ T := by
  refine Front.takeWhile_eq_filter (hs.imp fun hxy hy => ?_)
  exact decide_eq_true (hxy.trans (of_decide_eq_true hy))

/-- The entry before the partition point of a sorted series is its value as of `T`. -/
lemma getElem?_partitionPoint (hs : l.Pairwise fun x y => key x ≤ key y) (T : ℕ) :
    (match partitionPoint (fun x => decide (key x ≤ T)) l with
      | 0 => none
      | k + 1 => l[k]?) = asOf key T l := by
  rw [asOf, ← takeWhile_eq_filter_of_sorted hs T]
  exact Front.getElem?_pred_takeWhile _ l

lemma asOf_append_later {xs : List α} (hx : ∀ x ∈ xs, T < key x) :
    asOf key T (l ++ xs) = asOf key T l := by
  have : xs.filter (fun x => decide (key x ≤ T)) = [] := by
    rw [List.filter_eq_nil_iff]
    intro y hy
    have := hx y hy
    simp; omega
  simp [asOf, List.filter_append, this]

lemma asOf_eq_getLast? (hl : ∀ x ∈ l, key x ≤ T) : asOf key T l = l.getLast? := by
  rw [asOf, List.filter_eq_self.mpr (by simpa using hl)]

lemma mem_of_asOf {x : α} (h : asOf key T l = some x) : x ∈ l ∧ key x ≤ T := by
  have := List.mem_of_getLast? h
  simpa using this

lemma rel_getLast? {R : α → α → Prop} (hrefl : ∀ x, R x x) (hl : l.Pairwise R) {x y : α}
    (hx : x ∈ l) (hy : l.getLast? = some y) : R x y := by
  obtain ⟨m, rfl⟩ := List.getLast?_eq_some_iff.mp hy
  rcases List.mem_append.mp hx with h | h
  · exact (List.pairwise_append.mp hl).2.2 x h y (by simp)
  · obtain rfl : x = y := by simpa using h
    exact hrefl x

/-- **Carrying forward is monotone.** If the entries grow in the order they stand, the value
as of a later time is no smaller. -/
theorem asOf_mono {R : α → α → Prop} (hrefl : ∀ x, R x x) (hl : l.Pairwise R) {T₁ T₂ : ℕ}
    (hT : T₁ ≤ T₂) {x y : α} (hx : asOf key T₁ l = some x) (hy : asOf key T₂ l = some y) :
    R x y := by
  obtain ⟨hmem, hkey⟩ := mem_of_asOf hx
  exact rel_getLast? hrefl (hl.sublist List.filter_sublist)
    (List.mem_filter.mpr ⟨hmem, by simpa using hkey.trans hT⟩) hy

/-! ### Sorting a series by time

The order of arrival and the order of time may differ. A relation that holds in the order of
arrival holds in the order of time too if it survives every exchange the sort makes. -/

lemma pairwise_orderedInsert {R : α → α → Prop} {x : α} (hl : l.Pairwise R)
    (hx : ∀ y ∈ l, R x y ∧ (key y < key x → R y x)) :
    (l.orderedInsert (fun a b => key a ≤ key b) x).Pairwise R := by
  induction l with
  | nil => simp
  | cons y l ih =>
      obtain ⟨hy, hl⟩ := List.pairwise_cons.mp hl
      rw [List.orderedInsert_cons]
      split
      · refine List.pairwise_cons.mpr ⟨fun z hz => (hx z hz).1, List.pairwise_cons.mpr ⟨hy, hl⟩⟩
      · next hlt =>
          refine List.pairwise_cons.mpr ⟨fun z hz => ?_, ih hl fun z hz => hx z (by simp [hz])⟩
          rcases (List.mem_orderedInsert _).mp hz with rfl | hz
          · exact (hx y (by simp)).2 (by omega)
          · exact hy z hz

/-- **Stable sorting keeps order.** A relation on earlier and later entries that also holds
the other way around for every pair the times exchange holds along the sorted series. -/
theorem pairwise_sorted (key : α → ℕ) {R : α → α → Prop}
    (h : l.Pairwise fun a b => R a b ∧ (key b < key a → R b a)) :
    (l.insertionSort fun a b => key a ≤ key b).Pairwise R := by
  induction l with
  | nil => simp
  | cons x l ih =>
      obtain ⟨hx, hl⟩ := List.pairwise_cons.mp h
      rw [List.insertionSort_cons]
      exact pairwise_orderedInsert (ih hl) fun y hy => hx y ((List.mem_insertionSort _).mp hy)

/-! ### Without sorting

A linear scan of the series as it arrived: it keeps the best entry so far, and a later one of
the same time is better. -/

/-- The value as of `T`, by one scan. -/
def latest (key : α → ℕ) (T : ℕ) (l : List α) : Option α :=
  l.foldl (fun best x =>
    if key x ≤ T ∧ best.all (fun b => decide (key b ≤ key x)) = true then some x else best) none

/-- `x` is the last of the entries with the greatest time up to `T`. -/
structure IsLatest (key : α → ℕ) (T : ℕ) (l : List α) (x : α) : Prop where
  le : key x ≤ T
  last : (l.filter fun y => key y = key x).getLast? = some x
  greatest : ∀ y ∈ l, key y ≤ T → key y ≤ key x

lemma IsLatest.mem {x : α} (h : IsLatest key T l x) : x ∈ l :=
  List.mem_of_mem_filter (List.mem_of_getLast? h.last)

lemma IsLatest.unique {x y : α} (hx : IsLatest key T l x) (hy : IsLatest key T l y) : x = y := by
  have hkey : key x = key y := le_antisymm (hy.greatest x hx.mem hx.le) (hx.greatest y hy.mem hy.le)
  have hlast := hx.last
  rw [hkey, hy.last] at hlast
  exact (Option.some.inj hlast).symm

/-- What `o` says of `l` as of `T` is right. -/
def Says (key : α → ℕ) (T : ℕ) (l : List α) : Option α → Prop
  | some x => IsLatest key T l x
  | none => ∀ x ∈ l, T < key x

lemma Says.unique {o o' : Option α} (h : Says key T l o) (h' : Says key T l o') : o = o' := by
  cases o with
  | none =>
      cases o' with
      | none => rfl
      | some y => exact absurd (h y (IsLatest.mem h')) (not_lt.mpr (IsLatest.le h'))
  | some x =>
      cases o' with
      | none => exact absurd (h' x (IsLatest.mem h)) (not_lt.mpr (IsLatest.le h))
      | some y => exact congrArg some (IsLatest.unique h h')

/-- An entry in time and no older than the others in time is the one. -/
lemma isLatest_snoc {x : α} (hx : key x ≤ T) (h : ∀ y ∈ l, key y ≤ T → key y ≤ key x) :
    IsLatest key T (l ++ [x]) x := by
  refine ⟨hx, by simp, fun y hy hle => ?_⟩
  rcases List.mem_append.mp hy with hy | hy
  · exact h y hy hle
  · rw [List.mem_singleton.mp hy]

/-- An older entry, or one too late, changes nothing. -/
lemma IsLatest.snoc {b x : α} (h : IsLatest key T l b) (hx : key x ≤ T → key x < key b) :
    IsLatest key T (l ++ [x]) b := by
  refine ⟨h.le, ?_, fun y hy hle => ?_⟩
  · have hne : ¬ key x = key b := fun heq => absurd (hx (heq ▸ h.le)) (by omega)
    rw [List.filter_append, List.filter_singleton, decide_eq_false hne]
    simpa using h.last
  · rcases List.mem_append.mp hy with hy | hy
    · exact h.greatest y hy hle
    · rw [List.mem_singleton.mp hy] at hle ⊢
      exact (hx hle).le

/-- The scan is right. -/
lemma says_latest (key : α → ℕ) (T : ℕ) (l : List α) : Says key T l (latest key T l) := by
  induction l using List.reverseRecOn with
  | nil => simp [latest, Says]
  | append_singleton l x ih =>
      have hstep : latest key T (l ++ [x]) =
          if key x ≤ T ∧ (latest key T l).all (fun b => decide (key b ≤ key x)) = true then some x
          else latest key T l := by
        rw [latest, List.foldl_append]
        rfl
      rw [hstep]
      cases ho : latest key T l with
      | none =>
          have ih : ∀ y ∈ l, T < key y := by rwa [ho] at ih
          split
          · next hx => exact isLatest_snoc hx.1 fun y hy hle => absurd (ih y hy) (not_lt.mpr hle)
          · next hx =>
              intro y hy
              rcases List.mem_append.mp hy with hy | hy
              · exact ih y hy
              · rw [List.mem_singleton.mp hy]
                simpa using hx
      | some b =>
          have ih : IsLatest key T l b := by rwa [ho] at ih
          split
          · next hx =>
              have hb : key b ≤ key x := by simpa using hx.2
              exact isLatest_snoc hx.1 fun y hy hle => (ih.greatest y hy hle).trans hb
          · next hx => exact ih.snoc fun h => by simpa [h] using hx

/-- On a sorted series so is the search. -/
lemma says_asOf (hs : l.Pairwise fun x y => key x ≤ key y) (T : ℕ) :
    Says key T l (asOf key T l) := by
  cases ho : asOf key T l with
  | none =>
      intro x hx
      by_contra hle
      have hnil := List.getLast?_eq_none_iff.mp ho
      have hmem : x ∈ l.filter fun x => key x ≤ T :=
        List.mem_filter.mpr ⟨hx, by simpa using hle⟩
      rw [hnil] at hmem
      simp at hmem
  | some b =>
      have hb := (mem_of_asOf ho).2
      refine ⟨hb, ?_, fun y hy hle => ?_⟩
      · obtain ⟨m, hm⟩ := List.getLast?_eq_some_iff.mp ho
        have hsame : (l.filter fun y => key y = key b) =
            (l.filter fun x => key x ≤ T).filter fun y => key y = key b := by
          rw [List.filter_filter]
          refine List.filter_congr fun y _ => ?_
          by_cases h : key y = key b <;> simp [h, hb]
        rw [hsame, hm, List.filter_append]
        simp
      · have hrefl : ∀ x : α, (fun x y => key x ≤ key y) x x := fun _ => le_rfl
        exact rel_getLast? hrefl (hs.sublist List.filter_sublist)
          (List.mem_filter.mpr ⟨hy, by simpa using hle⟩) ho

/-- Entries that the stable sort does not tell apart keep their order. -/
lemma filter_orderedInsert (key : α → ℕ) (k : ℕ) (x : α) (l : List α) :
    (l.orderedInsert (fun a b => key a ≤ key b) x).filter (fun y => key y = k) =
      (x :: l).filter fun y => key y = k := by
  induction l with
  | nil => rfl
  | cons y l ih =>
      rw [List.orderedInsert_cons]
      split
      · rfl
      · next hlt =>
          rw [List.filter_cons, ih, List.filter_cons, List.filter_cons (x := x),
            List.filter_cons (x := y)]
          by_cases hx : key x = k <;> by_cases hy : key y = k <;> simp [hx, hy]
          omega

lemma filter_insertionSort (key : α → ℕ) (k : ℕ) (l : List α) :
    (l.insertionSort fun a b => key a ≤ key b).filter (fun y => key y = k) =
      l.filter fun y => key y = k := by
  induction l with
  | nil => rfl
  | cons x l ih => rw [List.insertionSort_cons, filter_orderedInsert, List.filter_cons,
      List.filter_cons, ih]

/-- Series with the same entries, those of each time in the same order, say the same. -/
lemma Says.of_filters {m : List α} {o : Option α} (h : Says key T l o)
    (hm : ∀ k, (m.filter fun y => key y = k) = l.filter fun y => key y = k) : Says key T m o := by
  have hmem : ∀ y, y ∈ m → y ∈ l := fun y hy => by
    have : y ∈ m.filter fun z => key z = key y := List.mem_filter.mpr ⟨hy, by simp⟩
    rw [hm] at this
    exact List.mem_of_mem_filter this
  cases o with
  | none => exact fun y hy => h y (hmem y hy)
  | some x => exact ⟨IsLatest.le h, (hm _).symm ▸ IsLatest.last h, fun y hy =>
      IsLatest.greatest h y (hmem y hy)⟩

/-- **Sorting and searching is scanning.** -/
theorem asOf_insertionSort (key : α → ℕ) (T : ℕ) (l : List α) :
    asOf key T (l.insertionSort fun a b => key a ≤ key b) = latest key T l := by
  have : Std.Total fun a b : α => key a ≤ key b := ⟨fun _ _ => le_total _ _⟩
  have : IsTrans α fun a b => key a ≤ key b := ⟨fun _ _ _ => le_trans⟩
  have h := says_asOf (List.pairwise_insertionSort (fun a b => key a ≤ key b) l) T
  exact (h.of_filters fun k => (filter_insertionSort key k l).symm).unique (says_latest key T l)

/-- The scan does not see how entries of different times are interleaved. -/
lemma latest_eq_of_filters (key : α → ℕ) (T : ℕ) {m : List α}
    (hm : ∀ k, (m.filter fun y => key y = k) = l.filter fun y => key y = k) :
    latest key T m = latest key T l :=
  (says_latest key T m).unique ((says_latest key T l).of_filters hm)

end TcpVisr.Lib.AsOf
