import Mathlib.Tactic

/-!
A rectangle of cells, stored row by row in one list.

A loop that changes one cell at a time leaves in each cell what the changes made there, in
their order, make of it. The content of the rectangle is read off column by column, row by row.
-/

namespace TcpVisr.Lib.Grid

variable {α β : Type*} {w h : ℕ}

/-- The cell of a column and a row. -/
def idx (w col row : ℕ) : ℕ := row * w + col

/-- The content of a cell. -/
def cell (g : List (Option α)) (i : ℕ) : Option α := g.getD i none

/-- The cell `i` holds what `f` makes of its content. -/
def modify (g : List (Option α)) (i : ℕ) (f : Option α → Option α) : List (Option α) :=
  g.set i (f (cell g i))

/-- What the cells hold, row by row. -/
def collect (w h : ℕ) (f : ℕ → ℕ → Option β) : List β :=
  (List.range h).flatMap fun row => (List.range w).filterMap fun col => f col row

/-! ### Where cells are -/

lemma idx_lt {col row : ℕ} (hc : col < w) (hr : row < h) : idx w col row < w * h := by
  calc idx w col row < row * w + w := Nat.add_lt_add_left hc _
    _ = (row + 1) * w := (Nat.succ_mul row w).symm
    _ ≤ h * w := Nat.mul_le_mul_right w hr
    _ = w * h := Nat.mul_comm h w

lemma idx_inj {col row col' row' : ℕ} (hc : col < w) (hc' : col' < w) :
    idx w col row = idx w col' row' ↔ col = col' ∧ row = row' := by
  refine ⟨fun heq => ?_, fun ⟨hcol, hrow⟩ => by rw [hcol, hrow]⟩
  have hw : 0 < w := by omega
  have hmod (c r : ℕ) (hc : c < w) : idx w c r % w = c ∧ idx w c r / w = r := by
    unfold idx
    rw [Nat.add_comm, Nat.add_mul_mod_self_right, Nat.add_mul_div_right _ _ hw,
      Nat.mod_eq_of_lt hc, Nat.div_eq_of_lt hc, Nat.zero_add]
    exact ⟨rfl, rfl⟩
  obtain ⟨h₁, h₂⟩ := hmod col row hc
  obtain ⟨h₃, h₄⟩ := hmod col' row' hc'
  rw [heq] at h₁ h₂
  exact ⟨h₁.symm.trans h₃, h₂.symm.trans h₄⟩

/-! ### One change and many -/

@[simp] lemma length_modify (g : List (Option α)) (i : ℕ) (f : Option α → Option α) :
    (modify g i f).length = g.length := List.length_set

lemma cell_modify {g : List (Option α)} {i j : ℕ} (hj : j < g.length)
    (f : Option α → Option α) :
    cell (modify g i f) j = if i = j then f (cell g j) else cell g j := by
  unfold cell modify
  split
  · next hij => simp [cell, hij, hj]
  · next hij => simp [List.getD, List.getElem?_set_ne hij]

lemma cell_replicate (n i : ℕ) : cell (List.replicate n (none : Option α)) i = none := by
  unfold cell
  rw [List.getD_eq_getElem?_getD, List.getElem?_replicate]
  split <;> rfl

variable {pos : β → ℕ} {upd : β → Option α → Option α}

lemma length_foldl_modify (l : List β) (g : List (Option α)) :
    (l.foldl (fun g b => modify g (pos b) (upd b)) g).length = g.length := by
  induction l generalizing g with
  | nil => rfl
  | cons b l ih => rw [List.foldl_cons, ih, length_modify]

/-- **A loop of changes**, cell by cell. -/
theorem cell_foldl_modify (l : List β) (g : List (Option α)) {i : ℕ} (hi : i < g.length) :
    cell (l.foldl (fun g b => modify g (pos b) (upd b)) g) i =
      (l.filter fun b => pos b = i).foldl (fun x b => upd b x) (cell g i) := by
  induction l generalizing g with
  | nil => rfl
  | cons b l ih =>
      rw [List.foldl_cons, ih _ (by rwa [length_modify]), cell_modify hi]
      by_cases hb : pos b = i
      · rw [if_pos hb, List.filter_cons_of_pos (by simpa using hb), List.foldl_cons]
      · rw [if_neg hb, List.filter_cons_of_neg (by simpa using hb)]

/-- A change that, made again, changes nothing is made once or not at all. -/
lemma foldl_idem {f : α → α} (hf : ∀ x, f (f x) = f x) (l : List β) (x : α) :
    l.foldl (fun x _ => f x) x = if l = [] then x else f x := by
  induction l generalizing x with
  | nil => rfl
  | cons b l ih =>
      rw [List.foldl_cons, ih, if_neg (List.cons_ne_nil b l), hf]
      exact ite_self _

/-- Writes that agree on a cell: it holds what they write, if one of them meets it. -/
theorem cell_foldl_write (l : List β) (val : β → Option α) (g : List (Option α)) {i : ℕ}
    (hi : i < g.length) {v : Option α} (hv : ∀ b ∈ l, pos b = i → val b = v) :
    cell (l.foldl (fun g b => modify g (pos b) fun _ => val b) g) i =
      if ∃ b ∈ l, pos b = i then v else cell g i := by
  rw [cell_foldl_modify l g hi]
  have hcongr : (l.filter fun b => pos b = i).foldl (fun _ b => val b) (cell g i) =
      (l.filter fun b => pos b = i).foldl (fun _ _ => v) (cell g i) := by
    refine List.foldl_ext _ _ _ fun x b hb => ?_
    obtain ⟨hb, hpos⟩ := List.mem_filter.mp hb
    exact hv b hb (of_decide_eq_true hpos)
  rw [hcongr, foldl_idem (f := fun _ => v) (fun _ => rfl)]
  by_cases h : ∃ b ∈ l, pos b = i
  · obtain ⟨b, hb, hpos⟩ := h
    rw [if_neg (List.ne_nil_of_mem (List.mem_filter.mpr ⟨hb, decide_eq_true hpos⟩)),
      if_pos ⟨b, hb, hpos⟩]
  · rw [if_neg h, if_pos (List.filter_eq_nil_iff.mpr fun b hb hpos =>
      h ⟨b, hb, of_decide_eq_true hpos⟩)]

/-- A list of cells, cell by cell. -/
lemma eq_map_cell {g : List (Option α)} {n : ℕ} (hlen : g.length = n) {f : ℕ → Option α}
    (hf : ∀ i < n, cell g i = f i) : g = (List.range n).map f := by
  refine List.ext_getElem (by simpa using hlen) fun i hi _ => ?_
  rw [List.getElem_map, List.getElem_range, ← hf i (hlen ▸ hi), cell,
    List.getD_eq_getElem?_getD, List.getElem?_eq_getElem hi, Option.getD_some]

/-! ### Reading the cells -/

variable {f f' : ℕ → ℕ → Option β}

lemma mem_collect {m : β} :
    m ∈ collect w h f ↔ ∃ col < w, ∃ row < h, f col row = some m := by
  simp only [collect, List.mem_flatMap, List.mem_range, List.mem_filterMap]
  constructor
  · rintro ⟨row, hr, col, hc, hm⟩
    exact ⟨col, hc, row, hr, hm⟩
  · rintro ⟨col, hc, row, hr, hm⟩
    exact ⟨row, hr, col, hc, hm⟩

lemma collect_congr (hf : ∀ col < w, ∀ row < h, f col row = f' col row) :
    collect w h f = collect w h f' := by
  unfold collect
  refine List.flatMap_congr fun row hr => List.filterMap_congr fun col hc => ?_
  exact hf col (List.mem_range.mp hc) row (List.mem_range.mp hr)

/-- No two cells are read as the same. -/
lemma pairwise_collect (key : β → ℕ × ℕ)
    (hkey : ∀ col row m, f col row = some m → key m = (col, row)) :
    (collect w h f).Pairwise fun m m' => key m ≠ key m' := by
  unfold collect
  rw [List.pairwise_flatMap]
  constructor
  · intro row _
    rw [List.pairwise_filterMap]
    refine (List.nodup_range (n := w)).imp fun {col col'} hne m hm m' hm' heq => hne ?_
    rw [hkey _ _ _ hm, hkey _ _ _ hm'] at heq
    exact (Prod.mk.inj heq).1
  · refine (List.nodup_range (n := h)).imp fun {row row'} hne m hm m' hm' heq => hne ?_
    obtain ⟨col, -, hm⟩ := List.mem_filterMap.mp hm
    obtain ⟨col', -, hm'⟩ := List.mem_filterMap.mp hm'
    rw [hkey _ _ _ hm, hkey _ _ _ hm'] at heq
    exact (Prod.mk.inj heq).2

end TcpVisr.Lib.Grid
