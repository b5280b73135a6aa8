import TcpVisr.Timeline
import TcpVisr.Transport
import TcpVisr.Lib.Grid

/-!
The Time/Sequence plot: a series projected onto a rectangle of cells.

The axes are those of the whole focus direction, so that advancing the cursor only reveals
more. A cell that several samples fall into shows the most salient of them; the cursor line
fills what is left of its column.
-/

namespace TcpVisr

open Lib.Grid

/-- Minimum inner plot rectangle. -/
def minW : ℕ := 8
def minH : ℕ := 3

/-- `u16::try_from(n)`. -/
def toU16 (n : ℤ) : Option ℕ := if 0 ≤ n ∧ n < 2 ^ 16 then some n.toNat else none

/-- `i64` arithmetic, which wraps. -/
def wrap64 (n : ℤ) : ℤ := n.bmod (2 ^ 64)

/-- Maps a nanosecond time to a column in `0..width`, clamped. -/
def colOf (t t0 spanT : ℕ) (width : BitVec 16) : ℕ :=
  if spanT = 0 then 0
  else
    min ((toU16 ((t - t0) * (width.toNat - 1) / spanT : ℕ)).getD (width.toNat - 1))
      (width.toNat - 1)

section Scale

variable {t t' t0 spanT W : ℕ} {width : BitVec 16}

/-- The conversion is out of sight of the clamp. -/
lemma min_toU16 (hW : W < 2 ^ 16) {r : ℤ} (hr : 0 ≤ r) :
    min ((toU16 r).getD W) W = min r.toNat W := by
  unfold toU16
  split
  · rfl
  · rw [Option.getD_none]
    omega

lemma pred_lt (width : BitVec 16) : width.toNat - 1 < 2 ^ 16 := by
  have := width.isLt
  omega

lemma colOf_eq (t t0 : ℕ) (h : spanT ≠ 0) (width : BitVec 16) :
    colOf t t0 spanT width =
      min ((t - t0) * (width.toNat - 1) / spanT) (width.toNat - 1) := by
  rw [colOf, if_neg h, min_toU16 (pred_lt width) (Int.natCast_nonneg _), Int.toNat_natCast]

lemma colOf_lt (t t0 spanT : ℕ) (hw : 0 < width.toNat) : colOf t t0 spanT width < width.toNat := by
  by_cases h : spanT = 0
  · rw [colOf, if_pos h]
    exact hw
  · rw [colOf_eq t t0 h]
    omega

/-- Later times lie to the right. -/
lemma colOf_mono (h : t ≤ t') (t0 spanT : ℕ) (width : BitVec 16) :
    colOf t t0 spanT width ≤ colOf t' t0 spanT width := by
  by_cases hs : spanT = 0
  · rw [colOf, colOf, if_pos hs, if_pos hs]
  · rw [colOf_eq t t0 hs, colOf_eq t' t0 hs]
    refine min_le_min_right _ (Nat.div_le_div_right (Nat.mul_le_mul_right _ ?_))
    omega

end Scale

namespace Detail

def dataGlyph : Char := '#'
def oooGlyph : Char := 'o'
def retransGlyph : Char := '·'
def sackGlyph : Char := '╎'
def cursorGlyph : Char := '┊'

/-- One plotted cell, `row` from the bottom. -/
structure Mark where
  col : ℕ
  row : ℕ
  glyph : Char
  deriving DecidableEq

/-- A resolved Time/Sequence plot. -/
structure SeqPlot where
  width : BitVec 16
  height : BitVec 16
  maxRel : ℤ
  xSpan : Nanos × Nanos
  cursorCol : ℕ
  marks : List Mark
  deriving DecidableEq

/-- Salience priority and the glyph of a kind. -/
def kindGlyph : SeqKind → ℕ × Char
  | .data true _ => (3, retransGlyph)
  | .sack => (2, sackGlyph)
  | .data false true => (1, oooGlyph)
  | .data false false => (0, dataGlyph)

/-- Maps a relative sequence to a row in `0..height`, clamped. -/
def rowOf (y maxRel : ℤ) (height : BitVec 16) : ℕ :=
  if maxRel ≤ 0 then 0
  else
    min ((toU16 ((y * (height.toNat - 1 : ℕ)).tdiv maxRel)).getD (height.toNat - 1))
      (height.toNat - 1)

section Project

variable (series : List SeqSample) (focus : SampleDir) (xSpan : Nanos × Nanos) (cursor : Nanos)
  (width height : BitVec 16)

/-- The least `rel` of the focus direction. -/
def base : ℤ := ((series.filter fun s => s.dir = focus).map SeqSample.rel).min?.getD 0

/-- The top of the sequence axis. -/
def maxRel : ℤ :=
  ((series.filter fun s => s.dir = focus).map fun s =>
    wrap64 (wrap64 (s.rel - base series focus) + s.len.toNat)).max?.getD 0

/-- The cell of a sample. -/
def cellOf (s : SeqSample) : ℕ × ℕ :=
  (colOf s.t.ns xSpan.1.ns (xSpan.2.ns - xSpan.1.ns) width,
    rowOf (wrap64 (s.rel - base series focus)) (maxRel series focus) height)

/-- The samples revealed. -/
def shown : List SeqSample :=
  series.filter fun s => decide (s.dir = focus) && decide (s.t.ns ≤ cursor.ns)

/-- What a sample makes of its cell. -/
def place (s : SeqSample) (cell : Option (ℕ × Char)) : Option (ℕ × Char) :=
  match cell with
  | some (p, _) => if (kindGlyph s.kind).1 ≤ p then cell else some (kindGlyph s.kind)
  | none => some (kindGlyph s.kind)

/-- The column of the cursor line. -/
def cursorCol : ℕ :=
  colOf (cursor.clamp xSpan.1 xSpan.2).ns xSpan.1.ns (xSpan.2.ns - xSpan.1.ns) width

/-- The cells after all samples and the cursor line. -/
def grid : List (Option (ℕ × Char)) :=
  let blank := List.replicate (width.toNat * height.toNat) none
  let sampled := (shown series focus cursor).foldl (fun grid s =>
    modify grid (idx width.toNat (cellOf series focus xSpan width height s).1
      (cellOf series focus xSpan width height s).2) (place s)) blank
  (List.range height.toNat).foldl (fun grid row =>
    modify grid (idx width.toNat (cursorCol xSpan cursor width) row) fun cell =>
      if cell.isNone then some (0, cursorGlyph) else cell) sampled

/-- Projects `series` onto a `width x height` cell grid; `none` if the rectangle is below the
minimum. -/
def project : Option SeqPlot :=
  if width.toNat < minW ∨ height.toNat < minH then none
  else
    some
      { width
        height
        maxRel := maxRel series focus
        xSpan
        cursorCol := cursorCol xSpan cursor width
        marks := collect width.toNat height.toNat fun col row =>
          (cell (grid series focus xSpan cursor width height) (idx width.toNat col row)).map
            fun c => ⟨col, row, c.2⟩ }

end Project

/-! ### Rows -/

variable {y y' m : ℤ} {height width : BitVec 16}

lemma rowOf_eq (hy : 0 ≤ y) (hm : 0 < m) (height : BitVec 16) :
    rowOf y m height =
      min (y * (height.toNat - 1 : ℕ) / m).toNat (height.toNat - 1) := by
  have hprod : 0 ≤ y * (height.toNat - 1 : ℕ) := Int.mul_nonneg hy (Int.natCast_nonneg _)
  rw [rowOf, if_neg (by omega), Int.tdiv_eq_ediv_of_nonneg hprod,
    min_toU16 (pred_lt height) (Int.ediv_nonneg hprod hm.le)]

lemma rowOf_lt (y m : ℤ) (hh : 0 < height.toNat) : rowOf y m height < height.toNat := by
  unfold rowOf
  split
  · exact hh
  · omega

/-- Greater sequence numbers lie higher. -/
lemma rowOf_mono (hy : 0 ≤ y) (h : y ≤ y') (m : ℤ) (height : BitVec 16) :
    rowOf y m height ≤ rowOf y' m height := by
  by_cases hm : 0 < m
  · rw [rowOf_eq hy hm, rowOf_eq (hy.trans h) hm]
    refine min_le_min_right _ (Int.toNat_le_toNat (Int.ediv_le_ediv hm ?_))
    exact Int.mul_le_mul_of_nonneg_right h (Int.natCast_nonneg _)
  · rw [rowOf, rowOf, if_pos (by omega), if_pos (by omega)]

/-! ### The most salient sample -/

/-- What a cell holds after the samples `l`: the glyph of one that none exceeds. -/
def Tops (l : List SeqSample) : Option (ℕ × Char) → Prop
  | none => l = []
  | some c => ∃ s ∈ l, kindGlyph s.kind = c ∧ ∀ s' ∈ l, (kindGlyph s'.kind).1 ≤ c.1

lemma tops_foldl (l : List SeqSample) : Tops l (l.foldl (fun c s => place s c) none) := by
  induction l using List.reverseRecOn with
  | nil => rfl
  | append_singleton l s ih =>
      rw [List.foldl_append, List.foldl_cons, List.foldl_nil]
      generalize l.foldl (fun c s => place s c) none = c at ih
      cases c with
      | none =>
          rw [show l = [] from ih]
          exact ⟨s, by simp, rfl, by simp⟩
      | some c =>
          obtain ⟨s₀, h₀, hc, hmax⟩ := ih
          unfold place
          dsimp only
          split
          · next hle =>
              refine ⟨s₀, by simp [h₀], hc, fun s' hs' => ?_⟩
              rcases List.mem_append.mp hs' with hs' | hs'
              · exact hmax s' hs'
              · rwa [List.mem_singleton.mp hs']
          · next hlt =>
              refine ⟨s, by simp, rfl, fun s' hs' => ?_⟩
              rcases List.mem_append.mp hs' with hs' | hs'
              · exact (hmax s' hs').trans (by omega)
              · rw [List.mem_singleton.mp hs']

/-- The glyph of the most salient of the samples `l`: a retransmit before a SACK, a SACK before
what is out of order, that before data. -/
def topGlyph (l : List SeqSample) : Option Char :=
  let kinds := l.map SeqSample.kind
  if .data true true ∈ kinds ∨ .data true false ∈ kinds then some retransGlyph
  else if .sack ∈ kinds then some sackGlyph
  else if .data false true ∈ kinds then some oooGlyph
  else if .data false false ∈ kinds then some dataGlyph
  else none

lemma topGlyph_congr {l l' : List SeqSample} (h : ∀ s, s ∈ l ↔ s ∈ l') :
    topGlyph l = topGlyph l' := by
  have hkinds (k : SeqKind) : k ∈ l.map SeqSample.kind ↔ k ∈ l'.map SeqSample.kind := by
    simp only [List.mem_map, h]
  simp only [topGlyph, hkinds]

/-- What the loop leaves in a cell is the glyph of the most salient sample. -/
lemma tops_glyph {l : List SeqSample} {c : Option (ℕ × Char)} (h : Tops l c) :
    c.map Prod.snd = topGlyph l := by
  cases c with
  | none => rw [show l = [] from h]; rfl
  | some c =>
      obtain ⟨s, hs, rfl, hmax⟩ := h
      have hkind : s.kind ∈ l.map SeqSample.kind := List.mem_map_of_mem hs
      have hnone (k : SeqKind) (hk : (kindGlyph s.kind).1 < (kindGlyph k).1) :
          k ∉ l.map SeqSample.kind := by
        intro hmem
        obtain ⟨s', hs', rfl⟩ := List.mem_map.mp hmem
        exact absurd (hmax s' hs') (Nat.not_le.mpr hk)
      generalize s.kind = k at hkind hnone
      unfold topGlyph
      match k with
      | .data true true => simp [hkind, kindGlyph]
      | .data true false => simp [hkind, kindGlyph]
      | .sack =>
          simp [hkind, kindGlyph, hnone (.data true true) (by decide),
            hnone (.data true false) (by decide)]
      | .data false true =>
          simp [hkind, kindGlyph, hnone (.data true true) (by decide),
            hnone (.data true false) (by decide), hnone .sack (by decide)]
      | .data false false =>
          simp [hkind, kindGlyph, hnone (.data true true) (by decide),
            hnone (.data true false) (by decide), hnone .sack (by decide),
            hnone (.data false true) (by decide)]

/-- How salient a glyph is. -/
def salience (g : Char) : ℕ :=
  if g = retransGlyph then 4
  else if g = sackGlyph then 3
  else if g = oooGlyph then 2
  else if g = dataGlyph then 1
  else 0

lemma salience_kindGlyph (k : SeqKind) : salience (kindGlyph k).2 = (kindGlyph k).1 + 1 := by
  match k with
  | .data true _ => rfl
  | .sack => rfl
  | .data false true => rfl
  | .data false false => rfl

lemma topGlyph_eq_none {l : List SeqSample} : topGlyph l = none ↔ l = [] := by
  constructor
  · intro h
    have htops := tops_foldl l
    have heq := tops_glyph htops
    rw [h, Option.map_eq_none_iff] at heq
    rwa [heq] at htops
  · rintro rfl
    rfl

lemma exists_top {l : List SeqSample} {g : Char} (h : topGlyph l = some g) :
    ∃ s ∈ l, (kindGlyph s.kind).2 = g ∧
      ∀ s' ∈ l, (kindGlyph s'.kind).1 ≤ (kindGlyph s.kind).1 := by
  have htops := tops_foldl l
  have heq := tops_glyph htops
  rw [h] at heq
  obtain ⟨c, hc, rfl⟩ := Option.map_eq_some_iff.mp heq
  rw [hc] at htops
  obtain ⟨s, hs, rfl, hmax⟩ := htops
  exact ⟨s, hs, rfl, hmax⟩

lemma topGlyph_ne_cursor {l : List SeqSample} {g : Char} (h : topGlyph l = some g) :
    g ≠ cursorGlyph := by
  obtain ⟨s, -, rfl, -⟩ := exists_top h
  intro heq
  have := salience_kindGlyph s.kind
  rw [heq] at this
  exact absurd this (by simp [salience, cursorGlyph, retransGlyph, sackGlyph, oooGlyph, dataGlyph])

/-- More samples are at least as salient. -/
lemma salience_mono {l l' : List SeqSample} (h : ∀ s ∈ l, s ∈ l') {g g' : Char}
    (hg : topGlyph l = some g) (hg' : topGlyph l' = some g') : salience g ≤ salience g' := by
  obtain ⟨s, hs, rfl, -⟩ := exists_top hg
  obtain ⟨s', -, rfl, hmax⟩ := exists_top hg'
  rw [salience_kindGlyph, salience_kindGlyph]
  exact Nat.succ_le_succ (hmax s (h s hs))

/-! ### The axes -/

/-- A series whose offsets leave room in an `i64`, and a rectangle large enough. -/
structure Plottable (series : List SeqSample) (xSpan : Nanos × Nanos) (width height : BitVec 16) :
    Prop where
  rel : ∀ s ∈ series, |s.rel| < 2 ^ 61
  span : xSpan.1.ns ≤ xSpan.2.ns
  width : minW ≤ width.toNat
  height : minH ≤ height.toNat

section Axes

variable {series series' : List SeqSample} {focus : SampleDir} {xSpan : Nanos × Nanos}
  {cursor : Nanos} {s s' : SeqSample}

lemma wrap64_of_abs {n : ℤ} (h : |n| < 2 ^ 63) : wrap64 n = n := by
  rw [abs_lt] at h
  exact Int.bmod_eq_of_le_mul_two (by push_cast; omega) (by push_cast; omega)

/-- The base is the least offset of the focus direction, if it has any. -/
lemma base_isLeast (hs : s ∈ series) (hd : s.dir = focus) :
    IsLeast {r | ∃ s ∈ series, s.dir = focus ∧ s.rel = r} (base series focus) := by
  have hmem (r : ℤ) : r ∈ (series.filter fun s => s.dir = focus).map SeqSample.rel ↔
      ∃ s ∈ series, s.dir = focus ∧ s.rel = r := by
    simp only [List.mem_map, List.mem_filter, decide_eq_true_eq, and_assoc]
  unfold base
  cases hmin : ((series.filter fun s => s.dir = focus).map SeqSample.rel).min? with
  | none =>
      have hrel := (hmem s.rel).mpr ⟨s, hs, hd, rfl⟩
      rw [List.min?_eq_none_iff.mp hmin] at hrel
      cases hrel
  | some b =>
      obtain ⟨hb, hle⟩ := List.min?_eq_some_iff.mp hmin
      exact ⟨(hmem b).mp hb, fun r hr => hle r ((hmem r).mpr hr)⟩

lemma base_le (hs : s ∈ series) (hd : s.dir = focus) : base series focus ≤ s.rel :=
  (base_isLeast hs hd).2 ⟨s, hs, hd, rfl⟩

/-- The offset from the base does not wrap. -/
lemma offset_eq (h : ∀ s ∈ series, |s.rel| < 2 ^ 61) (hs : s ∈ series) (hd : s.dir = focus) :
    wrap64 (s.rel - base series focus) = s.rel - base series focus := by
  obtain ⟨s', hs', -, hb⟩ := (base_isLeast hs hd).1
  have h₁ := abs_lt.mp (h s hs)
  have h₂ := abs_lt.mp (h s' hs')
  refine wrap64_of_abs (abs_lt.mpr ?_)
  omega

lemma col_mono (h : s.t.ns ≤ s'.t.ns) (width height : BitVec 16) :
    (cellOf series focus xSpan width height s).1 ≤
      (cellOf series focus xSpan width height s').1 :=
  colOf_mono h _ _ _

lemma row_mono (hrel : ∀ s ∈ series, |s.rel| < 2 ^ 61) (hs : s ∈ series) (hs' : s' ∈ series)
    (hd : s.dir = focus) (hd' : s'.dir = focus) (h : s.rel ≤ s'.rel) (width height : BitVec 16) :
    (cellOf series focus xSpan width height s).2 ≤
      (cellOf series focus xSpan width height s').2 := by
  unfold cellOf
  dsimp only
  rw [offset_eq hrel hs hd, offset_eq hrel hs' hd']
  exact rowOf_mono (by have := base_le hs hd; omega) (by omega) _ _

end Axes

/-! ### What the cells hold -/

section Cells

variable (series : List SeqSample) (focus : SampleDir) (xSpan : Nanos × Nanos) (cursor : Nanos)
  (width height : BitVec 16)

/-- The revealed samples of a cell. -/
def hits (col row : ℕ) : List SeqSample :=
  (shown series focus cursor).filter fun s => cellOf series focus xSpan width height s = (col, row)

/-- What a cell shows. -/
def glyphAt (col row : ℕ) : Option Char :=
  (topGlyph (hits series focus xSpan cursor width height col row)).or
    (if cursorCol xSpan cursor width = col then some cursorGlyph else none)

lemma mem_hits {s : SeqSample} {col row : ℕ} :
    s ∈ hits series focus xSpan cursor width height col row ↔
      s ∈ series ∧ s.dir = focus ∧ s.t.ns ≤ cursor.ns ∧
        cellOf series focus xSpan width height s = (col, row) := by
  simp only [hits, shown, List.mem_filter, Bool.and_eq_true, decide_eq_true_eq, and_assoc]

lemma cellOf_lt (hw : 0 < width.toNat) (hh : 0 < height.toNat) (s : SeqSample) :
    (cellOf series focus xSpan width height s).1 < width.toNat ∧
      (cellOf series focus xSpan width height s).2 < height.toNat :=
  ⟨colOf_lt _ _ _ hw, rowOf_lt _ _ hh⟩

variable {col row : ℕ}

/-- The samples of the focus direction first, the cursor line in what they leave. -/
lemma cell_grid (hc : col < width.toNat) (hr : row < height.toNat) :
    (cell (grid series focus xSpan cursor width height) (idx width.toNat col row)).map Prod.snd =
      glyphAt series focus xSpan cursor width height col row := by
  have hw : 0 < width.toNat := by omega
  have hh : 0 < height.toNat := by omega
  have hi := idx_lt hc hr
  have hline : cursorCol xSpan cursor width < width.toNat := colOf_lt _ _ _ hw
  unfold grid
  dsimp only
  rw [cell_foldl_modify _ _ (by rwa [length_foldl_modify, List.length_replicate]),
    cell_foldl_modify _ _ (by rwa [List.length_replicate]), cell_replicate,
    foldl_idem (by rintro (_ | _) <;> rfl)]
  have hhits : ((shown series focus cursor).filter fun s => decide
      (idx width.toNat (cellOf series focus xSpan width height s).1
        (cellOf series focus xSpan width height s).2 = idx width.toNat col row)) =
      hits series focus xSpan cursor width height col row := by
    refine List.filter_congr fun s _ => ?_
    rw [decide_eq_decide, idx_inj (cellOf_lt _ _ _ _ _ hw hh s).1 hc, Prod.ext_iff]
  have hcol : ((List.range height.toNat).filter fun r => decide
      (idx width.toNat (cursorCol xSpan cursor width) r = idx width.toNat col row)) = [] ↔
      cursorCol xSpan cursor width ≠ col := by
    simp only [List.filter_eq_nil_iff, List.mem_range, decide_eq_true_eq, idx_inj hline hc]
    exact ⟨fun h heq => h row hr ⟨heq, rfl⟩, fun h _ _ heq => h heq.1⟩
  rw [hhits, glyphAt, ← tops_glyph (tops_foldl _)]
  generalize (hits series focus xSpan cursor width height col row).foldl _ none = c
  by_cases hline : cursorCol xSpan cursor width = col
  · rw [if_neg (by rw [hcol]; exact not_not.mpr hline), if_pos hline]
    cases c <;> rfl
  · rw [if_pos (hcol.mpr hline), if_neg hline]
    cases c <;> rfl

end Cells

/-! ### The order of the series -/

section Order

variable {series series' : List SeqSample} {focus : SampleDir}

lemma base_perm (h : series'.Perm series) : base series' focus = base series focus := by
  have hmin : ((series'.filter fun s => s.dir = focus).map SeqSample.rel).min? =
      ((series.filter fun s => s.dir = focus).map SeqSample.rel).min? := by
    refine Option.ext fun a => ?_
    simp only [List.min?_eq_some_iff, ((h.filter _).map _).mem_iff]
  rw [base, hmin, base]

lemma maxRel_perm (h : series'.Perm series) : maxRel series' focus = maxRel series focus := by
  unfold maxRel
  rw [base_perm h]
  congr 1
  refine Option.ext fun a => ?_
  simp only [List.max?_eq_some_iff, ((h.filter _).map _).mem_iff]

lemma cellOf_perm (h : series'.Perm series) (xSpan : Nanos × Nanos) (width height : BitVec 16) :
    cellOf series' focus xSpan width height = cellOf series focus xSpan width height := by
  funext s
  rw [cellOf, cellOf, base_perm h, maxRel_perm h]

lemma glyphAt_perm (h : series'.Perm series) (xSpan : Nanos × Nanos) (cursor : Nanos)
    (width height : BitVec 16) :
    glyphAt series' focus xSpan cursor width height =
      glyphAt series focus xSpan cursor width height := by
  funext col row
  have hhits (s : SeqSample) : s ∈ hits series' focus xSpan cursor width height col row ↔
      s ∈ hits series focus xSpan cursor width height col row := by
    rw [mem_hits, mem_hits, cellOf_perm h, h.mem_iff]
  rw [glyphAt, glyphAt, topGlyph_congr hhits]

end Order

/-! ### The projection -/

/-- What a plot shows of a series. -/
structure Shows (series : List SeqSample) (focus : SampleDir) (xSpan : Nanos × Nanos)
    (cursor : Nanos) (width height : BitVec 16) (p : SeqPlot) : Prop where
  inside : ∀ m ∈ p.marks, m.col < width.toNat ∧ m.row < height.toNat
  single : p.marks.Pairwise fun m m' => (m.col, m.row) ≠ (m'.col, m'.row)
  sampled : ∀ col row, (∃ g, g ≠ cursorGlyph ∧ ⟨col, row, g⟩ ∈ p.marks) ↔
    ∃ s ∈ series, s.dir = focus ∧ s.t.ns ≤ cursor.ns ∧
      cellOf series focus xSpan width height s = (col, row)
  salient : ∀ col row g, g ≠ cursorGlyph → ⟨col, row, g⟩ ∈ p.marks →
    topGlyph (hits series focus xSpan cursor width height col row) = some g
  line : ∀ col row, ⟨col, row, cursorGlyph⟩ ∈ p.marks ↔
    col = p.cursorCol ∧ row < height.toNat ∧
      ¬∃ s ∈ series, s.dir = focus ∧ s.t.ns ≤ cursor.ns ∧
        cellOf series focus xSpan width height s = (col, row)

section Projection

variable {series : List SeqSample} {focus : SampleDir} {xSpan : Nanos × Nanos} {cursor : Nanos}
  {width height : BitVec 16} {p : SeqPlot}

variable (series focus xSpan cursor) in
lemma project_eq (hw : minW ≤ width.toNat) (hh : minH ≤ height.toNat) :
    project series focus xSpan cursor width height =
      some ⟨width, height, maxRel series focus, xSpan, cursorCol xSpan cursor width,
        collect width.toNat height.toNat fun col row =>
          (glyphAt series focus xSpan cursor width height col row).map (Mark.mk col row)⟩ := by
  rw [project, if_neg (by omega)]
  refine congrArg some (congrArg (SeqPlot.mk _ _ _ _ _) (collect_congr fun col hc row hr => ?_))
  rw [← cell_grid series focus xSpan cursor width height hc hr, Option.map_map]
  rfl

lemma mem_marks (h : Plottable series xSpan width height)
    (hp : project series focus xSpan cursor width height = some p) {m : Mark} :
    m ∈ p.marks ↔ m.col < width.toNat ∧ m.row < height.toNat ∧
      glyphAt series focus xSpan cursor width height m.col m.row = some m.glyph := by
  rw [project_eq series focus xSpan cursor h.width h.height] at hp
  obtain rfl := Option.some.inj hp
  rw [mem_collect]
  constructor
  · rintro ⟨col, hc, row, hr, hm⟩
    obtain ⟨g, hg, rfl⟩ := Option.map_eq_some_iff.mp hm
    exact ⟨hc, hr, hg⟩
  · rintro ⟨hc, hr, hg⟩
    exact ⟨m.col, hc, m.row, hr, by rw [hg]; rfl⟩

/-- A glyph other than the cursor's is that of the most salient sample. -/
lemma glyphAt_eq {col row : ℕ} {g : Char} (hg : g ≠ cursorGlyph) :
    glyphAt series focus xSpan cursor width height col row = some g ↔
      topGlyph (hits series focus xSpan cursor width height col row) = some g := by
  unfold glyphAt
  cases topGlyph (hits series focus xSpan cursor width height col row) with
  | some g' => rfl
  | none =>
      rw [Option.none_or]
      split
      · simp [Ne.symm hg]
      · rfl

/-- The cursor line is drawn where nothing else is. -/
lemma glyphAt_cursor {col row : ℕ} :
    glyphAt series focus xSpan cursor width height col row = some cursorGlyph ↔
      cursorCol xSpan cursor width = col ∧
        hits series focus xSpan cursor width height col row = [] := by
  rw [← topGlyph_eq_none, glyphAt]
  cases htop : topGlyph (hits series focus xSpan cursor width height col row) with
  | some g =>
      have := topGlyph_ne_cursor htop
      simp [this]
  | none => simp

lemma hits_ne_nil {col row : ℕ} :
    hits series focus xSpan cursor width height col row ≠ [] ↔
      ∃ s ∈ series, s.dir = focus ∧ s.t.ns ≤ cursor.ns ∧
        cellOf series focus xSpan width height s = (col, row) := by
  constructor
  · intro h
    obtain ⟨s, hs⟩ := List.exists_mem_of_ne_nil _ h
    exact ⟨s, (mem_hits ..).mp hs⟩
  · rintro ⟨s, hs⟩
    exact List.ne_nil_of_mem ((mem_hits ..).mpr hs)

lemma shows_project (h : Plottable series xSpan width height)
    (hp : project series focus xSpan cursor width height = some p) :
    Shows series focus xSpan cursor width height p := by
  have hmem {m : Mark} : m ∈ p.marks ↔ _ := mem_marks h hp
  have hw : 0 < width.toNat := lt_of_lt_of_le (by decide) h.width
  have hh : 0 < height.toNat := lt_of_lt_of_le (by decide) h.height
  have hcell (s : SeqSample) := cellOf_lt series focus xSpan width height hw hh s
  rw [project_eq series focus xSpan cursor h.width h.height] at hp
  obtain hp := Option.some.inj hp
  constructor
  · intro m hm
    exact ⟨(hmem.mp hm).1, (hmem.mp hm).2.1⟩
  · rw [← hp]
    refine pairwise_collect (fun m : Mark => (m.col, m.row)) fun col row m hm => ?_
    obtain ⟨g, -, rfl⟩ := Option.map_eq_some_iff.mp hm
    rfl
  · intro col row
    rw [← hits_ne_nil, Ne, ← topGlyph_eq_none]
    constructor
    · rintro ⟨g, hg, hm⟩
      rw [(glyphAt_eq hg).mp (hmem.mp hm).2.2]
      exact Option.some_ne_none g
    · intro hne
      obtain ⟨g, hg⟩ := Option.ne_none_iff_exists'.mp hne
      have hcursor := topGlyph_ne_cursor hg
      obtain ⟨s, -, -, -, hs⟩ := hits_ne_nil.mp (fun hnil => hne (topGlyph_eq_none.mpr hnil))
      obtain ⟨hc, hr⟩ := hcell s
      rw [hs] at hc hr
      exact ⟨g, hcursor, hmem.mpr ⟨hc, hr, (glyphAt_eq hcursor).mpr hg⟩⟩
  · intro col row g hg hm
    exact (glyphAt_eq hg).mp (hmem.mp hm).2.2
  · intro col row
    rw [← hits_ne_nil, not_not, hmem, glyphAt_cursor, ← hp]
    constructor
    · rintro ⟨-, hr, rfl, hnil⟩
      exact ⟨rfl, hr, hnil⟩
    · rintro ⟨rfl, hr, hnil⟩
      exact ⟨colOf_lt _ _ _ hw, hr, rfl, hnil⟩

/-- A later cursor hides nothing and dulls nothing. -/
lemma reveals {c₁ c₂ : Nanos} {p₁ p₂ : SeqPlot} (h : Plottable series xSpan width height)
    (hc : c₁.ns ≤ c₂.ns) (h₁ : project series focus xSpan c₁ width height = some p₁)
    (h₂ : project series focus xSpan c₂ width height = some p₂) {col row : ℕ} {g : Char}
    (hg : g ≠ cursorGlyph) (hm : ⟨col, row, g⟩ ∈ p₁.marks) :
    ∃ g', g' ≠ cursorGlyph ∧ ⟨col, row, g'⟩ ∈ p₂.marks ∧ salience g ≤ salience g' := by
  have htop := (shows_project h h₁).salient col row g hg hm
  obtain ⟨s, hs, hd, ht, hcell⟩ := ((shows_project h h₁).sampled col row).mp ⟨g, hg, hm⟩
  obtain ⟨g', hg', hm'⟩ := ((shows_project h h₂).sampled col row).mpr
    ⟨s, hs, hd, ht.trans hc, hcell⟩
  refine ⟨g', hg', hm', salience_mono (fun s hs => ?_) htop
    ((shows_project h h₂).salient col row g' hg' hm')⟩
  rw [mem_hits] at hs ⊢
  exact ⟨hs.1, hs.2.1, hs.2.2.1.trans hc, hs.2.2.2⟩

lemma project_perm {series' : List SeqSample} (h : series'.Perm series) (focus : SampleDir)
    (xSpan : Nanos × Nanos) (cursor : Nanos) (width height : BitVec 16) :
    project series' focus xSpan cursor width height =
      project series focus xSpan cursor width height := by
  by_cases hsize : width.toNat < minW ∨ height.toNat < minH
  · rw [project, project, if_pos hsize, if_pos hsize]
  · rw [project_eq _ _ _ _ (by omega) (by omega), project_eq _ _ _ _ (by omega) (by omega),
      maxRel_perm h, glyphAt_perm h]

/-- **What the plot shows.** The axes and the cells of the samples are the same for every
cursor, and cells follow time and sequence number. -/
theorem plot_shows (h : Plottable series xSpan width height) (focus : SampleDir) :
    (∀ cursor, ∃ p, project series focus xSpan cursor width height = some p ∧
      p.width = width ∧ p.height = height ∧ p.maxRel = maxRel series focus ∧ p.xSpan = xSpan ∧
        p.cursorCol = cursorCol xSpan cursor width ∧
        Shows series focus xSpan cursor width height p) ∧
      (∀ s ∈ series, ∀ s' ∈ series, s.dir = focus → s'.dir = focus →
        (s.t.ns ≤ s'.t.ns → (cellOf series focus xSpan width height s).1 ≤
          (cellOf series focus xSpan width height s').1) ∧
        (s.rel ≤ s'.rel → (cellOf series focus xSpan width height s).2 ≤
          (cellOf series focus xSpan width height s').2)) ∧
      (∀ series' : List SeqSample, series'.Perm series → ∀ cursor,
        project series' focus xSpan cursor width height =
          project series focus xSpan cursor width height) ∧
      ∀ c₁ c₂ p₁ p₂, c₁.ns ≤ c₂.ns →
        project series focus xSpan c₁ width height = some p₁ →
        project series focus xSpan c₂ width height = some p₂ →
        ∀ col row g, g ≠ cursorGlyph → ⟨col, row, g⟩ ∈ p₁.marks →
          ∃ g', g' ≠ cursorGlyph ∧ ⟨col, row, g'⟩ ∈ p₂.marks ∧ salience g ≤ salience g' := by
  refine ⟨fun cursor => ?_, fun s hs s' hs' hd hd' => ⟨fun ht => col_mono ht width height,
    fun hrel => row_mono h.rel hs hs' hd hd' hrel width height⟩,
    fun series' hp cursor => project_perm hp focus xSpan cursor width height,
    fun c₁ c₂ p₁ p₂ hc h₁ h₂ col row g hg hm => reveals h hc h₁ h₂ hg hm⟩
  have hp := project_eq series focus xSpan cursor h.width h.height
  exact ⟨_, hp, rfl, rfl, rfl, rfl, rfl, shows_project h hp⟩

/-- Data, then data and its retransmit. -/
def twiceSent : List SeqSample :=
  [⟨.sat 0, .originToResponder, 0, 10, .data false false⟩,
    ⟨.sat 40, .originToResponder, 10, 10, .data false false⟩,
    ⟨.sat 41, .originToResponder, 10, 10, .data true false⟩]

lemma plottable_twiceSent : Plottable twiceSent (.sat 0, .sat 70) 8 4 := by
  constructor <;> decide

end Projection

/-- Eight columns and four rows: the retransmit hides the data it repeats, and the cursor line
stands on its column but not on its cell. -/
theorem plot_shows_twiceSent :
    ∃ p, project twiceSent .originToResponder (.sat 0, .sat 70) (.sat 45) 8 4 = some p ∧
      Shows twiceSent .originToResponder (.sat 0, .sat 70) (.sat 45) 8 4 p ∧
      p.maxRel = 20 ∧ p.marks = [⟨0, 0, dataGlyph⟩, ⟨4, 0, cursorGlyph⟩, ⟨4, 1, retransGlyph⟩,
        ⟨4, 2, cursorGlyph⟩, ⟨4, 3, cursorGlyph⟩] := by
  obtain ⟨p, hp, -, -, -, -, -, hshows⟩ :=
    (plot_shows plottable_twiceSent .originToResponder).1 (.sat 45)
  refine ⟨p, hp, hshows, ?_⟩
  obtain rfl := Option.some.inj hp
  decide +kernel

end Detail

end TcpVisr
