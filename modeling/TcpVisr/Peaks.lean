import TcpVisr.Detail

/-!
The three peak plots: bytes in flight, round trips, and rates.

A plot places one series after another; each shows, in every column, the tallest sample that
falls into it. The reference says of one cell at a time what it shows: the series placed last
whose peak it is, or the cursor line, or nothing.
-/

namespace TcpVisr

open Lib.Grid

/-- What the samples of the three plots share. -/
class Plotted (α : Type) where
  t : α → Nanos
  dir : α → SampleDir

instance : Plotted InFlightSample := ⟨InFlightSample.t, InFlightSample.dir⟩
instance : Plotted RttSample := ⟨RttSample.t, RttSample.dir⟩
instance : Plotted ThroughputSample := ⟨ThroughputSample.t, ThroughputSample.dir⟩

namespace Peaks

def cursorGlyph : Char := '┊'

/-- One plotted cell, `row` from the bottom. -/
structure Mark (σ : Type) where
  col : ℕ
  row : ℕ
  glyph : Char
  series : σ
  deriving DecidableEq

/-- A resolved plot; `max` is its `max_bytes`, `max_rtt` or `max_rate`. -/
structure Plot (σ : Type) where
  width : BitVec 16
  height : BitVec 16
  max : ℕ
  xSpan : Nanos × Nanos
  cursorCol : ℕ
  marks : List (Mark σ)
  deriving DecidableEq

/-- Fixed plot geometry shared by every mark. -/
structure Geom where
  focus : SampleDir
  t0 : ℕ
  spanT : ℕ
  max : ℕ
  width : BitVec 16
  height : BitVec 16
  cursor : Nanos

/-- A series to place: its samples, and what `place` reads of each. -/
structure Layer (α σ : Type) where
  samples : List α
  series : σ
  glyph : Char
  value : α → ℕ

namespace Geom

/-- Maps a nanosecond time to a column in `0..width`, clamped. -/
def col (g : Geom) (t : ℕ) : ℕ := colOf t g.t0 g.spanT g.width

/-- Maps a value to a row in `0..height`, clamped. -/
def row (g : Geom) (v : ℕ) : ℕ :=
  if g.max = 0 then 0
  else
    min ((toU16 (v * (g.height.toNat - 1) / g.max : ℕ)).getD (g.height.toNat - 1))
      (g.height.toNat - 1)

variable {α σ : Type} [Plotted α]

/-- The tallest revealed row of each column. -/
def peaks (g : Geom) (layer : Layer α σ) : List (Option ℕ) :=
  (layer.samples.filter fun s =>
    decide (Plotted.dir s = g.focus) && decide ((Plotted.t s).ns ≤ g.cursor.ns)).foldl
      (fun peak s => modify peak (g.col (Plotted.t s).ns) fun e =>
        if e.all fun r => r < g.row (layer.value s) then some (g.row (layer.value s)) else e)
      (List.replicate g.width.toNat none)

/-- Writes the mark of one column into `grid`, if the column has a peak. -/
def write (g : Geom) (layer : Layer α σ) (grid : List (Option (Mark σ))) :
    Option ℕ × ℕ → List (Option (Mark σ))
  | (some row, col) =>
      let col := (toU16 col).getD (g.width.toNat - 1)
      modify grid (idx g.width.toNat col row) fun _ => some ⟨col, row, layer.glyph, layer.series⟩
  | (none, _) => grid

/-- Writes the tallest revealed mark of each column into `grid`. -/
def place (g : Geom) (layer : Layer α σ) (grid : List (Option (Mark σ))) :
    List (Option (Mark σ)) :=
  (g.peaks layer).zipIdx.foldl (g.write layer) grid

/-- Draws the cursor line where `grid` is empty. -/
def drawCursor (g : Geom) (cursorCol : ℕ) (line : σ) (grid : List (Option (Mark σ))) :
    List (Option (Mark σ)) :=
  (List.range g.height.toNat).foldl (fun grid row =>
    modify grid (idx g.width.toNat cursorCol row) fun cell =>
      if cell.isNone then some ⟨cursorCol, row, cursorGlyph, line⟩ else cell) grid

end Geom

section Project

variable {α σ : Type} [Plotted α]

/-- Projects `layers`, in the order of their placement, onto a `width x height` cell grid whose
value axis ends at `max`; the cursor line counts as `line`. -/
def project (max : ℕ) (layers : List (Layer α σ)) (line : σ) (focus : SampleDir)
    (xSpan : Nanos × Nanos) (cursor : Nanos) (width height : BitVec 16) : Option (Plot σ) :=
  if width.toNat < minW ∨ height.toNat < minH then none
  else
    let geom : Geom :=
      { focus, t0 := xSpan.1.ns, spanT := xSpan.2.ns - xSpan.1.ns, max, width, height, cursor }
    let blank := List.replicate (width.toNat * height.toNat) none
    let placed := layers.foldl (fun grid layer => geom.place layer grid) blank
    let cursorCol := geom.col (cursor.clamp xSpan.1 xSpan.2).ns
    let grid := geom.drawCursor cursorCol line placed
    some
      { width
        height
        max
        xSpan
        cursorCol
        marks := collect width.toNat height.toNat fun col row =>
          cell grid (idx width.toNat col row) }

end Project

end Peaks

namespace Inflight

inductive Series
  | wire | cwnd
  deriving DecidableEq

def wireGlyph : Char := '#'
def cwndGlyph : Char := '+'

variable (wire overlay : List InFlightSample) (focus : SampleDir)

def layers : List (Peaks.Layer InFlightSample Series) :=
  [⟨wire, .wire, wireGlyph, InFlightSample.bytes⟩,
    ⟨overlay, .cwnd, cwndGlyph, InFlightSample.bytes⟩]

def maxBytes : ℕ :=
  (((wire ++ overlay).filter fun s => s.dir = focus).map InFlightSample.bytes).max?.getD 0

def project (xSpan : Nanos × Nanos) (cursor : Nanos) (width height : BitVec 16) :
    Option (Peaks.Plot Series) :=
  Peaks.project (maxBytes wire overlay focus) (layers wire overlay) .wire focus xSpan cursor
    width height

end Inflight

namespace Rtt

inductive Series
  | raw | smoothed | kernel
  deriving DecidableEq

def rawGlyph : Char := '.'
def smoothedGlyph : Char := '#'
def kernelGlyph : Char := '+'

variable (wire overlay : List RttSample) (focus : SampleDir)

def layers : List (Peaks.Layer RttSample Series) :=
  [⟨wire, .raw, rawGlyph, fun s => s.rtt.ns⟩, ⟨wire, .smoothed, smoothedGlyph, fun s => s.srtt.ns⟩,
    ⟨overlay, .kernel, kernelGlyph, fun s => s.srtt.ns⟩]

def maxRtt : ℕ :=
  (((wire.filter fun s => s.dir = focus).flatMap fun s => [s.rtt.ns, s.srtt.ns]) ++
    (overlay.filter fun s => s.dir = focus).map fun s => s.srtt.ns).max?.getD 0

def project (xSpan : Nanos × Nanos) (cursor : Nanos) (width height : BitVec 16) :
    Option (Peaks.Plot Series) :=
  Peaks.project (maxRtt wire overlay focus) (layers wire overlay) .raw focus xSpan cursor
    width height

end Rtt

namespace Throughput

inductive Series
  | throughput | goodput
  deriving DecidableEq

def throughputGlyph : Char := '.'
def goodputGlyph : Char := '#'

variable (wire : List ThroughputSample) (focus : SampleDir)

def total : Peaks.Layer ThroughputSample Series :=
  ⟨wire, .throughput, throughputGlyph, ThroughputSample.throughputBps⟩

def useful : Peaks.Layer ThroughputSample Series :=
  ⟨wire, .goodput, goodputGlyph, ThroughputSample.goodputBps⟩

def layers : List (Peaks.Layer ThroughputSample Series) := [total wire, useful wire]

def maxRate : ℕ :=
  ((wire.filter fun s => s.dir = focus).flatMap fun s =>
    [s.throughputBps, s.goodputBps]).max?.getD 0

def project (xSpan : Nanos × Nanos) (cursor : Nanos) (width height : BitVec 16) :
    Option (Peaks.Plot Series) :=
  Peaks.project (maxRate wire focus) (layers wire) .throughput focus xSpan cursor width height

end Throughput

namespace Peaks

section Reference

variable {α σ : Type} [Plotted α]

/-- What a plot is a plot of, besides its samples. -/
structure View where
  focus : SampleDir
  xSpan : Nanos × Nanos
  cursor : Nanos
  width : BitVec 16
  height : BitVec 16

namespace View

/-- A span the right way round, and a rectangle large enough. -/
structure Drawable (v : View) : Prop where
  span : v.xSpan.1.ns ≤ v.xSpan.2.ns
  width : minW ≤ v.width.toNat
  height : minH ≤ v.height.toNat

/-- The column of a time. -/
def column (v : View) (t : ℕ) : ℕ :=
  min ((t - v.xSpan.1.ns) * (v.width.toNat - 1) / (v.xSpan.2.ns - v.xSpan.1.ns))
    (v.width.toNat - 1)

/-- The row of a value on an axis that ends at `top`. -/
def level (v : View) (top value : ℕ) : ℕ := value * (v.height.toNat - 1) / top

end View

/-- The greatest value of the focus direction, whatever the cursor reveals. -/
def axis (layers : List (Layer α σ)) (focus : SampleDir) : ℕ :=
  (layers.flatMap fun layer =>
    (layer.samples.filter fun s => Plotted.dir s = focus).map layer.value).max?.getD 0

/-- The tallest revealed row of a column. -/
def Layer.peak (layer : Layer α σ) (v : View) (top col : ℕ) : Option ℕ :=
  ((layer.samples.filter fun s => Plotted.dir s = v.focus ∧ (Plotted.t s).ns ≤ v.cursor.ns ∧
    v.column (Plotted.t s).ns = col).map fun s => v.level top (layer.value s)).max?

/-- The column of the cursor line. -/
def View.cursorCol (v : View) : ℕ := v.column (min v.cursor.ns v.xSpan.2.ns)

/-- What a cell shows. -/
def markAt (layers : List (Layer α σ)) (line : σ) (v : View) (col row : ℕ) : Option (Mark σ) :=
  match layers.reverse.find? fun layer => layer.peak v (axis layers v.focus) col = some row with
  | some layer => some ⟨col, row, layer.glyph, layer.series⟩
  | none => if col = v.cursorCol then some ⟨col, row, cursorGlyph, line⟩ else none

/-- The reference the three plots agree with. -/
def reference (layers : List (Layer α σ)) (line : σ) (v : View) : Plot σ where
  width := v.width
  height := v.height
  max := axis layers v.focus
  xSpan := v.xSpan
  cursorCol := v.cursorCol
  marks := collect v.width.toNat v.height.toNat (markAt layers line v)

end Reference

/-! ### One series -/

section Place

variable {α σ : Type} [Plotted α] {g : Geom} {layer : Layer α σ} {col row : ℕ}

/-- Keeping the taller of two is keeping the tallest of all. -/
lemma foldl_tallest (l : List ℕ) :
    l.foldl (fun e r => if e.all fun r' => r' < r then some r else e) none = l.max? := by
  induction l using List.reverseRecOn with
  | nil => rfl
  | append_singleton l r ih =>
      rw [List.foldl_append, List.foldl_cons, List.foldl_nil, ih]
      symm
      cases hmax : l.max? with
      | none => rw [List.max?_eq_none_iff.mp hmax]; rfl
      | some m =>
          obtain ⟨hm, hle⟩ := List.max?_eq_some_iff.mp hmax
          rw [Option.all_some]
          split
          · next hlt =>
              have hlt := of_decide_eq_true hlt
              refine List.max?_eq_some_iff.mpr ⟨by simp, fun x hx => ?_⟩
              rcases List.mem_append.mp hx with hx | hx
              · exact (hle x hx).trans hlt.le
              · exact (List.mem_singleton.mp hx).le
          · next hge =>
              refine List.max?_eq_some_iff.mpr ⟨by simp [hm], fun x hx => ?_⟩
              rcases List.mem_append.mp hx with hx | hx
              · exact hle x hx
              · rw [List.mem_singleton.mp hx]
                simpa using hge

/-- The tallest revealed row of a column, as the geometry has it. -/
def Geom.peak (g : Geom) (layer : Layer α σ) (col : ℕ) : Option ℕ :=
  ((layer.samples.filter fun s => Plotted.dir s = g.focus ∧ (Plotted.t s).ns ≤ g.cursor.ns ∧
    g.col (Plotted.t s).ns = col).map fun s => g.row (layer.value s)).max?

lemma peaks_eq (g : Geom) (layer : Layer α σ) :
    g.peaks layer = (List.range g.width.toNat).map (g.peak layer) := by
  unfold Geom.peaks
  refine eq_map_cell ?_ fun col hc => ?_
  · rw [length_foldl_modify, List.length_replicate]
  · rw [cell_foldl_modify _ _ (by rwa [List.length_replicate]), cell_replicate,
      List.filter_filter, Geom.peak, ← foldl_tallest, List.foldl_map]
    congr 1
    refine List.filter_congr fun s _ => ?_
    simp only [Bool.decide_and]
    rw [Bool.and_comm, Bool.and_assoc]

lemma toU16_column (width : BitVec 16) (hc : col < width.toNat) :
    (toU16 col).getD (width.toNat - 1) = col := by
  have := width.isLt
  rw [toU16, if_pos (by omega), Option.getD_some, Int.toNat_natCast]

/-- The columns with a peak, written one after another. -/
lemma place_eq (g : Geom) (layer : Layer α σ) (grid : List (Option (Mark σ))) :
    g.place layer grid =
      ((List.range g.width.toNat).filterMap fun col =>
        (g.peak layer col).map fun row => (col, row)).foldl
          (fun grid p => modify grid (idx g.width.toNat p.1 p.2) fun _ =>
            some ⟨p.1, p.2, layer.glyph, layer.series⟩) grid := by
  have hzip : ((List.range g.width.toNat).map (g.peak layer)).zipIdx =
      (List.range g.width.toNat).map fun col => (g.peak layer col, col) :=
    List.ext_getElem (by simp) fun i _ _ => by simp
  rw [Geom.place, peaks_eq, hzip, List.foldl_map]
  have hlt : ∀ col ∈ List.range g.width.toNat, col < g.width.toNat := fun _ =>
    List.mem_range.mp
  generalize List.range g.width.toNat = cols at hlt
  induction cols generalizing grid with
  | nil => rfl
  | cons col cols ih =>
      rw [List.foldl_cons, ih _ fun c hc => hlt c (List.mem_cons_of_mem _ hc)]
      cases hpeak : g.peak layer col with
      | none => rw [List.filterMap_cons_none (by rw [hpeak]; rfl)]; rfl
      | some row =>
          rw [List.filterMap_cons_some (by rw [hpeak]; rfl), List.foldl_cons, Geom.write,
            toU16_column _ (hlt col List.mem_cons_self)]

lemma length_place (g : Geom) (layer : Layer α σ) (grid : List (Option (Mark σ))) :
    (g.place layer grid).length = grid.length := by
  rw [place_eq, length_foldl_modify]

/-- A series shows in a cell where its peak is, and leaves the others. -/
lemma cell_place (hc : col < g.width.toNat) {grid : List (Option (Mark σ))}
    (hi : idx g.width.toNat col row < grid.length) :
    cell (g.place layer grid) (idx g.width.toNat col row) =
      if g.peak layer col = some row then some ⟨col, row, layer.glyph, layer.series⟩
      else cell grid (idx g.width.toNat col row) := by
  have hmem {p : ℕ × ℕ} (hp : p ∈ (List.range g.width.toNat).filterMap fun col =>
      (g.peak layer col).map fun row => (col, row)) :
      p.1 < g.width.toNat ∧ g.peak layer p.1 = some p.2 := by
    obtain ⟨c, hc, hp⟩ := List.mem_filterMap.mp hp
    obtain ⟨r, hr, rfl⟩ := Option.map_eq_some_iff.mp hp
    exact ⟨List.mem_range.mp hc, hr⟩
  rw [place_eq, cell_foldl_write _ _ _ hi (v := some ⟨col, row, layer.glyph, layer.series⟩)]
  · refine if_congr ⟨?_, fun hpeak => ?_⟩ rfl rfl
    · rintro ⟨p, hp, hpos⟩
      obtain ⟨hlt, hpeak⟩ := hmem hp
      obtain ⟨rfl, rfl⟩ := (idx_inj hlt hc).mp hpos
      exact hpeak
    · exact ⟨(col, row), List.mem_filterMap.mpr ⟨col, List.mem_range.mpr hc, by rw [hpeak]; rfl⟩,
        rfl⟩
  · intro p hp hpos
    obtain ⟨rfl, rfl⟩ := (idx_inj (hmem hp).1 hc).mp hpos
    rfl

end Place

/-! ### All series and the cursor line -/

section Reference

variable {α σ : Type} [Plotted α] {g : Geom} {layers : List (Layer α σ)} {col row : ℕ}

lemma length_layers (g : Geom) (layers : List (Layer α σ)) (grid : List (Option (Mark σ))) :
    (layers.foldl (fun grid layer => g.place layer grid) grid).length = grid.length := by
  induction layers generalizing grid with
  | nil => rfl
  | cons layer layers ih => rw [List.foldl_cons, ih, length_place]

/-- A cell shows the series placed last of those whose peak it is. -/
lemma cell_layers (layers : List (Layer α σ)) (hc : col < g.width.toNat) {n : ℕ}
    (hi : idx g.width.toNat col row < n) :
    cell (layers.foldl (fun grid layer => g.place layer grid) (List.replicate n none))
        (idx g.width.toNat col row) =
      (layers.reverse.find? fun layer => g.peak layer col = some row).map fun layer =>
        ⟨col, row, layer.glyph, layer.series⟩ := by
  induction layers using List.reverseRecOn with
  | nil => exact cell_replicate _ _
  | append_singleton layers layer ih =>
      rw [List.foldl_append, List.foldl_cons, List.foldl_nil,
        cell_place hc (by rwa [length_layers, List.length_replicate]), ih, List.reverse_concat]
      by_cases hpeak : g.peak layer col = some row
      · rw [if_pos hpeak, List.find?_cons, decide_eq_true hpeak, Option.map_some]
      · rw [if_neg hpeak, List.find?_cons, decide_eq_false hpeak]

/-- The cursor line leaves what is there. -/
lemma cell_drawCursor {cursorCol : ℕ} (hline : cursorCol < g.width.toNat) (line : σ)
    {grid : List (Option (Mark σ))} (hc : col < g.width.toNat) (hr : row < g.height.toNat)
    (hi : idx g.width.toNat col row < grid.length) :
    cell (g.drawCursor cursorCol line grid) (idx g.width.toNat col row) =
      (cell grid (idx g.width.toNat col row)).or
        (if col = cursorCol then some ⟨col, row, cursorGlyph, line⟩ else none) := by
  have hpos (r : ℕ) : idx g.width.toNat cursorCol r = idx g.width.toNat col row ↔
      cursorCol = col ∧ r = row := idx_inj hline hc
  have hcongr (c : Option (Mark σ)) :
      ((List.range g.height.toNat).filter fun r =>
        decide (idx g.width.toNat cursorCol r = idx g.width.toNat col row)).foldl
          (fun c r => if c.isNone then some ⟨cursorCol, r, cursorGlyph, line⟩ else c) c =
      ((List.range g.height.toNat).filter fun r =>
        decide (idx g.width.toNat cursorCol r = idx g.width.toNat col row)).foldl
          (fun c _ => c.or (some ⟨col, row, cursorGlyph, line⟩)) c := by
    refine List.foldl_ext _ _ _ fun c r hr => ?_
    obtain ⟨rfl, rfl⟩ := (hpos r).mp (of_decide_eq_true (List.mem_filter.mp hr).2)
    cases c <;> rfl
  rw [Geom.drawCursor, cell_foldl_modify _ _ hi, hcongr, foldl_idem (by rintro (_ | _) <;> rfl)]
  by_cases hcol : col = cursorCol
  · have hmem : row ∈ (List.range g.height.toNat).filter fun r =>
        decide (idx g.width.toNat cursorCol r = idx g.width.toNat col row) :=
      List.mem_filter.mpr ⟨List.mem_range.mpr hr, decide_eq_true ((hpos row).mpr ⟨hcol.symm, rfl⟩)⟩
    rw [if_neg (List.ne_nil_of_mem hmem), if_pos hcol]
  · have hnil : ((List.range g.height.toNat).filter fun r =>
        decide (idx g.width.toNat cursorCol r = idx g.width.toNat col row)) = [] :=
      List.filter_eq_nil_iff.mpr fun r _ hr => hcol ((hpos r).mp (of_decide_eq_true hr)).1.symm
    rw [if_pos hnil, if_neg hcol, Option.or_none]

/-- The geometry `project` computes for a view. -/
def View.geom (v : View) (max : ℕ) : Geom where
  focus := v.focus
  t0 := v.xSpan.1.ns
  spanT := v.xSpan.2.ns - v.xSpan.1.ns
  max := max
  width := v.width
  height := v.height
  cursor := v.cursor

variable {v : View}

lemma col_geom (v : View) (max t : ℕ) : (v.geom max).col t = v.column t := by
  change colOf t v.xSpan.1.ns (v.xSpan.2.ns - v.xSpan.1.ns) v.width = v.column t
  by_cases hspan : v.xSpan.2.ns - v.xSpan.1.ns = 0
  · rw [colOf, if_pos hspan, View.column, hspan, Nat.div_zero, Nat.zero_min]
  · exact colOf_eq t _ hspan _

/-- No value of the axis is clamped. -/
lemma row_geom {max value : ℕ} (h : value ≤ max) : (v.geom max).row value = v.level max value := by
  change (if max = 0 then 0
    else min ((toU16 (value * (v.height.toNat - 1) / max : ℕ)).getD (v.height.toNat - 1))
      (v.height.toNat - 1)) = value * (v.height.toNat - 1) / max
  by_cases hmax : max = 0
  · rw [if_pos hmax, hmax, Nat.div_zero]
  · have hle : value * (v.height.toNat - 1) / max ≤ v.height.toNat - 1 :=
      Nat.div_le_of_le_mul (Nat.mul_le_mul_right _ h)
    rw [if_neg hmax, min_toU16 (pred_lt v.height) (Int.natCast_nonneg _), Int.toNat_natCast,
      min_eq_left hle]

lemma le_axis {layer : Layer α σ} (hl : layer ∈ layers) {s : α} (hs : s ∈ layer.samples)
    {focus : SampleDir} (hd : Plotted.dir s = focus) : layer.value s ≤ axis layers focus := by
  unfold axis
  have hmem : layer.value s ∈ layers.flatMap fun layer =>
      (layer.samples.filter fun s => Plotted.dir s = focus).map layer.value :=
    List.mem_flatMap.mpr ⟨layer, hl, List.mem_map_of_mem
      (List.mem_filter.mpr ⟨hs, decide_eq_true hd⟩)⟩
  cases hmax : (layers.flatMap fun layer =>
      (layer.samples.filter fun s => Plotted.dir s = focus).map layer.value).max? with
  | none => rw [List.max?_eq_none_iff.mp hmax] at hmem; cases hmem
  | some m => exact (List.max?_eq_some_iff.mp hmax).2 _ hmem

lemma peak_geom {layer : Layer α σ} (hl : layer ∈ layers) (v : View) (col : ℕ) :
    (v.geom (axis layers v.focus)).peak layer col =
      layer.peak v (axis layers v.focus) col := by
  unfold Geom.peak Layer.peak
  simp only [col_geom]
  refine congrArg List.max? (List.map_congr_left fun s hs => row_geom ?_)
  obtain ⟨hs, hp⟩ := List.mem_filter.mp hs
  exact le_axis hl hs (of_decide_eq_true hp).1

lemma col_cursor (v : View) (max : ℕ) :
    (v.geom max).col (v.cursor.clamp v.xSpan.1 v.xSpan.2).ns = v.cursorCol := by
  rw [col_geom, View.cursorCol]
  unfold Nanos.clamp View.column
  split
  · next hlt =>
      rw [Nat.sub_self, show min v.cursor.ns v.xSpan.2.ns - v.xSpan.1.ns = 0 by omega]
  · split
    · next hlt => rw [min_eq_right hlt.le]
    · next hge => rw [min_eq_left (not_lt.mp hge)]

/-- The loops of the code and the reference, which looks at one cell at a time. -/
theorem project_eq (h : v.Drawable) (layers : List (Layer α σ)) (line : σ) :
    project (axis layers v.focus) layers line v.focus v.xSpan v.cursor v.width v.height =
      some (reference layers line v) := by
  have hw : 0 < v.width.toNat := lt_of_lt_of_le (by decide) h.width
  have hline : v.cursorCol < v.width.toNat := by
    unfold View.cursorCol View.column
    omega
  have hcol := col_cursor v (axis layers v.focus)
  rw [project, if_neg (by have := h.width; have := h.height; omega)]
  change some (Plot.mk v.width v.height _ v.xSpan ((v.geom _).col _)
    (collect v.width.toNat v.height.toNat fun col row =>
      cell ((v.geom _).drawCursor ((v.geom _).col _) line _) (idx v.width.toNat col row))) = _
  rw [hcol]
  refine congrArg some (congrArg (Plot.mk _ _ _ _ _) (collect_congr fun col hc row hr => ?_))
  have hi : idx v.width.toNat col row < v.width.toNat * v.height.toNat := idx_lt hc hr
  have hfind : (layers.reverse.find? fun layer =>
      (v.geom (axis layers v.focus)).peak layer col = some row) =
      layers.reverse.find? fun layer => layer.peak v (axis layers v.focus) col = some row :=
    List.find?_congr fun layer hl => by rw [peak_geom (List.mem_reverse.mp hl)]
  refine (cell_drawCursor (g := v.geom (axis layers v.focus)) hline line hc hr
    (by rwa [length_layers, List.length_replicate])).trans ?_
  rw [markAt, ← hfind]
  refine (congrArg (Option.or · _) (cell_layers (g := v.geom (axis layers v.focus)) layers hc
    hi)).trans ?_
  cases layers.reverse.find? fun layer =>
    (v.geom (axis layers v.focus)).peak layer col = some row <;> rfl

end Reference

/-! ### What the reference promises -/

section Sound

variable {α σ : Type} [Plotted α] {layers : List (Layer α σ)} {line : σ} {v : View}
  {col row : ℕ}

/-- What holds of a plot as the reference has it. -/
structure Sound (layers : List (Layer α σ)) (line : σ) (v : View) : Prop where
  inside : ∀ m ∈ (reference layers line v).marks, m.col < v.width.toNat ∧ m.row < v.height.toNat
  single : (reference layers line v).marks.Pairwise fun m m' => (m.col, m.row) ≠ (m'.col, m'.row)
  drawn : ∀ before layer after, layers = before ++ layer :: after → ∀ col row,
    layer.peak v (axis layers v.focus) col = some row →
    (∀ later ∈ after, later.peak v (axis layers v.focus) col ≠ some row) →
      ⟨col, row, layer.glyph, layer.series⟩ ∈ (reference layers line v).marks
  only : ∀ m ∈ (reference layers line v).marks,
    (∃ layer ∈ layers, m.glyph = layer.glyph ∧ m.series = layer.series ∧
      layer.peak v (axis layers v.focus) m.col = some m.row) ∨
    m = ⟨v.cursorCol, m.row, cursorGlyph, line⟩ ∧
      ∀ layer ∈ layers, layer.peak v (axis layers v.focus) m.col ≠ some m.row
  filled : ∀ row < v.height.toNat,
    (∀ layer ∈ layers, layer.peak v (axis layers v.focus) v.cursorCol ≠ some row) →
      ⟨v.cursorCol, row, cursorGlyph, line⟩ ∈ (reference layers line v).marks
  top : 0 < axis layers v.focus →
    v.level (axis layers v.focus) (axis layers v.focus) = v.height.toNat - 1
  fixed : ∀ cursor, (reference layers line { v with cursor }).max = (reference layers line v).max
  advances : ∀ cursor : Nanos, v.cursor.ns ≤ cursor.ns → ∀ layer : Layer α σ, ∀ top col row,
    layer.peak v top col = some row →
      ∃ row', row ≤ row' ∧ layer.peak { v with cursor } top col = some row'

lemma peak_some {layer : Layer α σ} {top : ℕ} :
    layer.peak v top col = some row ↔
      (∃ s ∈ layer.samples, (Plotted.dir s = v.focus ∧ (Plotted.t s).ns ≤ v.cursor.ns ∧
        v.column (Plotted.t s).ns = col) ∧ v.level top (layer.value s) = row) ∧
      ∀ s ∈ layer.samples, Plotted.dir s = v.focus → (Plotted.t s).ns ≤ v.cursor.ns →
        v.column (Plotted.t s).ns = col → v.level top (layer.value s) ≤ row := by
  unfold Layer.peak
  rw [List.max?_eq_some_iff]
  simp only [List.mem_map, List.mem_filter, decide_eq_true_eq, and_assoc]
  refine and_congr_right fun _ => ⟨fun h s hs hd ht hc => h _ ⟨s, hs, hd, ht, hc, rfl⟩, ?_⟩
  rintro h _ ⟨s, hs, hd, ht, hc, rfl⟩
  exact h s hs hd ht hc

/-- A column has a peak as soon as it has a revealed sample. -/
lemma peak_exists (layer : Layer α σ) (top : ℕ) {s : α} (hs : s ∈ layer.samples)
    (hd : Plotted.dir s = v.focus) (ht : (Plotted.t s).ns ≤ v.cursor.ns)
    (hc : v.column (Plotted.t s).ns = col) :
    ∃ row, v.level top (layer.value s) ≤ row ∧ layer.peak v top col = some row := by
  cases hpeak : layer.peak v top col with
  | some row => exact ⟨row, (peak_some.mp hpeak).2 s hs hd ht hc, rfl⟩
  | none =>
      unfold Layer.peak at hpeak
      rw [List.max?_eq_none_iff, List.map_eq_nil_iff, List.filter_eq_nil_iff] at hpeak
      exact absurd (decide_eq_true ⟨hd, ht, hc⟩) (hpeak s hs)

lemma column_lt (h : v.Drawable) (t : ℕ) : v.column t < v.width.toNat := by
  have hw : 0 < v.width.toNat := lt_of_lt_of_le (by decide) h.width
  unfold View.column
  omega

lemma level_lt (h : v.Drawable) {top value : ℕ} (hle : value ≤ top) :
    v.level top value < v.height.toNat := by
  have hh : 0 < v.height.toNat := lt_of_lt_of_le (by decide) h.height
  have : v.level top value ≤ v.height.toNat - 1 :=
    Nat.div_le_of_le_mul (Nat.mul_le_mul_right _ hle)
  omega

lemma markAt_some {m : Mark σ} (hm : markAt layers line v col row = some m) :
    (∃ layer ∈ layers, layer.peak v (axis layers v.focus) col = some row ∧
      m = ⟨col, row, layer.glyph, layer.series⟩) ∨
    col = v.cursorCol ∧ m = ⟨col, row, cursorGlyph, line⟩ ∧
      ∀ layer ∈ layers, layer.peak v (axis layers v.focus) col ≠ some row := by
  unfold markAt at hm
  split at hm
  · next layer hfind =>
      refine .inl ⟨layer, List.mem_reverse.mp (List.mem_of_find?_eq_some hfind), ?_,
        (Option.some.inj hm).symm⟩
      have hp := List.find?_some hfind
      exact of_decide_eq_true hp
  · next hfind =>
      split at hm
      · next hcol =>
          refine .inr ⟨hcol, (Option.some.inj hm).symm, fun layer hl hpeak => ?_⟩
          exact List.find?_eq_none.mp hfind layer (List.mem_reverse.mpr hl)
            (decide_eq_true hpeak)
      · cases hm

/-- A layer shows its peak if none placed later covers it. -/
lemma markAt_last {before after : List (Layer α σ)} {layer : Layer α σ}
    (hsplit : layers = before ++ layer :: after)
    (hpeak : layer.peak v (axis layers v.focus) col = some row)
    (hlast : ∀ later ∈ after, later.peak v (axis layers v.focus) col ≠ some row) :
    markAt layers line v col row = some ⟨col, row, layer.glyph, layer.series⟩ := by
  have hnone : after.reverse.find? (fun later =>
      decide (later.peak v (axis layers v.focus) col = some row)) = none :=
    List.find?_eq_none.mpr fun later hl hp =>
      hlast later (List.mem_reverse.mp hl) (of_decide_eq_true hp)
  have hfind : (layers.reverse.find? fun l =>
      decide (l.peak v (axis layers v.focus) col = some row)) = some layer := by
    rw [congrArg List.reverse hsplit, List.reverse_append, List.reverse_cons, List.append_assoc,
      List.find?_append, hnone, Option.none_or, List.singleton_append, List.find?_cons,
      decide_eq_true hpeak]
  rw [markAt, hfind]

/-- The cursor line shows where no layer has its peak. -/
lemma markAt_line (hnone : ∀ layer ∈ layers,
    layer.peak v (axis layers v.focus) v.cursorCol ≠ some row) :
    markAt layers line v v.cursorCol row = some ⟨v.cursorCol, row, cursorGlyph, line⟩ := by
  have hfind : (layers.reverse.find? fun l =>
      decide (l.peak v (axis layers v.focus) v.cursorCol = some row)) = none :=
    List.find?_eq_none.mpr fun l hl hp => hnone l (List.mem_reverse.mp hl) (of_decide_eq_true hp)
  rw [markAt, hfind]
  exact if_pos rfl

lemma mem_reference {m : Mark σ} :
    m ∈ (reference layers line v).marks ↔ m.col < v.width.toNat ∧ m.row < v.height.toNat ∧
      markAt layers line v m.col m.row = some m := by
  change m ∈ collect _ _ _ ↔ _
  rw [mem_collect]
  constructor
  · rintro ⟨col, hc, row, hr, hm⟩
    rcases markAt_some hm with ⟨_, -, -, rfl⟩ | ⟨-, rfl, -⟩
    · exact ⟨hc, hr, hm⟩
    · exact ⟨hc, hr, hm⟩
  · rintro ⟨hc, hr, hm⟩
    exact ⟨m.col, hc, m.row, hr, hm⟩

/-- A later cursor reveals more, and peaks only rise. -/
lemma peak_advances {layer : Layer α σ} {top : ℕ} {cursor : Nanos}
    (hc : v.cursor.ns ≤ cursor.ns) (hpeak : layer.peak v top col = some row) :
    ∃ row', row ≤ row' ∧ layer.peak { v with cursor } top col = some row' := by
  obtain ⟨⟨s, hs, ⟨hd, ht, hcol⟩, rfl⟩, -⟩ := peak_some.mp hpeak
  exact peak_exists (v := { v with cursor }) layer top hs hd (ht.trans hc) hcol

/-- A series that is nowhere above another has no peak above the other's. -/
lemma peak_le {l l' : Layer α σ} (hs : l.samples = l'.samples)
    (hle : ∀ s ∈ l.samples, l.value s ≤ l'.value s) {top : ℕ}
    (hpeak : l.peak v top col = some row) :
    ∃ row', row ≤ row' ∧ l'.peak v top col = some row' := by
  obtain ⟨⟨s, hmem, ⟨hd, ht, hcol⟩, rfl⟩, -⟩ := peak_some.mp hpeak
  obtain ⟨row', hrow, hpeak'⟩ := peak_exists l' top (hs ▸ hmem) hd ht hcol
  refine ⟨row', le_trans (Nat.div_le_div_right (Nat.mul_le_mul_right _ (hle s hmem))) hrow,
    hpeak'⟩

theorem sound (h : v.Drawable) (layers : List (Layer α σ)) (line : σ) : Sound layers line v := by
  constructor
  · intro m hm
    obtain ⟨hc, hr, -⟩ := mem_reference.mp hm
    exact ⟨hc, hr⟩
  · refine pairwise_collect (fun m : Mark σ => (m.col, m.row)) fun col row m hm => ?_
    rcases markAt_some hm with ⟨_, -, -, rfl⟩ | ⟨-, rfl, -⟩ <;> rfl
  · rintro before layer after hsplit col row hpeak hlast
    obtain ⟨⟨s, hs, ⟨hd, -, rfl⟩, rfl⟩, -⟩ := peak_some.mp hpeak
    have hmem : layer ∈ layers := by simp [hsplit]
    exact mem_reference.mpr ⟨column_lt h _, level_lt h (le_axis hmem hs hd),
      markAt_last hsplit hpeak hlast⟩
  · intro m hm
    obtain ⟨-, -, hm⟩ := mem_reference.mp hm
    rcases markAt_some hm with ⟨layer, hl, hpeak, heq⟩ | ⟨hcol, heq, hnone⟩
    · exact .inl ⟨layer, hl, congrArg Mark.glyph heq, congrArg Mark.series heq, hpeak⟩
    · exact .inr ⟨by rw [← hcol]; exact heq, hnone⟩
  · intro row hr hnone
    exact mem_reference.mpr ⟨column_lt h _, hr, markAt_line hnone⟩
  · intro hpos
    exact Nat.mul_div_cancel_left _ hpos
  · intro cursor
    rfl
  · intro cursor hc layer top col row
    exact peak_advances hc

end Sound

/-! ### The three plots -/

section Plots

variable {v : View}

lemma max?_congr {l l' : List ℕ} (h : ∀ x, x ∈ l ↔ x ∈ l') : l.max? = l'.max? := by
  refine Option.ext fun m => ?_
  simp only [List.max?_eq_some_iff, h]

lemma maxBytes_eq (wire overlay : List InFlightSample) (focus : SampleDir) :
    Inflight.maxBytes wire overlay focus = axis (Inflight.layers wire overlay) focus := by
  rw [Inflight.maxBytes, List.filter_append, List.map_append]
  unfold axis Inflight.layers
  rw [List.flatMap_cons, List.flatMap_cons, List.flatMap_nil, List.append_nil]
  rfl

lemma mem_both {α : Type} (l : List α) (f g : α → ℕ) (x : ℕ) :
    (x ∈ l.flatMap fun s => [f s, g s]) ↔ x ∈ l.map f ∨ x ∈ l.map g := by
  simp only [List.mem_flatMap, List.mem_map, List.mem_cons, List.not_mem_nil, or_false, and_or_left,
    exists_or, eq_comm]

lemma maxRtt_eq (wire overlay : List RttSample) (focus : SampleDir) :
    Rtt.maxRtt wire overlay focus = axis (Rtt.layers wire overlay) focus := by
  refine congrArg (Option.getD · 0) (max?_congr fun x => ?_)
  unfold Rtt.layers
  rw [List.flatMap_cons, List.flatMap_cons, List.flatMap_cons, List.flatMap_nil, List.append_nil,
    List.mem_append, List.mem_append, List.mem_append, mem_both, or_assoc]
  rfl

lemma maxRate_eq (wire : List ThroughputSample) (focus : SampleDir) :
    Throughput.maxRate wire focus = axis (Throughput.layers wire) focus := by
  refine congrArg (Option.getD · 0) (max?_congr fun x => ?_)
  unfold Throughput.layers
  rw [List.flatMap_cons, List.flatMap_cons, List.flatMap_nil, List.append_nil, List.mem_append,
    mem_both]
  rfl

/-- The goodput of a column shows no higher than its throughput. -/
lemma goodput_below {wire : List ThroughputSample}
    (hle : ∀ s ∈ wire, s.goodputBps ≤ s.throughputBps) {m : Mark Throughput.Series}
    (hm : m ∈ (reference (Throughput.layers wire) .throughput v).marks)
    (hg : m.series = .goodput) :
    ∃ row, m.row ≤ row ∧
      (Throughput.total wire).peak v (axis (Throughput.layers wire) v.focus) m.col = some row := by
  obtain ⟨-, -, hm⟩ := mem_reference.mp hm
  rcases markAt_some hm with ⟨layer, hl, hpeak, heq⟩ | ⟨-, heq, -⟩
  · rw [Throughput.layers, List.mem_cons, List.mem_singleton] at hl
    rcases hl with rfl | rfl
    · rw [heq] at hg
      cases hg
    · have hsamples : (Throughput.useful wire).samples = (Throughput.total wire).samples := rfl
      exact peak_le hsamples hle hpeak
  · rw [heq] at hg
    cases hg

/-- **The three plots agree with one reference**, and what the reference promises. -/
theorem plots_agree (h : v.Drawable) :
    (∀ wire overlay, Inflight.project wire overlay v.focus v.xSpan v.cursor v.width v.height =
        some (reference (Inflight.layers wire overlay) .wire v)) ∧
      (∀ wire overlay, Rtt.project wire overlay v.focus v.xSpan v.cursor v.width v.height =
        some (reference (Rtt.layers wire overlay) .raw v)) ∧
      (∀ wire, Throughput.project wire v.focus v.xSpan v.cursor v.width v.height =
        some (reference (Throughput.layers wire) .throughput v)) ∧
      (∀ wire overlay, Sound (Inflight.layers wire overlay) .wire v) ∧
      (∀ wire overlay, Sound (Rtt.layers wire overlay) .raw v) ∧
      (∀ wire, Sound (Throughput.layers wire) .throughput v) ∧
      ∀ wire : List ThroughputSample, (∀ s ∈ wire, s.goodputBps ≤ s.throughputBps) →
        ∀ m ∈ (reference (Throughput.layers wire) .throughput v).marks, m.series = .goodput →
          ∃ row, m.row ≤ row ∧ (Throughput.total wire).peak v
            (axis (Throughput.layers wire) v.focus) m.col = some row := by
  refine ⟨fun wire overlay => ?_, fun wire overlay => ?_, fun wire => ?_,
    fun _ _ => sound h _ _, fun _ _ => sound h _ _, fun _ => sound h _ _,
    fun wire hle m hm hg => goodput_below hle hm hg⟩
  · rw [Inflight.project, maxBytes_eq, project_eq h]
  · rw [Rtt.project, maxRtt_eq, project_eq h]
  · rw [Throughput.project, maxRate_eq, project_eq h]

end Plots

/-- Two rates in one column, and a later one. -/
def ratesSeen : List ThroughputSample :=
  [⟨.sat 0, .originToResponder, 40, 40⟩, ⟨.sat 1, .originToResponder, 80, 20⟩,
    ⟨.sat 35, .originToResponder, 60, 60⟩, ⟨.sat 69, .originToResponder, 100, 100⟩]

def ratesView : View where
  focus := .originToResponder
  xSpan := (.sat 0, .sat 70)
  cursor := .sat 36
  width := 8
  height := 3

lemma drawable_ratesView : ratesView.Drawable := by
  constructor <;> decide

/-- Eight columns and three rows: the goodput hides a throughput of the same height, and the
rate still to come fixes the axis. -/
theorem plots_agree_ratesSeen :
    Throughput.project ratesSeen .originToResponder (.sat 0, .sat 70) (.sat 36) 8 3 =
        some (reference (Throughput.layers ratesSeen) .throughput ratesView) ∧
      (reference (Throughput.layers ratesSeen) .throughput ratesView).max = 100 ∧
      (reference (Throughput.layers ratesSeen) .throughput ratesView).marks =
        [⟨0, 0, '#', .goodput⟩, ⟨3, 0, cursorGlyph, .throughput⟩, ⟨0, 1, '.', .throughput⟩,
          ⟨3, 1, '#', .goodput⟩, ⟨3, 2, cursorGlyph, .throughput⟩] :=
  ⟨(plots_agree drawable_ratesView).2.2.1 ratesSeen, by decide +kernel, by decide +kernel⟩

end Peaks

end TcpVisr
