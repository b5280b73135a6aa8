import TcpVisr.Peaks
import TcpVisr.Lib.Text

/-!
The axes of the plots.

Every plot leaves a gutter of eight cells on its left, in which the label of the greatest value
stands, right-aligned to seven. A label that is longer runs on into the first columns of the
plot. How long it is depends on the digits of a quotient and on the unit after them: a round
trip of three digits before the point is too long by one cell if its unit is of two letters.
-/

namespace TcpVisr

open Lib.Text Lib.Grid

/-- Columns reserved on the left of the detail pane for Y-axis labels. -/
def gutter : ℕ := 8

/-! ### Labels -/

/-- `{}.{:03}` of a quotient and of the thousandths of its remainder. -/
def thousandths (n div : ℕ) : String :=
  toString (n / div) ++ "." ++ padLeft 3 '0' (toString (n % div * 1000 / div))

/-- `{}.{}` of a quotient and of the tenths of its remainder. -/
def tenths (n div : ℤ) : String :=
  toString (n.tdiv div) ++ "." ++ toString ((n.tmod div * 10).tdiv div)

/-- A nanosecond timestamp as fixed 3-decimal seconds. -/
def fmtSeconds (t : Nanos) : String :=
  let ms := t.ns / 1000000
  toString (ms / 1000) ++ "." ++ padLeft 3 '0' (toString (ms % 1000))

def seqUnits : List (ℤ × Char) :=
  [(1000000000000, 'T'), (1000000000, 'G'), (1000000, 'M'), (1000, 'K')]

/-- A sequence offset: raw below 100 000, else with one decimal and a suffix. -/
def fmtSeq (n : ℤ) : String :=
  if n < 100000 then toString n
  else
    match seqUnits.find? fun unit => unit.1 ≤ n with
    | some (div, suffix) => tenths n div ++ String.singleton suffix
    | none => toString n

def rttUnits : List (ℕ × String) := [(1000000000, "s"), (1000000, "ms"), (1000, "µs")]

/-- A round trip of `n` nanoseconds in an adaptive unit. -/
def fmtRtt (n : ℕ) : String :=
  match rttUnits.find? fun unit => unit.1 ≤ n with
  | some (div, unit) => thousandths n div ++ unit
  | none => toString n ++ "ns"

def rateUnits : List (ℕ × String) := [(1000000000, "Gbps"), (1000000, "Mbps"), (1000, "kbps")]

/-- The unit of a rate axis and its divisor. -/
def rateUnit (maxRate : ℕ) : String × ℕ :=
  match rateUnits.find? fun unit => unit.1 ≤ maxRate with
  | some (div, unit) => (unit, div)
  | none => ("bps", 1)

/-- A rate scaled to `div`, without its unit. -/
def fmtRateScaled (bps div : ℕ) : String :=
  if div ≤ 1 then toString bps else thousandths bps div

/-- `{:>7}`. -/
def aligned (s : String) : String := padLeft 7 ' ' s

/-! ### Drawing -/

/-- The interior of the detail pane once it is wide and tall enough to plot in. Its corners
are `u16`s. -/
structure Pane where
  x : ℕ
  y : ℕ
  width : ℕ
  height : ℕ
  right : x + width < 2 ^ 16
  bottom : y + height < 2 ^ 16
  wide : gutter < width
  tall : 3 ≤ height

namespace Pane

variable (inner : Pane)

def plotW : BitVec 16 := BitVec.ofNat 16 (inner.width - gutter)

/-- Less the legend above and the time labels below. -/
def plotH : BitVec 16 := BitVec.ofNat 16 (inner.height - 2)

end Pane

section Drawing

variable (inner : Pane) (gutter : ℕ)

/-- The column of the screen that a column of the plot is. -/
def screenX (col : ℕ) : ℕ := inner.x + gutter + col

/-- The row of the screen that a row of the plot, counted from its bottom, is. -/
def screenY (height : BitVec 16) (row : ℕ) : ℕ := inner.y + 1 + (height.toNat - 1 - row)

/-- Draws the glyphs of marks. -/
def drawMarks (height : BitVec 16) (marks : List (ℕ × ℕ × Char)) (screen : Screen) : Screen :=
  marks.foldl (fun screen (col, row, glyph) =>
    screen.setString (screenX inner gutter col) (screenY inner height row)
      (String.singleton glyph)) screen

def Detail.SeqPlot.glyphs (plot : Detail.SeqPlot) : List (ℕ × ℕ × Char) :=
  plot.marks.map fun m => (m.col, m.row, m.glyph)

def Peaks.Plot.glyphs {σ : Type} (plot : Peaks.Plot σ) : List (ℕ × ℕ × Char) :=
  plot.marks.map fun m => (m.col, m.row, m.glyph)

def drawPlot (plot : Detail.SeqPlot) : Screen → Screen :=
  drawMarks inner gutter plot.height plot.glyphs

def drawPeaks {σ : Type} (plot : Peaks.Plot σ) : Screen → Screen :=
  drawMarks inner gutter plot.height plot.glyphs

def drawInflightPlot : Peaks.Plot Inflight.Series → Screen → Screen := drawPeaks inner gutter

def drawRttPlot : Peaks.Plot Rtt.Series → Screen → Screen := drawPeaks inner gutter

def drawThroughputPlot : Peaks.Plot Throughput.Series → Screen → Screen := drawPeaks inner gutter

/-- Draws the Y labels `top` and `bottom`, and below the plot the seconds it spans. The frame
cuts a text at its right edge, which no cell of the pane is past. -/
def drawLabels (top bottom : String) (height : BitVec 16) (xSpan : Nanos × Nanos)
    (screen : Screen) : Screen :=
  let yTop := inner.y + 1
  let yBottom := yTop + height.toNat - 1
  let labelRow := inner.y + inner.height - 1
  let startLabel := fmtSeconds xSpan.1 ++ "s"
  let endLabel := fmtSeconds xSpan.2 ++ "s"
  let endX := inner.x + inner.width - (toU16 endLabel.utf8ByteSize).getD 0
  (((screen.setString inner.x yTop (aligned top)).setString inner.x yBottom
    (aligned bottom)).setString (inner.x + gutter) labelRow startLabel).setString endX labelRow
    endLabel

def drawAxes (plot : Detail.SeqPlot) : Screen → Screen :=
  drawLabels inner gutter (fmtSeq plot.maxRel) (toString 0) plot.height plot.xSpan

/-- The axis ends at `i64::try_from(max_bytes).unwrap_or(i64::MAX)`. -/
def drawInflightAxes (plot : Peaks.Plot Inflight.Series) : Screen → Screen :=
  drawLabels inner gutter (fmtSeq (min plot.max (2 ^ 63 - 1) : ℕ)) (toString 0) plot.height
    plot.xSpan

def drawRttAxes (plot : Peaks.Plot Rtt.Series) : Screen → Screen :=
  drawLabels inner gutter (fmtRtt plot.max) (fmtRtt 0) plot.height plot.xSpan

def drawThroughputAxes (plot : Peaks.Plot Throughput.Series) (div : ℕ) : Screen → Screen :=
  drawLabels inner gutter (fmtRateScaled plot.max div) (fmtRateScaled 0 div) plot.height
    plot.xSpan

end Drawing

/-! The bodies of the pane, below their legend; `none` is a plot too small. -/

section Bodies

variable (inner : Pane) (focus : SampleDir) (xSpan : Nanos × Nanos) (cursor : Nanos)

def renderSeqBody (series : List SeqSample) (screen : Screen) : Option Screen :=
  (Detail.project series focus xSpan cursor inner.plotW inner.plotH).map fun plot =>
    drawAxes inner gutter plot (drawPlot inner gutter plot screen)

/-- The overlay is empty on replay, here and below. -/
def renderInflightBody (wire : List InFlightSample) (screen : Screen) : Option Screen :=
  (Inflight.project wire [] focus xSpan cursor inner.plotW inner.plotH).map fun plot =>
    drawInflightAxes inner gutter plot (drawInflightPlot inner gutter plot screen)

def renderRttBody (wire : List RttSample) (screen : Screen) : Option Screen :=
  (Rtt.project wire [] focus xSpan cursor inner.plotW inner.plotH).map fun plot =>
    drawRttAxes inner gutter plot (drawRttPlot inner gutter plot screen)

def renderThroughputBody (wire : List ThroughputSample) (screen : Screen) : Option Screen :=
  (Throughput.project wire focus xSpan cursor inner.plotW inner.plotH).map fun plot =>
    drawThroughputAxes inner gutter plot (rateUnit plot.max).2
      (drawThroughputPlot inner gutter plot screen)

end Bodies

/-! ### Which labels fit -/

section Widths

variable {k : ℕ}

/-- The decimals of a quotient to be printed have as many digits as their scale has zeros. -/
lemma decimals_lt (n : ℕ) {div scale : ℕ} (hd : 0 < div) (hs : 0 < scale) :
    n % div * scale / div < scale := by
  rw [Nat.div_lt_iff_lt_mul hd, Nat.mul_comm]
  exact Nat.mul_lt_mul_of_pos_left (Nat.mod_lt n hd) hs

lemma length_thousandths_le_iff (n : ℕ) {div : ℕ} (hd : 0 < div) (hk : 0 < k) :
    (thousandths n div).length ≤ k + 4 ↔ n < 10 ^ k * div := by
  have hrem : n % div * 1000 / div < 10 ^ 3 := decimals_lt n hd (by omega)
  rw [thousandths, String.length_append, String.length_append,
    length_padLeft_decimal (by omega) hrem, ← Nat.div_lt_iff_lt_mul hd,
    ← length_decimal_le_iff hk (n / div)]
  exact Nat.add_le_add_iff_right (n := 4)

lemma length_tenths_le_iff {n div : ℤ} (hn : 0 ≤ n) (hd : 0 < div) (hk : 0 < k) :
    (tenths n div).length ≤ k + 2 ↔ n < 10 ^ k * div := by
  lift n to ℕ using hn
  lift div to ℕ using hd.le
  replace hd : 0 < div := by exact_mod_cast hd
  have hrem : n % div * 10 / div < 10 ^ 1 := decimals_lt n hd (by omega)
  have hone : (toString (n % div * 10 / div)).length = 1 := by
    have hle := (length_decimal_le_iff one_pos _).mpr hrem
    have hpos : 0 < (toString (n % div * 10 / div)).length := Nat.length_repr_pos
    omega
  have heq : tenths n div = toString (n / div) ++ "." ++ toString (n % div * 10 / div) := rfl
  have hquot : (toString (n / div)).length ≤ k ↔ (n : ℤ) < 10 ^ k * div := by
    rw [length_decimal_le_iff hk, Nat.div_lt_iff_lt_mul hd]
    norm_cast
  rw [heq, String.length_append, String.length_append, hone, ← hquot]
  exact Nat.add_le_add_iff_right (n := 2)

lemma length_aligned_le_iff (s : String) : (aligned s).length ≤ gutter ↔ s.length ≤ gutter :=
  length_padLeft_le_iff (by decide) ' ' s

end Widths

/-- The search for a unit goes down the table. -/
lemma find?_unit {α β : Type} [LE α] [DecidableLE α] (n div : α) (unit : β) (rest : List (α × β)) :
    ((div, unit) :: rest).find? (fun unit => unit.1 ≤ n) =
      if div ≤ n then some (div, unit) else rest.find? fun unit => unit.1 ≤ n := by
  rw [List.find?_cons]
  by_cases h : div ≤ n
  · simp [h]
  · simp [h]

/-- The round trips whose label fits: below a tenth of a millisecond, from a millisecond below
a tenth of a second, and from a second below a thousand. -/
def RttFits (n : ℕ) : Prop := n < 10 ^ 5 ∨ 10 ^ 6 ≤ n ∧ n < 10 ^ 8 ∨ 10 ^ 9 ≤ n ∧ n < 10 ^ 12

instance (n : ℕ) : Decidable (RttFits n) := inferInstanceAs (Decidable (_ ∨ _))

lemma fmtRtt_eq (n : ℕ) :
    fmtRtt n =
      if 1000000000 ≤ n then thousandths n 1000000000 ++ "s"
      else if 1000000 ≤ n then thousandths n 1000000 ++ "ms"
      else if 1000 ≤ n then thousandths n 1000 ++ "µs"
      else toString n ++ "ns" := by
  unfold fmtRtt rttUnits
  simp only [find?_unit, List.find?_nil]
  split_ifs <;> rfl

/-- Two letters of the unit leave two digits before the point, one letter leaves three. -/
lemma rtt_fits_iff (n : ℕ) : (fmtRtt n).length ≤ gutter ↔ RttFits n := by
  have hs := length_thousandths_le_iff n (show 0 < 1000000000 by omega) (show 0 < 3 by omega)
  have hms := length_thousandths_le_iff n (show 0 < 1000000 by omega) (show 0 < 2 by omega)
  have hus := length_thousandths_le_iff n (show 0 < 1000 by omega) (show 0 < 2 by omega)
  have hns := length_decimal_le_iff (k := 6) (by omega) n
  unfold RttFits gutter
  rw [fmtRtt_eq]
  split_ifs with h1 h2 h3
  · rw [String.length_append, show "s".length = 1 from rfl]
    omega
  · rw [String.length_append, show "ms".length = 2 from rfl]
    omega
  · rw [String.length_append, show "µs".length = 2 from rfl]
    omega
  · rw [String.length_append, show "ns".length = 2 from rfl]
    omega

lemma rateUnit_div (n : ℕ) :
    (rateUnit n).2 =
      if 1000000000 ≤ n then 1000000000 else if 1000000 ≤ n then 1000000
      else if 1000 ≤ n then 1000 else 1 := by
  unfold rateUnit rateUnits
  simp only [find?_unit, List.find?_nil]
  split_ifs <;> rfl

/-- There is no unit above the giga, so its whole part is not bounded by the next one. -/
lemma rate_whole_iff (n : ℕ) : n / (rateUnit n).2 < 1000 ↔ n < 10 ^ 12 := by
  rw [rateUnit_div]
  split_ifs
  all_goals omega

lemma rate_fits_iff (n : ℕ) : (fmtRateScaled n (rateUnit n).2).length ≤ gutter ↔ n < 10 ^ 13 := by
  have hg := length_thousandths_le_iff n (show 0 < 1000000000 by omega) (show 0 < 4 by omega)
  have hm := length_thousandths_le_iff n (show 0 < 1000000 by omega) (show 0 < 4 by omega)
  have hk := length_thousandths_le_iff n (show 0 < 1000 by omega) (show 0 < 4 by omega)
  have hb := length_decimal_le_iff (k := 8) (by omega) n
  unfold fmtRateScaled gutter
  rw [rateUnit_div]
  split_ifs
  all_goals omega

lemma rate_zero_fits (div : ℕ) : (fmtRateScaled 0 div).length ≤ gutter := by
  unfold fmtRateScaled
  split
  · decide
  · next hdiv =>
      rw [gutter, length_thousandths_le_iff 0 (by omega) (show 0 < 4 by omega)]
      omega

lemma fmtSeq_eq (n : ℤ) :
    fmtSeq n =
      if n < 100000 then toString n
      else if 1000000000000 ≤ n then tenths n 1000000000000 ++ "T"
      else if 1000000000 ≤ n then tenths n 1000000000 ++ "G"
      else if 1000000 ≤ n then tenths n 1000000 ++ "M"
      else tenths n 1000 ++ "K" := by
  unfold fmtSeq seqUnits
  simp only [find?_unit, List.find?_nil]
  split_ifs with hraw hT hG hM hK
  · rfl
  · rfl
  · rfl
  · rfl
  · rfl
  · omega

/-- A minus sign takes a cell as a digit does. -/
lemma length_integer_le_iff (hk : 0 < k) (n : ℤ) :
    (toString n).length ≤ k + 1 ↔ -10 ^ k < n ∧ n < 10 ^ (k + 1) := by
  cases n with
  | ofNat n =>
    have hdec := length_decimal_le_iff (Nat.succ_pos k) n
    have hpow : (0 : ℤ) < 10 ^ k := by positivity
    rw [show toString (Int.ofNat n) = toString n from rfl, hdec]
    constructor
    · intro h
      refine ⟨by rw [Int.ofNat_eq_natCast]; omega, ?_⟩
      rw [Int.ofNat_eq_natCast]
      exact_mod_cast h
    · rintro ⟨-, h⟩
      rw [Int.ofNat_eq_natCast] at h
      exact_mod_cast h
  | negSucc n =>
    have hdec := length_decimal_le_iff hk (n + 1)
    have hpow : (0 : ℤ) < 10 ^ (k + 1) := by positivity
    rw [show toString (Int.negSucc n) = "-" ++ toString (n + 1) from rfl, String.length_append,
      show "-".length = 1 from rfl, Nat.add_comm 1, Nat.add_le_add_iff_right, hdec,
      Int.negSucc_eq]
    constructor
    · intro h
      refine ⟨?_, by omega⟩
      have : ((n + 1 : ℕ) : ℤ) < 10 ^ k := by exact_mod_cast h
      omega
    · rintro ⟨h, -⟩
      have : ((n + 1 : ℕ) : ℤ) < 10 ^ k := by push_cast; omega
      exact_mod_cast this

lemma seq_fits_iff (n : ℤ) : (fmtSeq n).length ≤ gutter ↔ -10 ^ 7 < n ∧ n < 10 ^ 17 := by
  rw [fmtSeq_eq]
  have hint := length_integer_le_iff (k := 7) (by omega) n
  have hlen := fun (div : ℤ) (hn : 0 ≤ n) (hd : 0 < div) =>
    length_tenths_le_iff (k := 5) hn hd (by omega)
  unfold gutter
  split_ifs with hraw hT hG hM
  · omega
  · have := hlen 1000000000000 (by omega) (by omega)
    rw [String.length_append, show "T".length = 1 from rfl]
    omega
  · have := hlen 1000000000 (by omega) (by omega)
    rw [String.length_append, show "G".length = 1 from rfl]
    omega
  · have := hlen 1000000 (by omega) (by omega)
    rw [String.length_append, show "M".length = 1 from rfl]
    omega
  · have := hlen 1000 (by omega) (by omega)
    rw [String.length_append, show "K".length = 1 from rfl]
    omega

/-! ### What the axes spare -/

namespace Pane

variable (inner : Pane)

/-- The cells of the screen that belong to the plot. -/
def PlotArea (col row : ℕ) : Prop :=
  ∃ c < inner.plotW.toNat, ∃ r < inner.plotH.toNat,
    col = screenX inner gutter c ∧ row = screenY inner inner.plotH r

variable {inner}

lemma plotW_toNat (inner : Pane) : inner.plotW.toNat = inner.width - gutter := by
  rw [plotW, BitVec.toNat_ofNat]
  have := inner.right
  exact Nat.mod_eq_of_lt (by omega)

lemma plotH_toNat (inner : Pane) : inner.plotH.toNat = inner.height - 2 := by
  rw [plotH, BitVec.toNat_ofNat]
  have := inner.bottom
  exact Nat.mod_eq_of_lt (by omega)

/-- Right of the gutter, below the legend and above the time labels. -/
lemma plotArea_iff (inner : Pane) (col row : ℕ) :
    inner.PlotArea col row ↔
      inner.x + gutter ≤ col ∧ col < inner.x + inner.width ∧
        inner.y + 1 ≤ row ∧ row < inner.y + inner.height - 1 := by
  unfold PlotArea screenX screenY
  rw [plotW_toNat, plotH_toNat]
  have hwide := inner.wide
  have htall := inner.tall
  constructor
  · rintro ⟨c, hc, r, hr, rfl, rfl⟩
    omega
  · rintro ⟨hleft, hright, htop, hbottom⟩
    refine ⟨col - (inner.x + gutter), by omega, inner.height - 2 - 1 - (row - (inner.y + 1)),
      by omega, by omega, by omega⟩

end Pane

section Axes

variable {inner : Pane} {s : String} {y : ℕ}

lemma spares_of_short (hs : (aligned s).length ≤ gutter) :
    Spares inner.PlotArea fun screen => screen.setString inner.x y (aligned s) := by
  rw [spares_setString_iff]
  intro i hi harea
  rw [Pane.plotArea_iff] at harea
  omega

lemma spares_of_below {x : ℕ} (hy : inner.y + inner.height - 1 ≤ y) :
    Spares inner.PlotArea fun screen => screen.setString x y s := by
  rw [spares_setString_iff]
  intro i hi harea
  rw [Pane.plotArea_iff] at harea
  omega

/-- A label beside the plot spares it exactly if it keeps to the gutter: past it is the first
column. -/
lemma spares_iff_short (hy : inner.PlotArea (inner.x + gutter) y) :
    (Spares inner.PlotArea fun screen => screen.setString inner.x y (aligned s)) ↔
      (aligned s).length ≤ gutter := by
  refine ⟨fun hs => ?_, spares_of_short⟩
  rw [spares_setString_iff] at hs
  by_contra hlong
  exact hs gutter (by omega) hy

/-- Only the upper label is ever too long. -/
lemma drawLabels_spares_iff (inner : Pane) {top bottom : String} (hb : bottom.length ≤ gutter)
    (xSpan : Nanos × Nanos) :
    Spares inner.PlotArea (drawLabels inner gutter top bottom inner.plotH xSpan) ↔
      top.length ≤ gutter := by
  have hwide := inner.wide
  have htall := inner.tall
  have hlow := (length_aligned_le_iff bottom).mpr hb
  have hbeside : inner.PlotArea (inner.x + gutter) (inner.y + 1) := by
    rw [Pane.plotArea_iff]
    omega
  rw [← length_aligned_le_iff top, ← spares_iff_short hbeside]
  exact ((spares_of_below le_rfl).comp ((spares_of_below le_rfl).comp
    (spares_of_short hlow))).comp_iff

end Axes

section Kinds

variable {inner : Pane}

lemma spares_rttAxes_iff {plot : Peaks.Plot Rtt.Series} (h : plot.height = inner.plotH) :
    Spares inner.PlotArea (drawRttAxes inner gutter plot) ↔ RttFits plot.max := by
  rw [drawRttAxes, h, drawLabels_spares_iff inner (by decide), rtt_fits_iff]

lemma spares_throughputAxes_iff {plot : Peaks.Plot Throughput.Series}
    (h : plot.height = inner.plotH) :
    Spares inner.PlotArea (drawThroughputAxes inner gutter plot (rateUnit plot.max).2) ↔
      plot.max < 10 ^ 13 := by
  rw [drawThroughputAxes, h, drawLabels_spares_iff inner (rate_zero_fits _), rate_fits_iff]

lemma spares_axes_iff {plot : Detail.SeqPlot} (h : plot.height = inner.plotH) :
    Spares inner.PlotArea (drawAxes inner gutter plot) ↔
      -10 ^ 7 < plot.maxRel ∧ plot.maxRel < 10 ^ 17 := by
  rw [drawAxes, h, drawLabels_spares_iff inner (by decide), seq_fits_iff]

lemma spares_inflightAxes_iff {plot : Peaks.Plot Inflight.Series}
    (h : plot.height = inner.plotH) :
    Spares inner.PlotArea (drawInflightAxes inner gutter plot) ↔ plot.max < 10 ^ 17 := by
  rw [drawInflightAxes, h, drawLabels_spares_iff inner (by decide), seq_fits_iff]
  omega

end Kinds

/-- **Labels that keep left**: for each kind of plot, the values on top of the axis whose label
keeps to the gutter, which are those for which the axes leave the plot as they found it. The
whole part of a scaled rate has three digits exactly below a thousand giga. -/
theorem labels_keep_left_iff (inner : Pane) :
    (∀ plot : Peaks.Plot Rtt.Series, plot.height = inner.plotH →
      ((aligned (fmtRtt plot.max)).length ≤ gutter ↔ RttFits plot.max) ∧
        (Spares inner.PlotArea (drawRttAxes inner gutter plot) ↔ RttFits plot.max)) ∧
      (∀ plot : Peaks.Plot Throughput.Series, plot.height = inner.plotH →
        let div := (rateUnit plot.max).2
        ((aligned (fmtRateScaled plot.max div)).length ≤ gutter ↔ plot.max < 10 ^ 13) ∧
          (Spares inner.PlotArea (drawThroughputAxes inner gutter plot div) ↔
            plot.max < 10 ^ 13) ∧
          (plot.max / div < 1000 ↔ plot.max < 10 ^ 12)) ∧
      ∀ plot : Detail.SeqPlot, plot.height = inner.plotH →
        ((aligned (fmtSeq plot.maxRel)).length ≤ gutter ↔
            -10 ^ 7 < plot.maxRel ∧ plot.maxRel < 10 ^ 17) ∧
          (Spares inner.PlotArea (drawAxes inner gutter plot) ↔
            -10 ^ 7 < plot.maxRel ∧ plot.maxRel < 10 ^ 17) := by
  refine ⟨fun plot h => ⟨?_, spares_rttAxes_iff h⟩,
    fun plot h => ⟨?_, spares_throughputAxes_iff h, rate_whole_iff plot.max⟩,
    fun plot h => ⟨?_, spares_axes_iff h⟩⟩
  · rw [length_aligned_le_iff, rtt_fits_iff]
  · rw [length_aligned_le_iff, rate_fits_iff]
  · rw [length_aligned_le_iff, seq_fits_iff]

/-- A pane that leaves eight columns and three rows to the plot. -/
def smallPane : Pane where
  x := 0
  y := 0
  width := 16
  height := 5
  right := by decide
  bottom := by decide
  wide := by decide
  tall := by decide

/-- A plot in it, of which only the top of the axis matters. -/
def smallPlot (σ : Type) (max : ℕ) : Peaks.Plot σ :=
  { width := 8, height := 3, max, xSpan := (.sat 0, .sat 1000), cursorCol := 0, marks := [] }

/-- The label of 99 microseconds keeps to the gutter, that of 123 does not; nor does that of ten
thousand gigabits, nor that of a hundred thousand tera. -/
theorem labels_keep_left_iff_smallPane :
    (Spares smallPane.PlotArea
        (drawRttAxes smallPane gutter (smallPlot Rtt.Series 99999)) ∧
      ¬Spares smallPane.PlotArea
        (drawRttAxes smallPane gutter (smallPlot Rtt.Series 123456))) ∧
      ¬Spares smallPane.PlotArea
        (drawThroughputAxes smallPane gutter (smallPlot Throughput.Series 10000000000000)
          1000000000) ∧
      ¬Spares smallPane.PlotArea
        (drawAxes smallPane gutter ⟨8, 3, 100000000000000000, (.sat 0, .sat 1000), 0, []⟩) := by
  obtain ⟨hrtt, hrate, hseq⟩ := labels_keep_left_iff smallPane
  refine ⟨⟨?_, ?_⟩, ?_, ?_⟩
  · rw [(hrtt (smallPlot Rtt.Series 99999) rfl).2]
    decide
  · rw [(hrtt (smallPlot Rtt.Series 123456) rfl).2]
    decide
  · intro hs
    have := (hrate (smallPlot Throughput.Series 10000000000000) rfl).2.1.mp hs
    exact absurd this (by decide)
  · rw [(hseq ⟨8, 3, 100000000000000000, (.sat 0, .sat 1000), 0, []⟩ rfl).2]
    decide

/-- One round trip of 123 456 ns. -/
def tripSeen : List RttSample :=
  [⟨.sat 0, .originToResponder, .sat 123456, .sat 123456⟩]

/-- Its label is `123.456µs`, whose last letter stands in the first column of the plot. -/
theorem rtt_label_overwrites :
    ∃ plot, Rtt.project tripSeen [] .originToResponder (.sat 0, .sat 1000) (.sat 0)
        smallPane.plotW smallPane.plotH = some plot ∧
      plot.max = 123456 ∧ fmtRtt plot.max = "123.456µs" ∧
      gutter < (aligned (fmtRtt plot.max)).length ∧
      ¬Spares smallPane.PlotArea (drawRttAxes smallPane gutter plot) := by
  refine ⟨⟨8, 3, 123456, (.sat 0, .sat 1000), 0, [⟨0, 0, '┊', .raw⟩, ⟨0, 1, '┊', .raw⟩,
    ⟨0, 2, '#', .smoothed⟩]⟩, by decide +kernel, rfl, by decide, by decide, fun hs => ?_⟩
  have hblank := hs (fun _ _ => '#') 8 1 ⟨0, by decide, 2, by decide, rfl, rfl⟩
  exact absurd hblank (by decide)

/-! ### What is on the screen in the end -/

section Bodies

variable {inner : Pane} {marks : List (ℕ × ℕ × Char)} {axes : Screen → Screen}

namespace Pane

/-- The view of a plot that fills the pane. -/
def view (inner : Pane) (focus : SampleDir) (xSpan : Nanos × Nanos) (cursor : Nanos) :
    Peaks.View :=
  { focus, xSpan, cursor, width := inner.plotW, height := inner.plotH }

/-- Every mark stands in its cell. -/
def Shows (inner : Pane) (marks : List (ℕ × ℕ × Char)) (screen : Screen) : Prop :=
  ∀ m ∈ marks, screen (screenX inner gutter m.1) (screenY inner inner.plotH m.2.1) = m.2.2

/-- Marks inside the plot, no two in one cell. -/
structure Placed (inner : Pane) (marks : List (ℕ × ℕ × Char)) : Prop where
  inside : ∀ m ∈ marks, m.1 < inner.plotW.toNat ∧ m.2.1 < inner.plotH.toNat
  single : marks.Pairwise fun m m' => (m.1, m.2.1) ≠ (m'.1, m'.2.1)

end Pane

lemma drawMarks_snoc (height : BitVec 16) (marks : List (ℕ × ℕ × Char)) (col row : ℕ)
    (glyph : Char) (screen : Screen) :
    drawMarks inner gutter height (marks ++ [(col, row, glyph)]) screen =
      (drawMarks inner gutter height marks screen).setString (screenX inner gutter col)
        (screenY inner height row) (String.singleton glyph) := by
  rw [drawMarks, List.foldl_append]
  rfl

/-- A mark drawn later is in another cell. -/
lemma shows_drawMarks (h : inner.Placed marks) (screen : Screen) :
    inner.Shows marks (drawMarks inner gutter inner.plotH marks screen) := by
  induction marks using List.reverseRecOn with
  | nil => simp [Pane.Shows]
  | append_singleton marks last ih =>
      obtain ⟨hbefore, -, hlast⟩ := List.pairwise_append.mp h.single
      have hih := ih ⟨fun m hm => h.inside m (List.mem_append_left _ hm), hbefore⟩
      have hin' := h.inside last (List.mem_append_right _ (List.mem_singleton_self last))
      intro m hm
      obtain ⟨col, row, glyph⟩ := last
      rw [drawMarks_snoc]
      rcases List.mem_append.mp hm with hold | hnew
      · have hne := hlast m hold _ (List.mem_singleton_self _)
        have hin := h.inside m hm
        rw [Ne, Prod.mk.injEq] at hne
        dsimp only at hne hin'
        rw [setString_outside, hih m hold]
        rw [String.length_singleton]
        unfold screenX screenY
        omega
      · rw [List.mem_singleton.mp hnew]
        have hlen : 0 < (String.singleton glyph).toList.length := by simp
        exact (setString_inside _ hlen).trans (by simp)

/-- Axes that spare the plot leave the marks where they are. -/
lemma shows_of_spares (haxes : Spares inner.PlotArea axes) (h : inner.Placed marks)
    (screen : Screen) :
    inner.Shows marks (axes (drawMarks inner gutter inner.plotH marks screen)) := by
  intro m hm
  obtain ⟨hc, hr⟩ := h.inside m hm
  rw [haxes _ _ _ ⟨m.1, hc, m.2.1, hr, rfl, rfl⟩]
  exact shows_drawMarks h screen m hm

lemma placed_reference {α σ : Type} [Plotted α] {focus : SampleDir} {xSpan : Nanos × Nanos}
    {cursor : Nanos} (h : (inner.view focus xSpan cursor).Drawable)
    (layers : List (Peaks.Layer α σ)) (line : σ) :
    inner.Placed (Peaks.reference layers line (inner.view focus xSpan cursor)).glyphs := by
  obtain ⟨hinside, hsingle, -⟩ := Peaks.sound h layers line
  constructor
  · intro m hm
    obtain ⟨mark, hmark, rfl⟩ := List.mem_map.mp hm
    exact hinside mark hmark
  · exact List.pairwise_map.mpr hsingle

lemma placed_project {series : List SeqSample} {focus : SampleDir} {xSpan : Nanos × Nanos}
    {cursor : Nanos} {plot : Detail.SeqPlot}
    (h : Detail.project series focus xSpan cursor inner.plotW inner.plotH = some plot) :
    plot.height = inner.plotH ∧ inner.Placed plot.glyphs := by
  unfold Detail.project at h
  split at h
  · cases h
  · obtain rfl := Option.some.inj h
    refine ⟨rfl, fun m hm => ?_, ?_⟩
    · obtain ⟨mark, hmark, rfl⟩ := List.mem_map.mp hm
      obtain ⟨col, hc, row, hr, hcell⟩ := mem_collect.mp hmark
      obtain ⟨-, -, rfl⟩ := Option.map_eq_some_iff.mp hcell
      exact ⟨hc, hr⟩
    · refine List.pairwise_map.mpr (pairwise_collect (fun m : Detail.Mark => (m.col, m.row)) ?_)
      intro col row m hcell
      obtain ⟨-, -, rfl⟩ := Option.map_eq_some_iff.mp hcell
      rfl

/-- **What a body leaves on the screen**: while the greatest value has a label that fits, every
mark of the plot. -/
theorem bodies_show {focus : SampleDir} {xSpan : Nanos × Nanos} {cursor : Nanos}
    (h : (inner.view focus xSpan cursor).Drawable) (screen : Screen) :
    (∀ wire, RttFits (Rtt.maxRtt wire [] focus) →
      ∃ after, renderRttBody inner focus xSpan cursor wire screen = some after ∧
        inner.Shows (Peaks.reference (Rtt.layers wire []) .raw
          (inner.view focus xSpan cursor)).glyphs after) ∧
      (∀ wire, Throughput.maxRate wire focus < 10 ^ 13 →
        ∃ after, renderThroughputBody inner focus xSpan cursor wire screen = some after ∧
          inner.Shows (Peaks.reference (Throughput.layers wire) .throughput
            (inner.view focus xSpan cursor)).glyphs after) ∧
      (∀ wire, Inflight.maxBytes wire [] focus < 10 ^ 17 →
        ∃ after, renderInflightBody inner focus xSpan cursor wire screen = some after ∧
          inner.Shows (Peaks.reference (Inflight.layers wire []) .wire
            (inner.view focus xSpan cursor)).glyphs after) ∧
      ∀ series plot, Detail.project series focus xSpan cursor inner.plotW inner.plotH = some plot →
        -10 ^ 7 < plot.maxRel → plot.maxRel < 10 ^ 17 →
        ∃ after, renderSeqBody inner focus xSpan cursor series screen = some after ∧
          inner.Shows plot.glyphs after := by
  obtain ⟨hinflight, hrtt, hthroughput, -⟩ := Peaks.plots_agree h
  refine ⟨fun wire hfits => ?_, fun wire hfits => ?_, fun wire hfits => ?_,
    fun series plot hplot hlow hhigh => ?_⟩
  · rw [Peaks.maxRtt_eq] at hfits
    refine ⟨_, congrArg (Option.map _) (hrtt wire []), ?_⟩
    exact shows_of_spares ((spares_rttAxes_iff rfl).mpr hfits) (placed_reference h _ _) screen
  · rw [Peaks.maxRate_eq] at hfits
    refine ⟨_, congrArg (Option.map _) (hthroughput wire), ?_⟩
    exact shows_of_spares ((spares_throughputAxes_iff rfl).mpr hfits) (placed_reference h _ _)
      screen
  · rw [Peaks.maxBytes_eq] at hfits
    refine ⟨_, congrArg (Option.map _) (hinflight wire []), ?_⟩
    exact shows_of_spares ((spares_inflightAxes_iff rfl).mpr hfits) (placed_reference h _ _)
      screen
  · obtain ⟨hheight, hplaced⟩ := placed_project hplot
    refine ⟨_, congrArg (Option.map _) hplot, ?_⟩
    have hshows := shows_of_spares ((spares_axes_iff hheight).mpr ⟨hlow, hhigh⟩) hplaced screen
    rw [← hheight] at hshows
    exact hshows

end Bodies

end TcpVisr
