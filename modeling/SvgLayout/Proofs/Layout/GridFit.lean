import Mathlib.Data.List.GetD
import SvgLayout.Proofs.Layout.GridWeights

/-!
# The best fit of a grid

In logarithms the ratio of a cell is the difference of the sizes of its column and its row, so the
grids that may be chosen from differ from each other by a shift of each column, of each row and of
the whole; an axis with given weights is only shifted as a whole. The deviations from the ratios
that the cells ask for have the sum zero over each column and row that may be shifted on its own.
They are thus orthogonal to every change, and no other grid has a smaller sum of squares.

## Main definitions

* `cellRatio` — the ratio of a cell of a grid.
* `misfit` — the sum of the squares of the deviations, in logarithms.
* `Balanced` — deviations that are orthogonal to every change.

## Main statements

* `log_cellRatio_solveGrid` — the ratios of the cells by averages of logarithms.
* `Balanced.misfit_le` — balanced deviations are the least ones.
* `solveGrid_fits_best` — no other grid fits better, and ratios that factor are met exactly.
-/

namespace SvgLayout

open Finset

open scoped BigOperators

variable {m n : ℕ} {widths heights : Option (List ℝ)}

/-! ## Deviations -/

/-- The ratio of the cell in row `i` and column `j` of a grid of ratio `aspect` whose columns and
rows are as long as given, as parts of its width and its height. -/
noncomputable def cellRatio (aspect : ℝ) (columns rows : List ℝ) (i j : ℕ) : ℝ :=
  aspect * columns.getD j 0 / rows.getD i 0

/-- How far cells of the given ratios are from what they ask for: the sum of the squares of the
differences of logarithms. -/
noncomputable def misfit (aspects : List (List (Option ℝ))) (ratio : ℕ → ℕ → ℝ) : ℝ :=
  ∑ i ∈ range aspects.length, ∑ j ∈ range (columnCount aspects),
    (Real.log (ratio i j) - askedLog aspects i j) ^ 2

/-- Deviations whose sum is zero, also over each column if the widths are free and over each row if
the heights are. -/
structure Balanced (widths heights : Option (List ℝ)) (m n : ℕ) (e : ℕ → ℕ → ℝ) : Prop where
  total : ∑ i ∈ range m, ∑ j ∈ range n, e i j = 0
  columns : widths = none → ∀ j ∈ range n, ∑ i ∈ range m, e i j = 0
  rows : heights = none → ∀ i ∈ range m, ∑ j ∈ range n, e i j = 0

/-- Only the cells of the grid count. -/
theorem Balanced.congr {e e' : ℕ → ℕ → ℝ} (balanced : Balanced widths heights m n e)
    (h : ∀ i ∈ range m, ∀ j ∈ range n, e' i j = e i j) : Balanced widths heights m n e' where
  total := by
    rw [← balanced.total]
    exact sum_congr rfl fun i hi => sum_congr rfl (h i hi)
  columns free j hj := by
    rw [← balanced.columns free j hj]
    exact sum_congr rfl fun i hi => h i hi j hj
  rows free i hi := by
    rw [← balanced.rows free i hi]
    exact sum_congr rfl (h i hi)

/-- Shifts of an axis: tracks with given weights are shifted together. -/
def IsShift (given : Option (List ℝ)) (count : ℕ) (shift : ℕ → ℝ) : Prop :=
  given ≠ none → ∃ a, ∀ j ∈ range count, shift j = a

/-- Sums that vanish on an axis are orthogonal to its shifts. -/
theorem sum_mul_shift {given : Option (List ℝ)} {count : ℕ} {s shift : ℕ → ℝ}
    (total : ∑ j ∈ range count, s j = 0) (free : given = none → ∀ j ∈ range count, s j = 0)
    (h : IsShift given count shift) : ∑ j ∈ range count, s j * shift j = 0 := by
  by_cases unasked : given = none
  · refine sum_eq_zero fun j hj => ?_
    rw [free unasked j hj, zero_mul]
  · obtain ⟨a, shifted⟩ := h unasked
    calc ∑ j ∈ range count, s j * shift j = ∑ j ∈ range count, s j * a :=
          sum_congr rfl fun j hj => by rw [shifted j hj]
      _ = 0 := by rw [← sum_mul, total, zero_mul]

/-- Balanced deviations are orthogonal to every change of the grid. -/
theorem Balanced.orthogonal {e : ℕ → ℕ → ℝ} (balanced : Balanced widths heights m n e)
    (whole : ℝ) {across down : ℕ → ℝ} (hacross : IsShift widths n across)
    (hdown : IsShift heights m down) :
    ∑ i ∈ range m, ∑ j ∈ range n, e i j * (whole + across j - down i) = 0 := by
  have columns : ∑ j ∈ range n, (∑ i ∈ range m, e i j) * across j = 0 := by
    refine sum_mul_shift ?_ balanced.columns hacross
    rw [sum_comm, balanced.total]
  have rows : ∑ i ∈ range m, (∑ j ∈ range n, e i j) * down i = 0 :=
    sum_mul_shift balanced.total balanced.rows hdown
  -- the whole is shifted against all cells, a column and a row against the sum of their own
  calc ∑ i ∈ range m, ∑ j ∈ range n, e i j * (whole + across j - down i) =
        (∑ i ∈ range m, ∑ j ∈ range n, e i j) * whole +
          ∑ i ∈ range m, ∑ j ∈ range n, e i j * across j -
          ∑ i ∈ range m, (∑ j ∈ range n, e i j) * down i := by
        simp only [mul_sub, mul_add, sum_sub_distrib, sum_add_distrib, sum_mul]
    _ = 0 := by
        rw [balanced.total, rows, sum_comm]
        simp only [← sum_mul, columns]
        ring

/-- Deviations do not get smaller by a change that they are orthogonal to. -/
theorem sum_sq_le_of_orthogonal {e d : ℕ → ℕ → ℝ}
    (orthogonal : ∑ i ∈ range m, ∑ j ∈ range n, e i j * d i j = 0) :
    ∑ i ∈ range m, ∑ j ∈ range n, e i j ^ 2 ≤
      ∑ i ∈ range m, ∑ j ∈ range n, (e i j + d i j) ^ 2 := by
  have squares : 0 ≤ ∑ i ∈ range m, ∑ j ∈ range n, d i j ^ 2 :=
    sum_nonneg fun i _ => sum_nonneg fun j _ => sq_nonneg (d i j)
  have expanded : ∑ i ∈ range m, ∑ j ∈ range n, (e i j + d i j) ^ 2 =
      ∑ i ∈ range m, ∑ j ∈ range n, e i j ^ 2 +
        2 * ∑ i ∈ range m, ∑ j ∈ range n, e i j * d i j +
        ∑ i ∈ range m, ∑ j ∈ range n, d i j ^ 2 := by
    simp only [add_sq, mul_assoc, sum_add_distrib, mul_sum]
  rw [expanded, orthogonal]
  linarith

/-! ## Other grids -/

theorem IsWeighting.getD_pos {given : Option (List ℝ)} {count : ℕ} {lengths : List ℝ}
    (h : IsWeighting given count lengths) {j : ℕ} (hj : j < count) : 0 < lengths.getD j 0 := by
  have inside : j < lengths.length := by rwa [h.length]
  rw [List.getD_eq_getElem _ _ inside]
  exact h.pos _ (List.getElem_mem inside)

theorem getD_map_mul (lengths : List ℝ) (k : ℝ) (j : ℕ) :
    (lengths.map (· * k)).getD j 0 = lengths.getD j 0 * k := by
  rw [List.getD, List.getD, List.getElem?_map]
  cases lengths[j]? <;> simp

/-- Tracks that keep the same weights are shifts of each other. -/
theorem IsWeighting.isShift {given : Option (List ℝ)} {count : ℕ} {lengths others : List ℝ}
    (h : IsWeighting given count lengths) (other : IsWeighting given count others) :
    IsShift given count fun j => Real.log (others.getD j 0) - Real.log (lengths.getD j 0) := by
  intro asked
  obtain ⟨ws, rfl⟩ := Option.ne_none_iff_exists'.mp asked
  obtain ⟨k, hk⟩ := h.proportional ws rfl
  obtain ⟨l, hl⟩ := other.proportional ws rfl
  refine ⟨Real.log l - Real.log k, ?_⟩
  intro j hj
  have length := (h.getD_pos (mem_range.mp hj)).ne'
  have length' := (other.getD_pos (mem_range.mp hj)).ne'
  rw [hk, getD_map_mul] at length
  rw [hl, getD_map_mul] at length'
  simp only [hk, hl, getD_map_mul]
  rw [Real.log_mul (left_ne_zero_of_mul length') (right_ne_zero_of_mul length'),
    Real.log_mul (left_ne_zero_of_mul length) (right_ne_zero_of_mul length)]
  ring

theorem log_cellRatio {aspect : ℝ} {columns rows : List ℝ} {i j : ℕ} (ha : 0 < aspect)
    (hw : 0 < columns.getD j 0) (hh : 0 < rows.getD i 0) :
    Real.log (cellRatio aspect columns rows i j) =
      Real.log aspect + Real.log (columns.getD j 0) - Real.log (rows.getD i 0) := by
  rw [cellRatio, Real.log_div (mul_pos ha hw).ne' hh.ne', Real.log_mul ha.ne' hw.ne']

/-- A grid whose deviations are balanced fits at least as well as every other. -/
theorem Balanced.misfit_le {aspects : List (List (Option ℝ))} {aspect aspect' : ℝ}
    {columns rows columns' rows' : List ℝ} (ha : 0 < aspect)
    (hw : IsWeighting widths (columnCount aspects) columns)
    (hh : IsWeighting heights aspects.length rows)
    (balanced : Balanced widths heights aspects.length (columnCount aspects) fun i j =>
      Real.log (cellRatio aspect columns rows i j) - askedLog aspects i j)
    (ha' : 0 < aspect') (hw' : IsWeighting widths (columnCount aspects) columns')
    (hh' : IsWeighting heights aspects.length rows') :
    misfit aspects (cellRatio aspect columns rows) ≤
      misfit aspects (cellRatio aspect' columns' rows') := by
  refine (sum_sq_le_of_orthogonal (balanced.orthogonal (Real.log aspect' - Real.log aspect)
    (hw.isShift hw') (hh.isShift hh'))).trans_eq ?_
  refine sum_congr rfl fun i hi => sum_congr rfl fun j hj => ?_
  rw [mem_range] at hi hj
  rw [log_cellRatio ha (hw.getD_pos hj) (hh.getD_pos hi),
    log_cellRatio ha' (hw'.getD_pos hj) (hh'.getD_pos hi)]
  ring

/-! ## Averages -/

theorem expect_centred {count : ℕ} (nonzero : count ≠ 0) (f : ℕ → ℝ) :
    𝔼 j ∈ range count, (f j - 𝔼 k ∈ range count, f k) = 0 := by
  rw [expect_sub_distrib, expect_const (nonempty_range_iff.mpr nonzero), sub_self]

theorem sum_eq_zero_of_expect {count : ℕ} {f : ℕ → ℝ} (h : 𝔼 k ∈ range count, f k = 0) :
    ∑ k ∈ range count, f k = 0 := by
  rw [← card_smul_expect, h, smul_zero]

/-- Deviations from logarithms `log` are balanced if the columns and rows are as far from the
average of all logarithms as their own averages are, where they may be. -/
theorem balanced_of_averages (hm : m ≠ 0) (hn : n ≠ 0) (log : ℕ → ℕ → ℝ) (across down : ℕ → ℝ)
    (hacross : 𝔼 j ∈ range n, across j = 0) (hdown : 𝔼 i ∈ range m, down i = 0) :
    let mean := 𝔼 i ∈ range m, 𝔼 j ∈ range n, log i j
    (widths = none → ∀ j < n, across j = (𝔼 i ∈ range m, log i j) - mean) →
    (heights = none → ∀ i < m, down i = mean - 𝔼 j ∈ range n, log i j) →
    Balanced widths heights m n fun i j => mean + across j - down i - log i j := by
  intro mean free_across free_down
  have some_m := nonempty_range_iff.mpr hm
  have some_n := nonempty_range_iff.mpr hn
  have column : ∀ j, 𝔼 i ∈ range m, (mean + across j - down i - log i j) =
      mean + across j - 𝔼 i ∈ range m, log i j := by
    intro j
    rw [expect_sub_distrib, expect_sub_distrib, expect_const some_m, hdown, sub_zero]
  have row : ∀ i, 𝔼 j ∈ range n, (mean + across j - down i - log i j) =
      mean - down i - 𝔼 j ∈ range n, log i j := by
    intro i
    rw [expect_sub_distrib, expect_sub_distrib, expect_add_distrib, expect_const some_n,
      expect_const some_n, hacross, add_zero]
  have whole : 𝔼 i ∈ range m, (mean - down i - 𝔼 j ∈ range n, log i j) = 0 := by
    rw [expect_sub_distrib, expect_sub_distrib, expect_const some_m, hdown, sub_zero, sub_self]
  constructor
  · simp only [← card_smul_expect (range n), row, ← smul_sum]
    rw [sum_eq_zero_of_expect whole, smul_zero]
  · intro free j hj
    refine sum_eq_zero_of_expect ?_
    rw [column, free_across free j (mem_range.mp hj)]
    ring
  · intro free i hi
    refine sum_eq_zero_of_expect ?_
    rw [row, free_down free i (mem_range.mp hi)]
    ring

/-! ## The grid that is chosen -/

/-- The logarithm of the size of a track, less the average of all of them. -/
noncomputable def centredLog (lengths : List ℝ) (count j : ℕ) : ℝ :=
  Real.log (lengths.getD j 0) - 𝔼 k ∈ range count, Real.log (lengths.getD k 0)

/-- Normalized exponentials have the logarithms that they are made from, up to their average. -/
theorem centredLog_normalize_exp {count : ℕ} {f : ℕ → ℝ} (centred : 𝔼 k ∈ range count, f k = 0)
    {j : ℕ} (hj : j < count) :
    centredLog (normalize ((List.range count).map fun k => Real.exp (f k))) count j = f j := by
  have nonzero : count ≠ 0 := Nat.ne_zero_of_lt hj
  have total : 0 < ∑ k ∈ range count, Real.exp (f k) :=
    sum_pos (fun k _ => Real.exp_pos _) (nonempty_range_iff.mpr nonzero)
  -- normalizing shifts all logarithms by that of the sum, which drops out against their average
  have size : ∀ k < count,
      Real.log ((normalize ((List.range count).map fun k => Real.exp (f k))).getD k 0) =
        f k - Real.log (∑ k ∈ range count, Real.exp (f k)) := by
    intro k hk
    rw [normalize_eq, sum_map_range, List.map_map]
    simp [List.getD, hk, Real.log_div (Real.exp_pos (f k)).ne' total.ne']
  rw [centredLog, size j hj, expect_congr rfl fun k hk => size k (mem_range.mp hk),
    expect_sub_distrib, centred, expect_const (nonempty_range_iff.mpr nonzero)]
  ring

/-- The mean of the logarithms of lengths. -/
theorem mean_map_log {lengths : List ℝ} {count : ℕ} (h : lengths.length = count) :
    Scalar.mean (lengths.map Scalar.log) = 𝔼 k ∈ range count, Real.log (lengths.getD k 0) := by
  rw [← mean_map_range]
  congr 1
  refine List.ext_getElem (by simpa using h) ?_
  intro k hk _
  have inside : k < lengths.length := by simpa using hk
  rw [List.getElem_map, List.getElem_map, List.getElem_range, List.getD_eq_getElem _ _ inside]
  rfl

/-- Cells keep their ratios when the tracks of an axis are shrunk together and the whole is as
well. -/
theorem cellRatio_scale (aspect : ℝ) (columns rows : List ℝ) {a b : ℝ} (ha : a ≠ 0) (hb : b ≠ 0)
    (i j : ℕ) :
    cellRatio (aspect * b / a) (columns.map (· * a)) (rows.map (· * b)) i j =
      cellRatio aspect columns rows i j := by
  rw [cellRatio, cellRatio, getD_map_mul, getD_map_mul, ← mul_div_mul_right _ (rows.getD i 0) hb]
  field_simp

section

variable {aspects : List (List (Option ℝ))} (nonempty : columnCount aspects ≠ 0)
  (hw : AreWeights widths (columnCount aspects)) (hh : AreWeights heights aspects.length)

include nonempty hw hh

/-- The ratio of a cell in a grid that is solved: the logarithm is the average of all that are asked
for, up to the sizes of its column and its row compared to the others. -/
theorem log_cellRatio_gridWeights {i j : ℕ} (hi : i < aspects.length)
    (hj : j < columnCount aspects) :
    let weights := gridWeights (columnCount aspects) aspects widths heights
    Real.log (cellRatio weights.contentAspect weights.widths weights.heights i j) =
      (𝔼 i ∈ range aspects.length, 𝔼 j ∈ range (columnCount aspects), askedLog aspects i j) +
        centredLog weights.widths (columnCount aspects) j -
        centredLog weights.heights aspects.length i := by
  intro weights
  obtain ⟨w, -⟩ := isWeighting_widths nonempty hw heights
  obtain ⟨h, -⟩ :=
    isWeighting_heights (ne_nil_of_columnCount nonempty) (columnCount aspects) widths hh
  have mean : weights.meanLog =
      𝔼 i ∈ range aspects.length, 𝔼 j ∈ range (columnCount aspects), askedLog aspects i j := by
    simp only [weights, gridWeights_eq]
  have content : Real.log weights.contentAspect = weights.meanLog -
      (𝔼 j ∈ range (columnCount aspects), Real.log (weights.widths.getD j 0)) +
      𝔼 i ∈ range aspects.length, Real.log (weights.heights.getD i 0) := by
    rw [← mean_map_log w.length, ← mean_map_log h.length]
    exact Real.log_exp _
  rw [log_cellRatio weights.contentAspect_pos (w.getD_pos hj) (h.getD_pos hi), content, mean,
    centredLog, centredLog]
  ring

/-- The deviations of a grid that is solved are balanced. -/
theorem balanced_gridWeights :
    let weights := gridWeights (columnCount aspects) aspects widths heights
    Balanced widths heights aspects.length (columnCount aspects) fun i j =>
      Real.log (cellRatio weights.contentAspect weights.widths weights.heights i j) -
        askedLog aspects i j := by
  intro weights
  have rows : aspects.length ≠ 0 := by
    simpa using ne_nil_of_columnCount nonempty
  have balanced : Balanced widths heights aspects.length (columnCount aspects) _ :=
    balanced_of_averages rows nonempty (askedLog aspects)
      (centredLog weights.widths (columnCount aspects)) (centredLog weights.heights aspects.length)
      (expect_centred nonempty _) (expect_centred rows _) ?_ ?_
  · refine balanced.congr fun i hi j hj => ?_
    rw [log_cellRatio_gridWeights nonempty hw hh (mem_range.mp hi) (mem_range.mp hj)]
  -- a free axis has the averages for logarithms, so nothing is left of them to be centred
  · rintro rfl j hj
    simp only [weights, gridWeights_eq, Option.getD_none]
    refine centredLog_normalize_exp ?_ hj
    rw [expect_comm]
    exact expect_centred nonempty _
  · rintro rfl i hi
    simp only [weights, gridWeights_eq, Option.getD_none]
    refine centredLog_normalize_exp ?_ hi
    rw [expect_sub_distrib, expect_const (nonempty_range_iff.mpr rows), sub_self]

/-- The gaps between tracks make no difference to the ratios of the cells. -/
theorem exists_balanced_aspect (spacing : GridSpacing ℝ) :
    let layout := solveGrid aspects widths heights spacing
    ∃ aspect, layout.aspect = some aspect ∧ 0 < aspect ∧
      Balanced widths heights aspects.length (columnCount aspects) fun i j =>
        Real.log (cellRatio aspect (layout.columns.map Limit.length)
          (layout.rows.map Limit.length) i j) - askedLog aspects i j := by
  intro layout
  have across := Spacing.room_pos spacing.column (columnCount aspects)
  have down := Spacing.room_pos spacing.row aspects.length
  refine ⟨_, aspect_solveGrid nonempty widths heights spacing,
    div_pos (mul_pos (GridWeights.contentAspect_pos _) down) across, ?_⟩
  refine (balanced_gridWeights nonempty hw hh).congr fun i _ j _ => ?_
  rw [map_length_columns nonempty, map_length_rows nonempty,
    cellRatio_scale _ _ _ across.ne' down.ne']

end

/-! ## Ratios that factor -/

theorem askedAspect_pos (aspects : List (List (Option ℝ))) (i j : ℕ) :
    0 < askedAspect aspects i j :=
  cellAspect_pos _

/-- A grid without deviations meets all that its cells ask for. -/
theorem eq_of_misfit_le_zero {aspects : List (List (Option ℝ))} {ratio : ℕ → ℕ → ℝ}
    (fits : misfit aspects ratio ≤ 0) {i j : ℕ} (hi : i < aspects.length)
    (hj : j < columnCount aspects) (positive : 0 < ratio i j) :
    ratio i j = askedAspect aspects i j := by
  have cell : ∀ i j, 0 ≤ (Real.log (ratio i j) - askedLog aspects i j) ^ 2 := fun i j => sq_nonneg _
  have row : ∀ i, 0 ≤ ∑ j ∈ range (columnCount aspects),
      (Real.log (ratio i j) - askedLog aspects i j) ^ 2 := fun i => sum_nonneg fun j _ => cell i j
  -- a sum of squares vanishes only with each of them
  have whole : misfit aspects ratio = 0 := fits.antisymm (sum_nonneg fun i _ => row i)
  have rows := (sum_eq_zero_iff_of_nonneg fun i _ => row i).mp whole i (mem_range.mpr hi)
  have cells := (sum_eq_zero_iff_of_nonneg fun j _ => cell i j).mp rows j (mem_range.mpr hj)
  have same : Real.log (ratio i j) = askedLog aspects i j := by
    rwa [sq_eq_zero_iff, sub_eq_zero] at cells
  exact Real.log_injOn_pos positive (askedAspect_pos aspects i j) same

/-- Ratios that factor into a number for each column and one for each row are met by a grid. -/
theorem exists_misfit_eq_zero {aspects : List (List (Option ℝ))}
    (nonempty : columnCount aspects ≠ 0) {u v : ℕ → ℝ}
    (factors : ∀ i < aspects.length, ∀ j < columnCount aspects,
      askedAspect aspects i j = u j * v i) :
    ∃ columns rows, IsWeighting none (columnCount aspects) columns ∧
      IsWeighting none aspects.length rows ∧ misfit aspects (cellRatio 1 columns rows) = 0 := by
  have rows : 0 < aspects.length := List.length_pos_iff.mpr (ne_nil_of_columnCount nonempty)
  have hu : ∀ j < columnCount aspects, u j ≠ 0 := fun j hj =>
    left_ne_zero_of_mul (factors 0 rows j hj ▸ askedAspect_pos aspects 0 j).ne'
  have hv : ∀ i < aspects.length, v i ≠ 0 := fun i hi =>
    right_ne_zero_of_mul
      (factors i hi 0 (Nat.pos_of_ne_zero nonempty) ▸ askedAspect_pos aspects i 0).ne'
  -- all factors may be negative, but only their products count
  refine ⟨(List.range (columnCount aspects)).map fun j => |u j|,
    (List.range aspects.length).map fun i => |v i|⁻¹, ⟨by simp, ?_, by simp⟩,
    ⟨by simp, ?_, by simp⟩, ?_⟩
  · rw [List.forall_mem_map]
    exact fun j hj => abs_pos.mpr (hu j (List.mem_range.mp hj))
  · rw [List.forall_mem_map]
    exact fun i hi => inv_pos.mpr (abs_pos.mpr (hv i (List.mem_range.mp hi)))
  · refine sum_eq_zero fun i hi => sum_eq_zero fun j hj => ?_
    rw [mem_range] at hi hj
    have met : cellRatio 1 ((List.range (columnCount aspects)).map fun j => |u j|)
        ((List.range aspects.length).map fun i => |v i|⁻¹) i j = askedAspect aspects i j := by
      have positive : 0 < u j * v i := factors i hi j hj ▸ askedAspect_pos aspects i j
      simp [cellRatio, hi, hj, factors i hi j hj, ← abs_mul, abs_of_pos positive]
    rw [met, askedLog, sub_self, zero_pow two_ne_zero]

/-! ## The best fit -/

/-- No grid fits the ratios of its children better than the one that is solved. Its tracks have
positive lengths that keep the given weights, and it has a ratio; a grid of another ratio, whose
tracks keep the given weights as well, does not come closer to what the cells ask for, by the sum of
the squares of the differences of logarithms over all cells, the missing ones of short rows
included. Without given weights, ratios that factor into a number for each column and one for each
row are met exactly. -/
theorem solveGrid_fits_best {aspects : List (List (Option ℝ))} (nonempty : columnCount aspects ≠ 0)
    (hw : AreWeights widths (columnCount aspects)) (hh : AreWeights heights aspects.length)
    (spacing : GridSpacing ℝ) :
    let layout := solveGrid aspects widths heights spacing
    let columns := layout.columns.map Limit.length
    let rows := layout.rows.map Limit.length
    IsWeighting widths (columnCount aspects) columns ∧ IsWeighting heights aspects.length rows ∧
      ∃ aspect, layout.aspect = some aspect ∧ 0 < aspect ∧
        (∀ aspect' columns' rows', 0 < aspect' →
          IsWeighting widths (columnCount aspects) columns' →
          IsWeighting heights aspects.length rows' →
          misfit aspects (cellRatio aspect columns rows) ≤
            misfit aspects (cellRatio aspect' columns' rows')) ∧
        (widths = none → heights = none → ∀ u v : ℕ → ℝ,
          (∀ i < aspects.length, ∀ j < columnCount aspects, askedAspect aspects i j = u j * v i) →
          ∀ i < aspects.length, ∀ j < columnCount aspects,
            cellRatio aspect columns rows i j = askedAspect aspects i j) := by
  intro layout columns rows
  obtain ⟨w, h⟩ := isWeighting_tracks nonempty widths heights spacing hw hh
  obtain ⟨aspect, found, positive, balanced⟩ := exists_balanced_aspect nonempty hw hh spacing
  refine ⟨w, h, aspect, found, positive, ?_, ?_⟩
  · intro aspect' columns' rows' positive' w' h'
    exact balanced.misfit_le positive w h positive' w' h'
  · rintro rfl rfl u v factors i hi j hj
    obtain ⟨columns', rows', w', h', exact⟩ := exists_misfit_eq_zero nonempty factors
    have fits := balanced.misfit_le positive w h one_pos w' h'
    rw [exact] at fits
    refine eq_of_misfit_le_zero fits hi hj ?_
    exact div_pos (mul_pos positive (w.getD_pos hj)) (h.getD_pos hi)

/-! ## A bookcase -/

/-- Two rows of ratios of which the second is shorter. -/
def raggedCase (first second third : ℝ) : List (List (Option ℝ)) :=
  [[some first, some second], [some third]]

/-- Ratios that are the same in both rows, the first of them that of a square. -/
noncomputable def evenCase (second : ℝ) : List (List (Option ℝ)) :=
  [[some 1, some second], [some 1, some second]]

/-- With given widths, a bookcase fits its ragged ratios at least as well as one of two equal rows;
even ratios are met exactly. -/
theorem solveGrid_fits_best_bookcase :
    let ragged := raggedCase 2 3 1
    let even := evenCase 2
    (columnCount ragged ≠ 0 ∧ AreWeights (some [1, 2]) (columnCount ragged) ∧
      AreWeights none ragged.length ∧ columnCount even ≠ 0 ∧
      AreWeights none (columnCount even) ∧ AreWeights none even.length) ∧
    (let layout := solveGrid ragged (some [1, 2]) none ⟨1 / 10, 0⟩
      ∃ aspect, layout.aspect = some aspect ∧
        misfit ragged (cellRatio aspect (layout.columns.map Limit.length)
          (layout.rows.map Limit.length)) ≤
        misfit ragged (cellRatio 2 [3, 6] [1, 1])) ∧
    let layout := solveGrid even none none ⟨1 / 10, 0⟩
    ∃ aspect, layout.aspect = some aspect ∧
      cellRatio aspect (layout.columns.map Limit.length) (layout.rows.map Limit.length) 1 1 =
        2 := by
  intro ragged even
  have columns : columnCount ragged ≠ 0 := two_ne_zero
  have columns' : columnCount even ≠ 0 := two_ne_zero
  have widths : AreWeights (some [1, 2]) (columnCount ragged) := by
    rintro ws ⟨rfl⟩
    exact ⟨rfl, by simp⟩
  have free : ∀ count, AreWeights none count := by
    rintro count ws ⟨⟩
  refine ⟨⟨columns, widths, free _, columns', free _, free _⟩, ?_, ?_⟩
  · obtain ⟨-, -, aspect, found, -, best, -⟩ :=
      solveGrid_fits_best columns widths (free _) ⟨1 / 10, 0⟩
    refine ⟨aspect, found, best 2 [3, 6] [1, 1] two_pos ⟨rfl, by simp, ?_⟩ ⟨rfl, by simp, by simp⟩⟩
    rintro ws ⟨rfl⟩
    exact ⟨3, by norm_num⟩
  · obtain ⟨-, -, aspect, found, -, -, exact⟩ :=
      solveGrid_fits_best columns' (free _) (free _) ⟨1 / 10, 0⟩
    refine ⟨aspect, found, ?_⟩
    rw [exact rfl rfl (fun j => if j = 0 then 1 else 2) (fun _ => 1) ?_ 1 one_lt_two 1 one_lt_two]
    · simp [even, askedAspect, evenCase, cellAspect, Option.filter]
    · intro i hi j hj
      have row : i = 0 ∨ i = 1 := Nat.le_one_iff_eq_zero_or_eq_one.mp (Nat.lt_succ_iff.mp hi)
      have column : j = 0 ∨ j = 1 := Nat.le_one_iff_eq_zero_or_eq_one.mp (Nat.lt_succ_iff.mp hj)
      rcases row with rfl | rfl <;> rcases column with rfl | rfl <;>
        simp [even, askedAspect, evenCase, cellAspect, Option.filter]

end SvgLayout
